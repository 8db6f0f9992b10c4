import ProxyControl.Table

/-!
# The NaiveProxy manager

The manager keeps the users of a Caddy proxy in a state file and prints their
credentials into the Caddyfile. Every call reads the state file, and a call
that changes something writes both files in one transaction: on an error the
old pair is put back, and where that fails as well – or the journal of the
transaction cannot be removed – the manager refuses every later change until
it is started again.

A call to create a user or to rotate a password may carry an operation id. The
answer is kept in the state file under it, for a week, and a retry is given the
kept answer.

Times are microseconds. The egress journal and the lanes, which the user calls
carry along unchanged, are left out.
-/

namespace Naive

/-! ## The state file -/

/-- An error, with its class. -/
inductive Error
  | value (message : String)
  | conflict (message : String) (code : String)
  | notFound (message : String)
  | recovery (message : String)
  /-- A failure of Caddy, of the accounting log or of the probe. -/
  | runtime (message : String)
  /-- A failure of a file, or any other. -/
  | other (message : String)
deriving DecidableEq, Repr

/-- `Error::conflict`. -/
def Error.configuration (message : String) : Error := .conflict message "configuration_conflict"

def Error.isRuntime : Error → Bool
  | .value _ | .other _ => false
  | .conflict .. | .notFound _ | .recovery _ | .runtime _ => true

/-- Why a user is disabled. -/
inductive Reason
  | manual
  | quota
deriving DecidableEq, Repr

/-- A user. -/
structure Row where
  username : String
  password : String
  enabled : Bool
  quota : Option Int
  disabledReason : Option Reason
  createdAt : Int
  updatedAt : Int
deriving DecidableEq, Repr

/-- The operations whose answers are kept. -/
inductive Recorded
  | create
  | rotate
deriving DecidableEq, Repr

/-- `reveal_row`: a user and its proxy URL. -/
structure Reveal where
  username : String
  proxyUrl : String
deriving DecidableEq, Repr

/-- A kept answer. -/
structure Record where
  operation : Recorded
  username : String
  completedAt : Int
  result : Reveal
deriving DecidableEq, Repr

/-- The state file. -/
structure State where
  users : List Row
  tombstones : List (String × Int)
  operations : List (String × Record)
deriving DecidableEq, Repr

/-- `OPERATION_RETENTION_SECONDS`. -/
def operationRetention : Int := 7 * 86400 * 1000000

/-- `read_state`: answers that are too old are dropped. -/
def State.read (s : State) (now : Int) : State :=
  { s with operations := s.operations.filter fun e => now - operationRetention ≤ e.2.completedAt }

/-! ## Checks -/

/-- A length in bytes, and only letters, digits and the given characters. -/
def charsIn (text : String) (low high : Nat) (extra : List Char) : Bool :=
  decide (low ≤ text.utf8ByteSize ∧ text.utf8ByteSize ≤ high)
    && text.toList.all fun c => c.isAlphanum || extra.contains c

/-- The name the accounting writes for what it cannot attribute. -/
def redactionSentinel : String := "invalid"

def validUsername (name : String) : Except Error Unit :=
  if ! charsIn name 1 64 ['_', '.', '-'] then .error (.value "invalid username")
  else if name = redactionSentinel then .error (.value "reserved username")
  else .ok ()

def validateQuota (quota : Option Int) : Except Error Unit :=
  if quota.all fun q => decide (1 ≤ q ∧ q ≤ 2 ^ 63 - 1) then .ok ()
  else .error (.value "invalid quota bytes")

/-- `validate_password`; `none` lets the manager choose. -/
def validatePassword (password : Option String) : Except Error Unit :=
  if password.all fun p => charsIn p 16 128 ['_', '.', '~', '-'] then .ok ()
  else .error (.value "invalid password")

def isOperationId (text : String) : Bool := charsIn text 1 128 ['_', ':', '.', '-']

/-! ## Operations -/

/-- What the manager is given. -/
structure Site where
  publicHost : String
  /-- The percent-encoding of a URL's parts. -/
  quote : String → String

/-- The traffic accounting, where it runs. -/
structure Collector where
  /-- `used_bytes`. -/
  used : Except Error Int
  /-- Whether no backlog is left. -/
  drain : Except Error Bool
  /-- `archive_user`. -/
  archive : Except Error Unit

/-- How a transaction ends. An error may leave a recovery pending. -/
inductive Ending
  | done
  /-- An error; both files are as before. -/
  | undone (error : Error) (pending : Bool)
  /-- An error; both files are the new ones. -/
  | placed (error : Error) (pending : Bool)

/-- What a call meets. -/
structure Env where
  now : Int
  /-- A fresh password. -/
  token : String
  collector : Option Collector
  ending : Ending

/-- What a success says. -/
inductive Reply
  | reveal (result : Reveal) (replayed : Bool)
  | enabled (username : String) (enabled : Bool) (reason : Option Reason)
  | quota (username : String) (quota : Option Int) (enabled : Bool) (reason : Option Reason)
  | exhausted (usernames : List String)
  | done
deriving DecidableEq, Repr

/-- **What a call comes to**, where it is not refused. -/
inductive Plan
  /-- It was answered before. -/
  | replayed (result : Reveal)
  | nothing (reply : Reply)
  /-- A new state, an answer, and what is left to do once the state is in place. -/
  | change (state : State) (reply : Reply) (after : Except Error Unit)

variable (site : Site)

/-- `reveal_row`. -/
def Row.reveal (row : Row) : Reveal :=
  ⟨row.username,
    "https://" ++ site.quote row.username ++ ":" ++ site.quote row.password ++ "@" ++ site.publicHost⟩

def find (s : State) (username : String) : Except Error Row :=
  match s.users.find? fun row => row.username = username with
  | some row => .ok row
  | none => .error (.notFound "user not found")

/-- The state after the row of a name is replaced. -/
def State.update (s : State) (username : String) (f : Row → Row) : State :=
  { s with users := s.users.replaceF fun row => if row.username = username then some (f row) else none }

/-- The kept answer of a retry. It is looked up by its id and compared
by operation and name. -/
def replay (s : State) (operationId : Option String) (operation : Recorded) (username : String) :
    Except Error (Option Reveal) :=
  match operationId with
  | none => .ok none
  | some op =>
    if ! isOperationId op then .error (.value "invalid operation id")
    else
      match Table.find s.operations op with
      | none => .ok none
      | some record =>
        if record.operation ≠ operation ∨ record.username ≠ username then
          .error (.conflict "operation id already used for another request" "operation_conflict")
        else .ok (some record.result)

def State.remember (s : State) (operationId : Option String) (record : Record) : State :=
  match operationId with
  | none => s
  | some op => { s with operations := Table.put s.operations op record }

/-- `create`, up to its transaction. -/
def create (env : Env) (s : State) (username : String) (quota : Option Int)
    (password operationId : Option String) : Except Error Plan := do
  validUsername username
  validateQuota quota
  validatePassword password
  if let some result ← replay s operationId .create username then
    return .replayed result
  if s.users.any fun row => row.username = username then
    throw (.configuration "user already exists")
  if s.tombstones.any fun e => e.1 = username then
    throw (.configuration "username is permanently retired")
  let row : Row := ⟨username, password.getD env.token, true, quota, none, env.now, env.now⟩
  let result := row.reveal site
  return .change ({ s with users := s.users ++ [row] }.remember operationId
    ⟨.create, username, env.now, result⟩) (.reveal result false) (.ok ())

/-- `rotate`, up to its transaction. -/
def rotate (env : Env) (s : State) (username : String) (password operationId : Option String) :
    Except Error Plan := do
  validatePassword password
  if let some result ← replay s operationId .rotate username then
    return .replayed result
  let row ← find s username
  let f := fun row : Row => { row with password := password.getD env.token, updatedAt := env.now }
  let result := (f row).reveal site
  return .change ((s.update username f).remember operationId
    ⟨.rotate, username, env.now, result⟩) (.reveal result false) (.ok ())

/-- Nothing where there is no accounting. -/
def usedBytes (env : Env) : Except Error Int :=
  match env.collector with
  | none => .ok 0
  | some collector => collector.used

/-- `set_enabled`, up to its transaction. -/
def setEnabled (env : Env) (s : State) (username : String) (enabled : Bool) :
    Except Error Plan := do
  let row ← find s username
  if enabled then
    if let some quota := row.quota then
      if quota ≤ (← usedBytes env) then
        throw (.conflict "quota exhausted; reset traffic or remove quota first" "quota_exhausted")
  let reason := if enabled then none else some .manual
  return .change (s.update username fun row =>
    { row with enabled, disabledReason := reason, updatedAt := env.now })
    (.enabled username enabled reason) (.ok ())

/-- A row under a new quota: an enabled user who has used it up is disabled, and
one it no longer holds back stays disabled by hand. -/
def Row.setQuota (row : Row) (quota : Option Int) (used now : Int) : Row :=
  if row.enabled && quota.any fun q => decide (q ≤ used) then
    { row with quota, enabled := false, disabledReason := some .quota, updatedAt := now }
  else if row.disabledReason = some .quota ∧ quota.all fun q => decide (used < q) then
    { row with quota, disabledReason := some .manual, updatedAt := now }
  else { row with quota, updatedAt := now }

/-- `set_quota`, up to its transaction. -/
def setQuota (env : Env) (s : State) (username : String) (quota : Option Int) :
    Except Error Plan := do
  validateQuota quota
  let row ← find s username
  let used ← usedBytes env
  let row := row.setQuota quota used env.now
  return .change (s.update username fun row => row.setQuota quota used env.now)
    (.quota username quota row.enabled row.disabledReason) (.ok ())

/-- `delete`, up to its transaction: the name may not be used again. -/
def delete (env : Env) (s : State) (username : String) : Except Error Plan := do
  match env.collector with
  | none => throw (.configuration "traffic accounting is unavailable")
  | some collector =>
    let _ ← find s username
    match collector.drain with
    | .ok true => pure ()
    | .ok false => throw (.configuration "traffic backlog remains pending")
    | .error (.conflict message code) => throw (.conflict message code)
    | .error e =>
      throw (if e.isRuntime then .configuration "traffic accounting is degraded" else e)
    return .change { s with
      users := s.users.filter fun row => row.username ≠ username
      tombstones := s.tombstones ++ [(username, env.now)] } .done collector.archive

/-- Whether a report shows that a user has used up its quota. -/
def Row.exhausted (row : Row) (usage : List (String × Int)) : Bool :=
  row.enabled && row.quota.any fun q => decide (q ≤ (Table.find usage row.username).getD 0)

/-- `enforce_quotas_from_report`, up to its transaction. -/
def enforceQuotas (env : Env) (s : State) (usage : List (String × Int)) : Plan :=
  let names := (s.users.filter fun row => row.exhausted usage).map Row.username
  if names = [] then .nothing (.exhausted [])
  else
    .change { s with users := s.users.map fun row =>
      if row.exhausted usage then
        { row with enabled := false, disabledReason := some .quota, updatedAt := env.now }
      else row } (.exhausted names) (.ok ())

inductive Call
  | create (username : String) (quota : Option Int) (password operationId : Option String)
  | rotate (username : String) (password operationId : Option String)
  | setEnabled (username : String) (enabled : Bool)
  | setQuota (username : String) (quota : Option Int)
  | delete (username : String)
  /-- The manager's own, with a report of the bytes used. -/
  | enforceQuotas (usage : List (String × Int))
deriving DecidableEq, Repr

/-- What a call comes to, from the state file. -/
def plan (env : Env) (file : State) : Call → Except Error Plan
  | .create username quota password op =>
    create site env (file.read env.now) username quota password op
  | .rotate username password op => rotate site env (file.read env.now) username password op
  | .setEnabled username enabled => setEnabled env (file.read env.now) username enabled
  | .setQuota username quota => setQuota env (file.read env.now) username quota
  | .delete username => delete env (file.read env.now) username
  | .enforceQuotas usage => .ok (enforceQuotas env (file.read env.now) usage)

/-! ## Transactions -/

/-- **The manager**: its state file, and whether a recovery is pending. -/
structure Manager where
  state : State
  pending : Bool
deriving DecidableEq, Repr

def apply (m : Manager) (desired : State) (ending : Ending) : Manager × Except Error Unit :=
  if m.pending then (m, .error (.recovery "transaction recovery required before mutation"))
  else
    match ending with
    | .done => ({ m with state := desired }, .ok ())
    | .undone error pending => ({ m with pending }, .error error)
    | .placed error pending => (⟨desired, pending⟩, .error error)

def call (m : Manager) (env : Env) (c : Call) : Manager × Except Error Reply :=
  match plan site env m.state c with
  | .error e => (m, .error e)
  | .ok (.replayed result) => (m, .ok (.reveal result true))
  | .ok (.nothing reply) => (m, .ok reply)
  | .ok (.change state reply after) =>
    match apply m state env.ending with
    | (m', .error e) => (m', .error e)
    | (m', .ok ()) =>
      match after with
      | .error e => (m', .error e)
      | .ok () => (m', .ok reply)

end Naive
