import ProxyControl.Run
import ProxyControl.Table

/-!
# The Mieru manager: configurations, state and operations

The manager changes the configuration of a separate daemon, `mita`, always as
a whole. It keeps a state file of its own beside it: the digest of the
configuration it last saw accepted, a revision a caller must name to change
anything, the users that are disabled – taken out of the configuration and
kept here –, the names that may not be used again, and the operations it has
answered.

This module has the data and what each operation asks for: the configuration
it wants and the state that goes with it. How the two are brought about
together is `MieruTransaction`.

What the operations only carry along – the ports, the egress sections, the
documents these are made from – is left abstract, and a digest is a value of
an abstract type.
-/

namespace Mieru

open Table

/-! ## Configurations -/

/-- An error, with its class. -/
inductive Error
  | validation (message : String)
  | conflict (message : String)
  | mita (message : String)
  | egressInvalid (message : String)
  | egressUnreachable (message : String)
  | internal (message : String)
deriving DecidableEq, Repr

structure Quota where
  days : Nat
  megabytes : Nat
deriving DecidableEq, Repr

structure User where
  name : String
  password : Option String
  hashedPassword : Option String
  quotas : Option (List Quota)
  allowPrivateIP : Option Bool
  allowLoopbackIP : Option Bool
deriving DecidableEq, Repr

variable {Digest Section Rest Doc : Type}

structure Config (Section Rest : Type) where
  users : Option (List User)
  egress : Option Section
  /-- The ports, the logging, the DNS and the traffic settings. -/
  rest : Rest
deriving DecidableEq, Repr

/-- What digests are taken of. -/
inductive Hashed (Section Rest : Type)
  | config (config : Config Section Rest)
  | revision (config : Config Section Rest) (disabled : List (String × User))
      (tombstones : List String) (generation : Nat)
  /-- The text of a backup file. -/
  | backup (config : Config Section Rest)
deriving DecidableEq, Repr

/-- **What the manager is given**: the digests, the checks of the parts of a
configuration that no operation looks into, and the share links. -/
structure Site (Digest Section Rest Doc : Type) where
  hash : Hashed Section Rest → Digest
  /-- The hex digest of a text. -/
  sha256 : String → String
  checkBindings : Rest → Except Error Unit
  checkSettings : Rest → Except Error Unit
  checkEgress : Section → Except Error Unit
  checkTraffic : Rest → Except Error Unit
  /-- The link of a user, from its name and its password. -/
  share : String → String → Config Section Rest → Except Error String
  /-- The document of a section. -/
  fromMita : Option Section → Option Doc

def Config.usersOf (c : Config Section Rest) : List User := c.users.getD []

/-- `pyvalue::truthy` of a text that may be missing. -/
def truthy (text : Option String) : Bool := text.any fun t => decide (t ≠ "")

@[simp] theorem truthy_empty : truthy (some "") = false := rfl

def isHex64 (text : String) : Bool :=
  decide (text.utf8ByteSize = 64) && text.toList.all fun c =>
    c.isDigit || decide ('a' ≤ c ∧ c ≤ 'f')

/-- A quota within the bounds of `mita`'s schema. -/
def checkQuota (q : Quota) : Except Error Unit :=
  if ¬ (1 ≤ q.days ∧ q.days ≤ 2 ^ 31 - 1) then .error (.validation "invalid quota days")
  else if ¬ (1 ≤ q.megabytes ∧ q.megabytes ≤ 2 ^ 31 - 1) then
    .error (.validation "invalid quota MiB")
  else .ok ()

/-- The check of one user; `names` are those before it. -/
def checkUser (names : List String) (u : User) : Except Error Unit := do
  if u.name = "" ∨ 64 < u.name.utf8ByteSize then
    throw (.validation "user name must be nonempty and at most 64 bytes")
  if u.name ∈ names then throw (.validation "duplicate user name")
  if truthy u.password = truthy u.hashedPassword then
    throw (.validation "user requires exactly one credential")
  if u.password.any fun p => decide (64 < p.utf8ByteSize) then
    throw (.validation "password must be at most 64 bytes")
  if u.hashedPassword.any fun h => ! isHex64 h then
    throw (.validation "invalid hashed password")
  (u.quotas.getD []).forM checkQuota

/-- The check of the users in turn. -/
def checkUsers : List String → List User → Except Error Unit
  | _, [] => .ok ()
  | names, u :: us => do
    checkUser names u
    checkUsers (u.name :: names) us

/-- `validate_config`, with the elevated approval the manager's own calls have. -/
def validateConfig (site : Site Digest Section Rest Doc) (c : Config Section Rest) :
    Except Error Unit := do
  site.checkBindings c.rest
  checkUsers [] c.usersOf
  site.checkSettings c.rest
  match c.egress with
  | some sec => site.checkEgress sec
  | none => pure ()
  site.checkTraffic c.rest

/-- A user as `mita` reads it back: a fresh password is replaced by its digest,
and an empty list of quotas is left out. -/
def User.readback (sha256 : String → String) (u : User) : User :=
  { u with
    password := if truthy u.password then some "" else u.password
    hashedPassword :=
      if truthy u.password then some (sha256 (u.password.getD "" ++ "\x00" ++ u.name))
      else u.hashedPassword
    quotas := if u.quotas = some [] then none else u.quotas }

/-- `expected_readback`: the configuration as `mita` reads it back. -/
def Config.readback (sha256 : String → String) (c : Config Section Rest) : Config Section Rest :=
  { c with users := c.users.map fun us => us.map (User.readback sha256) }

theorem User.readback_readback (sha256 : String → String) (u : User) :
    (u.readback sha256).readback sha256 = u.readback sha256 := by
  unfold User.readback
  by_cases hp : truthy u.password
  · by_cases hq : u.quotas = some []
    · simp [hp, hq]
    · simp [hp, hq]
  · by_cases hq : u.quotas = some []
    · simp [hp, hq]
    · simp [hp, hq]

/-- Reading back what was read back changes nothing. -/
theorem Config.readback_readback (sha256 : String → String) (c : Config Section Rest) :
    (c.readback sha256).readback sha256 = c.readback sha256 := by
  unfold Config.readback
  simp only [Option.map_map]
  congr 2
  funext us
  simp only [Function.comp_apply, List.map_map]
  exact List.map_congr_left fun u _ => u.readback_readback sha256

/-! ## The state file -/

/-- The operations whose answers are kept. -/
inductive Recorded
  | create
  | rotate
deriving DecidableEq, Repr

/-- Who chose a password. -/
inductive Origin
  | caller
  | manager
deriving DecidableEq, Repr

/-- The answer of an operation, kept for its retries. -/
structure Record (Digest : Type) where
  operation : Recorded
  username : String
  revision : Digest
  /-- In seconds. -/
  completedAt : Int
  origin : Origin
deriving DecidableEq, Repr

/-- An entry of the egress history. -/
structure Entry (Section Doc : Type) where
  document : Option Doc
  raw : Option Section
  operationId : Option String
  appliedAt : Option Int
deriving DecidableEq, Repr

/-- A lane: a daemon of its own for some of the users. -/
structure Lane where
  slot : Nat
  users : List String
  upstream : String × String
deriving DecidableEq, Repr

/-- **The state file.** -/
structure State (Digest Section Doc : Type) where
  generation : Nat
  revision : Digest
  configHash : Digest
  /-- The rows of the disabled users. -/
  disabled : List (String × User)
  tombstones : List String
  operations : List (String × Record Digest)
  history : List (Entry Section Doc)
  lanes : List (String × Lane)
  lanesStale : Bool
  /-- One row per name, in their order. -/
  sorted : Table.Sorted disabled
deriving DecidableEq, Repr

theorem sorted_nil : Table.Sorted ([] : List (String × User)) := .nil

/-- How long an answer is kept, in seconds. -/
def operationRetention : Int := 7 * 86400

/-- `read_state`: answers that are too old are dropped. -/
def State.pruned (s : State Digest Section Doc) (now : Int) : State Digest Section Doc :=
  { s with operations := s.operations.filter fun e => now - operationRetention ≤ e.2.completedAt }

/-! ## Operations -/

/-- The operations that change the configuration. -/
inductive Operation
  | userCreate
  | userRotate
  | userEnable
  | userDisable
  | userDelete
  | userQuotas
  | egressApply
  | egressRollback
  | egressRefresh
deriving DecidableEq, Repr

/-- How a change reaches the running daemon. -/
inductive Mode
  | reload
  | restart
deriving DecidableEq, Repr

/-- `transaction_mode`; `none` where it depends on the change. -/
def Operation.mode : Operation → Option Mode
  | .userCreate => none
  | .userRotate | .userEnable | .userDisable | .userDelete => some .restart
  | .userQuotas => some .reload
  | .egressApply | .egressRollback | .egressRefresh => some .restart

/-- A new user with an elevated permission needs a restart. -/
def modeFor (op : Operation) (before desired : Config Section Rest) : Mode :=
  match op.mode with
  | some mode => mode
  | none =>
    if (desired.usersOf.filter fun u => ! before.usersOf.any fun v => v.name = u.name).any fun u =>
        u.allowPrivateIP = some true || u.allowLoopbackIP = some true
    then .restart else .reload

/-- **What an operation wants**: a configuration, and the state to go with it
once the configuration is accepted. -/
structure Change (Digest Section Rest Doc : Type) where
  operation : Operation
  mode : Mode
  desired : Config Section Rest
  state : State Digest Section Doc
  /-- The answer to keep, but for its revision. -/
  record : Option (String × (Digest → Record Digest))
  /-- The share link of the answer. -/
  share : Option String

/-- What an operation comes to, where it is not refused. -/
inductive Plan (Digest Section Rest Doc : Type)
  /-- It was answered before. -/
  | replayed (revision : Digest)
  | nothing
  | change (change : Change Digest Section Rest Doc)

/-- The request to create a user. -/
structure CreateRequest (Digest : Type) where
  username : String
  quotas : List Quota
  expectedRevision : Digest
  elevated : Bool
  allowPrivateIP : Bool
  allowLoopbackIP : Bool
  password : Option String
  operationId : Option String
deriving DecidableEq, Repr

/-- A request. `refresh` is the manager's own, made when it starts. -/
inductive Request (Digest Doc : Type)
  | create (request : CreateRequest Digest)
  | disable (username : String) (expectedRevision : Digest)
  | enable (username : String) (expectedRevision : Digest)
  | rotate (username : String) (expectedRevision : Digest) (password operationId : Option String)
  | delete (username : String) (expectedRevision : Digest)
  | quotas (username : String) (quotas : List Quota) (expectedRevision : Digest)
  | egressApply (expectedRevision : Digest) (document : Doc) (operationId : String)
  | egressRollback (expectedRevision : Digest)
  | egressRefresh
deriving DecidableEq, Repr

/-- What a request meets. -/
structure Env (Section Doc : Type) where
  /-- The time, in seconds. -/
  now : Int
  /-- A fresh password. -/
  token : String
  /-- The section of a document, with the credential of the router as
  it is now. -/
  target : Doc → Except Error (Option Section)
  assertReachable : Doc → Except Error Unit
  /-- `router_credential_stale`. -/
  credentialStale : Option Section → Bool

def isPassword (text : String) : Bool :=
  decide (16 ≤ text.utf8ByteSize ∧ text.utf8ByteSize ≤ 128)
    && text.toList.all fun c => c.isAlphanum || c == '_' || c == '.' || c == '~' || c == '-'

def isOperationId (text : String) : Bool :=
  decide (1 ≤ text.utf8ByteSize ∧ text.utf8ByteSize ≤ 128)
    && text.toList.all fun c => c.isAlphanum || c == '_' || c == ':' || c == '.' || c == '-'

def validateCredential (password operationId : Option String) : Except Error Unit := do
  if password.any fun p => ! isPassword p then throw (.validation "invalid password")
  if operationId.any fun op => ! isOperationId op then throw (.validation "invalid operation id")

def checkRevision [DecidableEq Digest] (s : State Digest Section Doc) (expected : Digest) :
    Except Error Unit :=
  if s.revision = expected then .ok () else .error (.conflict "desired revision does not match")

/-- The answer of a retry. It is looked up by its id and compared by
operation and name; the password is not part of it. -/
def replay (s : State Digest Section Doc) (operationId : Option String) (operation : Recorded)
    (username : String) : Except Error (Option Digest) :=
  match operationId.bind (find s.operations) with
  | none => .ok none
  | some record =>
    if record.operation ≠ operation ∨ record.username ≠ username then
      .error (.conflict "operation id already used for another request")
    else if record.origin ≠ .caller then
      .error (.conflict "operation result is unrecoverable; rotate the credential")
    else .ok (some record.revision)

/-- `record`, for an operation with an id. -/
def record (operation : Recorded) (username : String) (password operationId : Option String)
    (now : Int) : Option (String × (Digest → Record Digest)) :=
  operationId.map fun op =>
    (op, fun revision =>
      ⟨operation, username, revision, now, if truthy password then .caller else .manager⟩)

/-- The row of an active user. -/
def findActive (c : Config Section Rest) (username : String) : Except Error User :=
  match c.usersOf.find? fun u => u.name = username with
  | some u => .ok u
  | none => .error (.conflict "user not found")

/-- The configuration after its users are replaced. -/
def Config.setUsers (c : Config Section Rest) (users : List User) : Config Section Rest :=
  { c with users := some users }

/-- The users after the row of a name is replaced. -/
def updateUser (username : String) (f : User → User) (users : List User) : List User :=
  users.replaceF fun u => if u.name = username then some (f u) else none

/-- The users after the row of a name is taken out. -/
def removeUser (username : String) (users : List User) : List User :=
  users.eraseP fun u => u.name = username

/-- The password a user gets: the caller's, or a fresh one. -/
def chosenPassword (password : Option String) (token : String) : String :=
  if truthy password then password.getD "" else token

variable [DecidableEq Digest]

/-- `create_user`, up to its transaction. -/
def createUser (site : Site Digest Section Rest Doc) (env : Env Section Doc)
    (s : State Digest Section Doc) (observed : Config Section Rest) (r : CreateRequest Digest) :
    Except Error (Plan Digest Section Rest Doc) := do
  if r.username = "" ∨ 64 < r.username.utf8ByteSize then throw (.validation "invalid username")
  validateCredential r.password r.operationId
  -- A retry names the revision it saw, so the answer comes before the comparison.
  if let some revision ← replay s r.operationId .create r.username then
    return .replayed revision
  checkRevision s r.expectedRevision
  if r.username ∈ s.tombstones then throw (.conflict "username reuse is forbidden")
  if (observed.usersOf.any fun u => u.name = r.username)
      || (find s.disabled r.username).isSome then
    throw (.conflict "user already exists")
  if (r.allowPrivateIP || r.allowLoopbackIP) && ! r.elevated then
    throw (.validation "private/loopback SSRF flags require elevated approval")
  let raw := chosenPassword r.password env.token
  let user : User := ⟨r.username, some raw, none, some r.quotas,
    if r.allowPrivateIP then some true else none, if r.allowLoopbackIP then some true else none⟩
  let desired := observed.setUsers (observed.usersOf ++ [user])
  let share ← site.share r.username raw desired
  return .change ⟨.userCreate,
    if r.allowPrivateIP || r.allowLoopbackIP then .restart else .reload, desired, s,
    record .create r.username r.password r.operationId env.now, some share⟩

/-- `disable_user`, up to its transaction: the row moves to the state. -/
def disableUser (s : State Digest Section Doc) (observed : Config Section Rest) (username : String)
    (expectedRevision : Digest) : Except Error (Plan Digest Section Rest Doc) := do
  checkRevision s expectedRevision
  let row ← findActive observed username
  let s' := { s with
    disabled := putSorted s.disabled username row
    sorted := s.sorted.putSorted username row }
  return .change ⟨.userDisable, .restart,
    observed.setUsers (removeUser username observed.usersOf), s', none, none⟩

/-- The state after a disabled row is dropped. -/
def State.dropDisabled (s : State Digest Section Doc) (username : String) :
    State Digest Section Doc :=
  { s with disabled := erase s.disabled username, sorted := s.sorted.erase username }

/-- `enable_user`, up to its transaction: the row moves back. -/
def enableUser (s : State Digest Section Doc) (observed : Config Section Rest) (username : String)
    (expectedRevision : Digest) : Except Error (Plan Digest Section Rest Doc) := do
  checkRevision s expectedRevision
  match find s.disabled username with
  | none => throw (.conflict "user not found")
  | some row =>
    return .change ⟨.userEnable, .restart, observed.setUsers (observed.usersOf ++ [row]),
      s.dropDisabled username, none, none⟩

/-- `rotate_user`, up to its transaction. -/
def rotateUser (site : Site Digest Section Rest Doc) (env : Env Section Doc)
    (s : State Digest Section Doc) (observed : Config Section Rest) (username : String)
    (expectedRevision : Digest) (password operationId : Option String) :
    Except Error (Plan Digest Section Rest Doc) := do
  validateCredential password operationId
  if let some revision ← replay s operationId .rotate username then
    return .replayed revision
  checkRevision s expectedRevision
  let _ ← findActive observed username
  let raw := chosenPassword password env.token
  let desired := observed.setUsers (updateUser username
    (fun u => { u with password := some raw, hashedPassword := none }) observed.usersOf)
  let share ← site.share username raw desired
  return .change ⟨.userRotate, .restart, desired, s,
    record .rotate username password operationId env.now, some share⟩

/-- The lanes after a user has left them. -/
def leaveLanes (username : String) (lanes : List (String × Lane)) : List (String × Lane) :=
  lanes.map fun e => (e.1, { e.2 with users := e.2.users.erase username })

/-- `delete_user`, up to its transaction: the name may not be used again. -/
def deleteUser (s : State Digest Section Doc) (observed : Config Section Rest) (username : String)
    (expectedRevision : Digest) : Except Error (Plan Digest Section Rest Doc) := do
  checkRevision s expectedRevision
  let (desired, s) ←
    if (find s.disabled username).isSome then
      pure (observed, s.dropDisabled username)
    else do
      let _ ← findActive observed username
      pure (observed.setUsers (removeUser username observed.usersOf), s)
  return .change ⟨.userDelete, .restart, desired,
    { s with tombstones := s.tombstones ++ [username], lanes := leaveLanes username s.lanes },
    none, none⟩

/-- `set_quotas`, up to its transaction. -/
def setQuotas (s : State Digest Section Doc) (observed : Config Section Rest) (username : String)
    (quotas : List Quota) (expectedRevision : Digest) :
    Except Error (Plan Digest Section Rest Doc) := do
  checkRevision s expectedRevision
  let _ ← findActive observed username
  return .change ⟨.userQuotas, .reload,
    observed.setUsers (updateUser username (fun u => { u with quotas := some quotas })
      observed.usersOf), s, none, none⟩

/-- The configuration is valid and the one the state was
written for. -/
def observedConsistent (site : Site Digest Section Rest Doc) (s : State Digest Section Doc)
    (observed : Config Section Rest) : Except Error Unit := do
  validateConfig site observed
  if site.hash (.config observed) ≠ s.configHash then
    throw (.conflict "observed config changed outside manager")

/-- The history after a section is applied: its floor is the section that was
there before the first, and it keeps ten entries. -/
def pushEntry (history : List (Entry Section Doc)) (before : Option Section)
    (entry : Entry Section Doc) : List (Entry Section Doc) :=
  let history := (if history = [] then [⟨none, before, none, none⟩] else history) ++ [entry]
  history.drop (history.length - 10)

/-- The change of the egress section. -/
def egressChange (op : Operation) (s : State Digest Section Doc) (observed : Config Section Rest)
    (target : Option Section) (history : List (Entry Section Doc)) :
    Change Digest Section Rest Doc :=
  ⟨op, .restart, { observed with egress := target }, { s with history }, none, none⟩

/-- `egress_apply`, up to its transaction. -/
def egressApply [DecidableEq Doc] (site : Site Digest Section Rest Doc)
    (env : Env Section Doc) (s : State Digest Section Doc) (observed : Config Section Rest)
    (expectedRevision : Digest) (document : Doc) (operationId : String) :
    Except Error (Plan Digest Section Rest Doc) := do
  if ! isOperationId operationId then throw (.validation "invalid operation id")
  match s.history.getLast? with
  | some current =>
    if current.operationId = some operationId then
      if current.document = some document then
        return .replayed s.revision
      else throw (.conflict "operation id already used for another request")
  | none => pure ()
  checkRevision s expectedRevision
  observedConsistent site s observed
  let target ← env.target document
  env.assertReachable document
  return .change (egressChange .egressApply s observed target
    (pushEntry s.history observed.egress ⟨some document, none, some operationId, some env.now⟩))

/-- `egress_rollback`, up to its transaction: the entry before the last becomes
the last. -/
def egressRollback (site : Site Digest Section Rest Doc) (env : Env Section Doc)
    (s : State Digest Section Doc) (observed : Config Section Rest) (expectedRevision : Digest) :
    Except Error (Plan Digest Section Rest Doc) := do
  checkRevision s expectedRevision
  observedConsistent site s observed
  match s.history.dropLast.getLast? with
  | none => throw (.conflict "no previous egress to roll back to")
  | some previous =>
    let target ← match previous.document with
      | none => pure previous.raw
      | some document => do
        let target ← env.target document
        env.assertReachable document
        pure target
    return .change (egressChange .egressRollback s observed target
      (s.history.dropLast.dropLast ++ [{ previous with appliedAt := some env.now }]))

/-- `refresh_router_credential`, up to its transaction: a section whose
credential is stale is made again, unless it was edited by hand. -/
def egressRefresh [DecidableEq Doc] (site : Site Digest Section Rest Doc) (env : Env Section Doc)
    (s : State Digest Section Doc) (observed : Config Section Rest) :
    Except Error (Plan Digest Section Rest Doc) := do
  if ! env.credentialStale observed.egress then return .nothing
  match site.fromMita observed.egress with
  | none => return .nothing
  | some document =>
    match s.history.getLast? with
    | some last => if last.document ≠ some document then return .nothing
    | none => pure ()
    let target ← env.target document
    return .change (egressChange .egressRefresh s observed target s.history)

/-- **What a request comes to**, from the state file and the configuration. -/
def plan [DecidableEq Doc] (site : Site Digest Section Rest Doc)
    (env : Env Section Doc) (file : State Digest Section Doc) (observed : Config Section Rest) :
    Request Digest Doc → Except Error (Plan Digest Section Rest Doc)
  | .create r => createUser site env (file.pruned env.now) observed r
  | .disable username rev => disableUser (file.pruned env.now) observed username rev
  | .enable username rev => enableUser (file.pruned env.now) observed username rev
  | .rotate username rev password op =>
    rotateUser site env (file.pruned env.now) observed username rev password op
  | .delete username rev => deleteUser (file.pruned env.now) observed username rev
  | .quotas username quotas rev => setQuotas (file.pruned env.now) observed username quotas rev
  | .egressApply rev document op =>
    egressApply site env (file.pruned env.now) observed rev document op
  | .egressRollback rev => egressRollback site env (file.pruned env.now) observed rev
  | .egressRefresh => egressRefresh site env (file.pruned env.now) observed

end Mieru
