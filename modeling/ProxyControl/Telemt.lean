import ProxyControl.Reconciler

/-!
# The Telemt adapter

Telemt keeps the MTProxy users and their secrets. A request to it carries no id, so one
whose reply is lost cannot be sent again as the same request. What the adapter does
instead is to read back: Telemt shows every user with a link, and the link carries the
secret. After a lost reply the adapter takes what the runtime holds now for what its
request has left there.

For a request to create a user that is sound where the user was not there before. For
a request to rotate a secret it is not: a link that shows *a* secret does not show that
the secret is new. A rotation that is lost on its way to Telemt reports the old
credential as the new one (`rotation_never_happened`), and so does one that is sent
again without the caller's secret, which some builds refuse. `rotated_iff_told` says
that nothing else goes wrong.

The runtime is a table of users and their secrets. A *fate* says of each request in
turn whether it takes effect, what becomes of its reply, and which secret Telemt would
choose. A reply that arrives as a success is one of a request that took effect; a
refusal may come from a request that did, which covers replies that cannot be read.
-/

namespace Telemt

open Table
open Reconciler (Bytes CredentialOrigin CredentialPlan)

/-! ## The client -/

structure TelemtError where
  message : String
  statusCode : Nat
  /-- The request was sent and its reply never came. -/
  indeterminate : Bool
deriving DecidableEq, Repr

/-- The link of a user, the secret in it and the endpoint it points at. -/
structure TelemtAccess where
  link : String
  secret : Option String
  server : Option String
  port : Option Nat
deriving DecidableEq, Repr

inductive Mutation
  | create
  | rotate
deriving DecidableEq, Repr

inductive Cmd
  | mutate (mutation : Mutation) (username : String) (secret : Option String)
  | deleteUser (username : String)
  | currentAccess (username : String)

/-- The answers. That to a mutation shows the user with its link. -/
def Reply : Cmd → Type
  | .mutate _ _ _ => Except TelemtError (Option TelemtAccess)
  | .deleteUser _ => Except TelemtError Unit
  | .currentAccess _ => Except TelemtError (Option TelemtAccess)

abbrev Op (ε α : Type) := Prog Cmd Reply ε α

def call {ε : Type} (mutation : Mutation) (username : String) (secret : Option String) :
    Op ε (Except TelemtError (Option TelemtAccess)) :=
  Prog.ask (Cmd.mutate mutation username secret)

/-- Read back what the runtime holds now. -/
def currentAccess {ε : Type} (username : String) :
    Op ε (Except TelemtError (Option TelemtAccess)) :=
  Prog.ask (Cmd.currentAccess username)

def deleteUser {ε : Type} (username : String) : Op ε (Except TelemtError Unit) :=
  Prog.ask (Cmd.deleteUser username)

/-! ## The adapter -/

/-- The code of an error. The first two mark failures that are not the adapter's; the
source writes them as texts that start so and reads them back. -/
inductive ErrorCode
  | runtimeError (statusCode : Nat)
  | runtimeIndeterminate (statusCode : Nat)
  | other (text : String)
deriving DecidableEq, Repr

structure AdapterError where
  message : String
  /-- A delete whose user was already missing. -/
  alreadyGone : Bool
  code : Option ErrorCode
  /-- A person has to decide. -/
  manualIntervention : Bool
deriving DecidableEq, Repr

def AdapterError.new (message : String) : AdapterError := ⟨message, false, none, false⟩

def refused (_ : TelemtError) : AdapterError := .new "Telemt refused the request"

/-- A Telemt error that escapes as it is. -/
def rawTelemt (error : TelemtError) : AdapterError :=
  { AdapterError.new error.message with
    code := some (if error.indeterminate then .runtimeIndeterminate error.statusCode
      else .runtimeError error.statusCode) }

/-- What an operation left on the runtime. -/
structure AppliedGrant where
  runtimeUsername : String
  enabled : Bool
  credential : Option String
  host : String
  port : Nat
  recovered : Bool
  credentialOrigin : CredentialOrigin
deriving DecidableEq, Repr

/-- **What the adapter is set up with**, and how Telemt writes the links: no two secrets
of a user have one link. -/
structure Site where
  publicHost : String
  publicPort : Nat
  access : String → String → Option TelemtAccess
  decodeUtf8 : Bytes → Option String
  access_injective : ∀ {username secret secret' a a'}, access username secret = some a →
    access username secret' = some a' → a.secret = a'.secret → a.secret ≠ none → secret = secret'

def TelemtAccess.hasSecret (access : TelemtAccess) : Bool := access.secret.any (· ≠ "")

def applied (site : Site) (username : String) (access : Option TelemtAccess)
    (enabled recovered : Bool) : AppliedGrant :=
  { runtimeUsername := username
    enabled := enabled
    credential := some ((access.bind (·.secret)).getD "")
    host := ((access.bind (·.server)).filter (· ≠ "")).getD site.publicHost
    port := ((access.bind (·.port)).filter (· ≠ 0)).getD site.publicPort
    recovered := recovered
    credentialOrigin := .caller }

/-- An outcome of an attempt: Telemt's answer, or the grant read back after a lost
reply. -/
inductive Attempt
  | answer (user : Option TelemtAccess)
  | recovered (applied : AppliedGrant)

def recover (site : Site) (username : String) : Op TelemtError (Option AppliedGrant) := do
  let access ← Prog.orFail (← currentAccess username)
  return (access.filter (·.hasSecret)).map fun access => applied site username (some access) true true

def attempt (site : Site) (mutation : Mutation) (username : String) (secret : Option String) :
    Op TelemtError Attempt := do
  match ← call mutation username secret with
  | .ok user => return .answer user
  | .error error =>
    if error.indeterminate then
      match ← recover site username with
      | some applied => return .recovered applied
      | none =>
        match mutation with
        -- Nothing was created, so a single retry is safe.
        | .create => return .answer (← Prog.orFail (← call mutation username secret))
        | .rotate => Prog.fail error
    else Prog.fail error

/-- Try a caller's secret; where the runtime refuses it, let the runtime choose. -/
def withCallerFallback (site : Site) (mutation : Mutation) (username : String)
    (secret : Option String) : Op AdapterError (Attempt × CredentialOrigin) := do
  let origin : CredentialOrigin := if secret.isSome then .caller else .manager
  match ← (attempt site mutation username secret).attempt with
  | .ok outcome => return (outcome, origin)
  | .error error =>
    if error.indeterminate then Prog.fail (rawTelemt error)
    else if secret.isNone ∨ ¬ (error.statusCode = 400 ∨ error.statusCode = 422) then
      Prog.fail (refused error)
    else
      match ← (attempt site mutation username none).attempt with
      | .ok outcome => return (outcome, .manager)
      | .error error =>
        Prog.fail (if error.indeterminate then rawTelemt error else refused error)

/-- The secret a plan brings. -/
def chosenSecret (site : Site) : CredentialPlan → Except AdapterError (Option String)
  | .manager => .ok none
  | .caller plaintext =>
    match site.decodeUtf8 plaintext with
    | some text => .ok (some text)
    | none =>
      .error { AdapterError.new "the credential is not UTF-8" with code := some (.runtimeError 500) }

/-- What an outcome comes to: an answer has to show a link. -/
def grantOf (site : Site) (username : String) :
    Attempt × CredentialOrigin → Except AdapterError AppliedGrant
  | (.recovered applied, _) => .ok applied
  | (.answer user, origin) =>
    match user.filter (·.hasSecret) with
    | none => .error (.new "Telemt returned a user without a connection link")
    | some access =>
      .ok { applied site username (some access) true false with credentialOrigin := origin }

def mutate (site : Site) (mutation : Mutation) (username : String) (plan : CredentialPlan) :
    Op AdapterError AppliedGrant := do
  let secret ← Prog.orFail (chosenSecret site plan)
  let outcome ← withCallerFallback site mutation username secret
  Prog.orFail (grantOf site username outcome)

/-- Telemt has no operation id: the adapter drops the one it is given. -/
def create (site : Site) (_operationId : String) (username : String) (plan : CredentialPlan) :
    Op AdapterError AppliedGrant :=
  mutate site .create username plan

@[inherit_doc create]
def rotate (site : Site) (_operationId : String) (username : String) (plan : CredentialPlan) :
    Op AdapterError AppliedGrant :=
  mutate site .rotate username plan

def delete (username : String) : Op AdapterError Unit := do
  match ← deleteUser username with
  | .ok () => return ()
  | .error error =>
    Prog.fail (if error.statusCode = 404 then { refused error with alreadyGone := true }
      else refused error)

/-! ## The runtime -/

/-- What becomes of a reply. -/
inductive Delivery
  | delivered
  /-- Refused, or not readable. -/
  | failed (message : String) (statusCode : Nat)
  | lost
deriving DecidableEq, Repr

structure Fate where
  lands : Bool
  delivery : Delivery
  /-- The secret Telemt would choose. -/
  fresh : String

/-- A request whose success is reported took effect. -/
def Fate.effective (fate : Fate) : Bool := fate.lands || decide (fate.delivery = .delivered)

def lostReply : TelemtError := ⟨"Telemt API reply was lost", 502, true⟩

/-- The reply that arrives in place of a result. -/
def Delivery.convey {α : Type} (result : Except TelemtError α) : Delivery → Except TelemtError α
  | .delivered => result
  | .failed message statusCode => .error ⟨message, statusCode, false⟩
  | .lost => .error lostReply

def apiError (statusCode : Nat) : TelemtError := ⟨s!"Telemt API error ({statusCode})", statusCode, false⟩

abbrev Users := List (String × String)

/-- The runtime's part: a name is created once, and only a user that is there can be
rotated or deleted. -/
def respond (site : Site) (fate : Fate) (users : Users) : (c : Cmd) → Reply c × Users
  | .mutate mutation username secret =>
    let found := (find users username).isSome
    let secret := secret.getD fate.fresh
    match mutation, found with
    | .create, true => (fate.delivery.convey (.error (apiError 409)), users)
    | .rotate, false => (fate.delivery.convey (.error (apiError 404)), users)
    | _, _ => (fate.delivery.convey (.ok (site.access username secret)),
        if fate.effective then put users username secret else users)
  | .deleteUser username =>
    if (find users username).isSome then
      (fate.delivery.convey (.ok ()), if fate.effective then erase users username else users)
    else (fate.delivery.convey (.error (apiError 404)), users)
  | .currentAccess username =>
    (fate.delivery.convey (.ok ((find users username).bind (site.access username))), users)

/-- The users, and how many requests were made. -/
structure Runtime where
  users : Users
  requests : Nat
deriving DecidableEq, Repr

/-- The requests meet their fates in turn. -/
def Runtime.respond (site : Site) (fates : Nat → Fate) (runtime : Runtime) (c : Cmd) :
    Reply c × Runtime :=
  let (reply, users) := Telemt.respond site (fates runtime.requests) runtime.users c
  (reply, ⟨users, runtime.requests + 1⟩)

/-- What an operation of the adapter ends with. -/
def perform {ε α : Type} (site : Site) (fates : Nat → Fate) (op : Op ε α) (runtime : Runtime) :
    Except ε α × Runtime :=
  op.eval (Runtime.respond site fates) runtime

/-! ## What a rotation ends with -/

/-- The link of a user, if it shows a secret. -/
def shown (site : Site) (username secret : String) : Option TelemtAccess :=
  (site.access username secret).filter (·.hasSecret)

/-- **A request is lost on its way and the link is read back**: it shows what was there
before. -/
def Hidden (site : Site) (users : Users) (username : String) (request read : Fate) : Prop :=
  request.delivery = .lost ∧ request.lands = false ∧ read.delivery = .delivered
    ∧ ((find users username).bind (shown site username)).isSome = true

/-- A refusal after which the adapter leaves the secret to the runtime. -/
def Delivery.refusesSecret : Delivery → Bool
  | .failed _ statusCode => decide (statusCode = 400 ∨ statusCode = 422)
  | _ => false

/-- **No request that leaves the old secret is hidden**: not the first one, and not the
one without the caller's secret that follows a refusal. -/
def Told (site : Site) (users : Users) (username : String) (plan : CredentialPlan)
    (fates : Nat → Fate) : Prop :=
  ∀ secret, chosenSecret site plan = .ok secret →
    ¬ Hidden site users username (fates 0) (fates 1)
    ∧ (secret.isSome = true → (fates 0).lands = false →
      ((fates 0).delivery.refusesSecret = true → ¬ Hidden site users username (fates 1) (fates 2))
      ∧ ((fates 0).delivery = .lost → (fates 1).delivery.refusesSecret = true →
        ¬ Hidden site users username (fates 2) (fates 3)))

/-- The secret was replaced, and the credential is the one that is live now and was not
live before. -/
def Rotated (site : Site) (users users' : Users) (username : String) (applied : AppliedGrant) :
    Prop :=
  find users' username ≠ find users username
  ∧ (∃ live access, find users' username = some live ∧ site.access username live = some access
    ∧ access.secret = applied.credential)
  ∧ ∀ old access, find users username = some old → site.access username old = some access →
    access.secret ≠ applied.credential

section Rotation

variable {site : Site} {fts : Nat → Fate} {username : String} {users : Users}
  {plan : CredentialPlan} {operationId : String} {grant : AppliedGrant} {outc : Attempt}
  {live : String} {error : TelemtError} {origin : CredentialOrigin} {after : Runtime}

/-- One request to rotate, with what the adapter makes of its reply. -/
abbrev rotating (site : Site) (fates : Nat → Fate) (username : String) (secret : Option String)
    (runtime : Runtime) : Except TelemtError Attempt × Runtime :=
  perform site fates (attempt site .rotate username secret) runtime

theorem eval_call {ε β : Type} (mutation : Mutation) (secr : Option String) (rt : Runtime)
    (f : Except TelemtError (Option TelemtAccess) → Op ε β) :
    (call mutation username secr >>= f).eval (Runtime.respond site fts) rt
      = (f (rt.respond site fts (.mutate mutation username secr)).1).eval (Runtime.respond site fts)
        (rt.respond site fts (.mutate mutation username secr)).2 :=
  rfl

theorem eval_currentAccess {ε β : Type} (rt : Runtime)
    (f : Except TelemtError (Option TelemtAccess) → Op ε β) :
    (currentAccess username >>= f).eval (Runtime.respond site fts) rt
      = (f ((fts rt.requests).delivery.convey
          (.ok ((find rt.users username).bind (site.access username))))).eval
        (Runtime.respond site fts) ⟨rt.users, rt.requests + 1⟩ :=
  rfl

theorem eval_recover (rt : Runtime) : (recover site username).eval (Runtime.respond site fts) rt
      = (((fts rt.requests).delivery.convey
          (.ok ((find rt.users username).bind (shown site username)))).map
            (Option.map fun access => applied site username (some access) true true),
        ⟨rt.users, rt.requests + 1⟩) := by
  unfold recover
  rw [eval_currentAccess]
  cases (fts rt.requests).delivery with
  | lost => rfl
  | failed msg statusCode => rfl
  | delivered =>
    cases find rt.users username with
    | none => rfl
    | some live => rfl

/-- The users after a request to rotate. -/
def rotatedUsers (fates : Nat → Fate) (username : String) (secret : Option String) (users : Users)
    (n : Nat) : Users :=
  if (fates n).effective then put users username (secret.getD (fates n).fresh) else users

/-- **One attempt to rotate**, request by request. -/
theorem perform_attempt (n : Nat) (secr : Option String) (hlive : find users username = some live) :
    rotating site fts username secr ⟨users, n⟩ = match (fts n).delivery with
      | .delivered => (.ok (.answer (site.access username (secr.getD (fts n).fresh))),
          ⟨rotatedUsers fts username secr users n, n + 1⟩)
      | .failed msg statusCode => (.error ⟨msg, statusCode, false⟩,
          ⟨rotatedUsers fts username secr users n, n + 1⟩)
      | .lost =>
        match (fts (n + 1)).delivery with
        | .failed msg statusCode => (.error ⟨msg, statusCode, false⟩,
            ⟨rotatedUsers fts username secr users n, n + 2⟩)
        | .lost => (.error lostReply, ⟨rotatedUsers fts username secr users n, n + 2⟩)
        | .delivered =>
          match (find (rotatedUsers fts username secr users n) username).bind
            (shown site username) with
          | some access => (.ok (.recovered (applied site username (some access) true true)),
              ⟨rotatedUsers fts username secr users n, n + 2⟩)
          | none => (.error lostReply, ⟨rotatedUsers fts username secr users n, n + 2⟩) := by
  have hrep : Runtime.respond site fts ⟨users, n⟩ (.mutate .rotate username secr)
      = ((fts n).delivery.convey (.ok (site.access username (secr.getD (fts n).fresh))),
        ⟨rotatedUsers fts username secr users n, n + 1⟩) := by
    unfold Runtime.respond respond
    simp only [hlive, Option.isSome_some]
    rfl
  unfold rotating perform attempt
  rw [eval_call, hrep]
  cases hdel : (fts n).delivery with
  | delivered => rfl
  | failed msg statusCode => rfl
  | lost =>
    show Prog.eval _ ((recover site username).bind _) _ = _
    rw [Prog.eval_bind, eval_recover]
    cases hdel' : (fts (n + 1)).delivery with
    | lost => rfl
    | failed msg statusCode => rfl
    | delivered =>
      cases (find (rotatedUsers fts username secr users n) username).bind (shown site username) with
      | none => rfl
      | some access => rfl

section Attempt

variable {users : Users} {live : String} {n : Nat} {secret : Option String}

/-- The secret after a request to rotate. -/
def rotatedSecret (fates : Nat → Fate) (secret : Option String) (live : String) (n : Nat) : String :=
  if (fates n).effective then secret.getD (fates n).fresh else live

theorem find_rotatedUsers (hlive : find users username = some live) :
    find (rotatedUsers fts username secret users n) username
      = some (rotatedSecret fts secret live n) := by
  unfold rotatedUsers rotatedSecret
  split
  · exact find_put_self ..
  · exact hlive

theorem attempt_users (hlive : find users username = some live) :
    (rotating site fts username secret ⟨users, n⟩).2.users
      = rotatedUsers fts username secret users n := by
  rw [perform_attempt n secret hlive]
  split
  · rfl
  · rfl
  split
  · rfl
  · rfl
  split
  · rfl
  · rfl

/-- What an attempt reports: the link of the live secret. -/
def Reports (site : Site) (username live : String) (outcome : Attempt) : Prop :=
  outcome = .answer (site.access username live)
    ∨ ∃ access, shown site username live = some access
      ∧ outcome = .recovered (applied site username (some access) true true)

/-- **A success reports the live secret**, and is a hidden loss if the request had no
effect. -/
theorem attempt_ok (hlive : find users username = some live)
    (hok : (rotating site fts username secret ⟨users, n⟩).1 = .ok outc) :
    Reports site username (rotatedSecret fts secret live n) outc
      ∧ ((fts n).effective = false → Hidden site users username (fts n) (fts (n + 1))) := by
  rw [perform_attempt n secret hlive] at hok
  split at hok
  next hdel =>
    have heff : (fts n).effective = true := by
      unfold Fate.effective
      simp [hdel]
    refine ⟨.inl ?_, fun h => absurd (heff.symm.trans h) (by decide)⟩
    unfold rotatedSecret
    rw [if_pos heff]
    exact (Except.ok.inj hok).symm
  · cases hok
  rename_i hdel
  split at hok
  · cases hok
  · cases hok
  rename_i hrd
  rw [find_rotatedUsers hlive, Option.bind_some] at hok
  split at hok
  next access hsh =>
    refine ⟨.inr ⟨access, hsh, (Except.ok.inj hok).symm⟩, fun heff => ?_⟩
    have hld : (fts n).lands = false := by
      exact (Bool.or_eq_false_iff.mp heff).1
    refine ⟨hdel, hld, hrd, ?_⟩
    unfold rotatedSecret at hsh
    rw [heff] at hsh
    rw [hlive, Option.bind_some]
    exact Option.isSome_of_eq_some hsh
  · cases hok

/-- **A refusal of the secret** comes with the reply to the request, or with the readback
after it was lost. -/
theorem attempt_refused (hlive : find users username = some live)
    (herr : (rotating site fts username secret ⟨users, n⟩).1 = .error error)
    (hkn : error.indeterminate = false)
    (hstat : error.statusCode = 400 ∨ error.statusCode = 422) :
    ((fts n).delivery.refusesSecret = true
      ∧ (rotating site fts username secret ⟨users, n⟩).2.requests = n + 1)
    ∨ ((fts n).delivery = .lost ∧ (fts (n + 1)).delivery.refusesSecret = true
      ∧ (rotating site fts username secret ⟨users, n⟩).2.requests = n + 2) := by
  rw [perform_attempt n secret hlive] at herr ⊢
  split at herr
  · cases herr
  next hdel =>
    obtain rfl := Except.error.inj herr
    rw [hdel]
    exact .inl ⟨decide_eq_true hstat, rfl⟩
  rename_i hdel
  rw [hdel]
  split at herr
  next hrd =>
    obtain rfl := Except.error.inj herr
    rw [hrd]
    exact .inr ⟨rfl, decide_eq_true hstat, rfl⟩
  · obtain rfl := Except.error.inj herr
    cases hkn
  split at herr
  · cases herr
  · obtain rfl := Except.error.inj herr
    cases hkn

/-- A hidden loss is reported as a success. -/
theorem attempt_hidden (h : Hidden site users username (fts n) (fts (n + 1))) :
    ∃ applied, rotating site fts username secret ⟨users, n⟩
      = (.ok (.recovered applied), ⟨users, n + 2⟩) := by
  obtain ⟨hdel, hld, hrd, hsh⟩ := h
  obtain ⟨access, hacs⟩ := Option.isSome_iff_exists.mp hsh
  obtain ⟨live, hlive, -⟩ := Option.bind_eq_some_iff.mp hacs
  have hus : rotatedUsers fts username secret users n = users := by
    unfold rotatedUsers Fate.effective
    rw [hld, hdel]
    rfl
  rw [perform_attempt n secret hlive, hdel, hus]
  simp only [hrd, hacs]
  exact ⟨_, rfl⟩

theorem Hidden.exists_live {req read : Fate} (h : Hidden site users username req read) :
    ∃ live, find users username = some live := by
  obtain ⟨access, hacs⟩ := Option.isSome_iff_exists.mp h.2.2.2
  obtain ⟨live, hlive, -⟩ := Option.bind_eq_some_iff.mp hacs
  exact ⟨live, hlive⟩

theorem Delivery.failed_of_refusesSecret {delivery : Delivery}
    (h : delivery.refusesSecret = true) : ∃ msg statusCode,
      delivery = .failed msg statusCode ∧ (statusCode = 400 ∨ statusCode = 422) := by
  cases delivery with
  | delivered => cases h
  | lost => cases h
  | failed msg statusCode => exact ⟨msg, statusCode, rfl, of_decide_eq_true h⟩

/-- Nobody can rotate the secret of a user that is not there. -/
theorem attempt_absent (habs : find users username = none) :
    ∃ error m, rotating site fts username secret ⟨users, n⟩ = (.error error, ⟨users, m⟩) := by
  have hrep : Runtime.respond site fts ⟨users, n⟩ (.mutate .rotate username secret)
      = ((fts n).delivery.convey (.error (apiError 404)), ⟨users, n + 1⟩) := by
    unfold Runtime.respond respond
    simp only [habs, Option.isSome_none]
    rfl
  unfold rotating perform attempt
  rw [eval_call, hrep]
  cases (fts n).delivery with
  | delivered => exact ⟨_, _, rfl⟩
  | failed msg statusCode => exact ⟨_, _, rfl⟩
  | lost =>
    dsimp only [Delivery.convey, lostReply]
    rw [if_pos rfl, Prog.bind_eq, Prog.eval_bind, eval_recover]
    simp only [habs, Option.bind_none]
    cases (fts (n + 1)).delivery with
    | delivered => exact ⟨_, _, rfl⟩
    | failed msg statusCode => exact ⟨_, _, rfl⟩
    | lost => exact ⟨_, _, rfl⟩

end Attempt

/-- **The two attempts of a rotation.** -/
theorem perform_withCallerFallback (secr : Option String) (rt : Runtime) :
    perform site fts (withCallerFallback site .rotate username secr) rt =
      match rotating site fts username secr rt with
      | (.ok outc, after) => (.ok (outc, if secr.isSome then .caller else .manager), after)
      | (.error error, after) =>
        if error.indeterminate then (.error (rawTelemt error), after)
        else if secr.isNone ∨ ¬ (error.statusCode = 400 ∨ error.statusCode = 422) then
          (.error (refused error), after)
        else
          match rotating site fts username none after with
          | (.ok outc, after) => (.ok (outc, .manager), after)
          | (.error error, after) =>
            (.error (if error.indeterminate then rawTelemt error else refused error), after) := by
  unfold rotating perform withCallerFallback
  rw [Prog.bind_eq, Prog.eval_bind, Prog.eval_attempt]
  cases hfst : Prog.eval (Runtime.respond site fts) (attempt site .rotate username secr) rt with
  | mk r after =>
    cases r with
    | ok outc => rfl
    | error error =>
      dsimp only
      split
      · rfl
      split
      · rfl
      rw [Prog.bind_eq, Prog.eval_bind, Prog.eval_attempt]
      cases hsnd : Prog.eval (Runtime.respond site fts) (attempt site .rotate username none)
          after with
      | mk r' after' =>
        cases r' with
        | ok outc => rfl
        | error error' => rfl

theorem perform_rotate {secr : Option String} (hsec : chosenSecret site plan = .ok secr)
    (rt : Runtime) :
    perform site fts (rotate site operationId username plan) rt =
      match perform site fts (withCallerFallback site .rotate username secr) rt with
      | (.ok outc, after) => (grantOf site username outc, after)
      | (.error error, after) => (.error error, after) := by
  unfold perform rotate mutate
  rw [hsec]
  show Prog.eval _ ((withCallerFallback site .rotate username secr).bind _) _ = _
  rw [Prog.eval_bind]
  cases Prog.eval (Runtime.respond site fts) (withCallerFallback site .rotate username secr) rt with
  | mk r after =>
    cases r with
    | error error => rfl
    | ok outc =>
      dsimp only
      cases grantOf site username outc with
      | ok applied => rfl
      | error error => rfl

/-- A credential that is reported is the one in the link. -/
theorem secret_of_grantOf (hreps : Reports site username live outc)
    (hg : grantOf site username (outc, origin) = .ok grant) :
    ∃ access, site.access username live = some access ∧ access.secret = grant.credential
      ∧ access.secret ≠ none := by
  have hshows {access : TelemtAccess} (hsh : shown site username live = some access) :
      site.access username live = some access ∧ access.secret ≠ none
        ∧ some (((some access).bind (·.secret)).getD "") = access.secret := by
    obtain ⟨hacs, hsec⟩ := Option.filter_eq_some_iff.mp hsh
    unfold TelemtAccess.hasSecret at hsec
    refine ⟨hacs, ?_⟩
    cases h : access.secret with
    | none =>
      rw [h] at hsec
      cases hsec
    | some secret =>
      rw [Option.bind_some, h]
      exact ⟨Option.some_ne_none secret, rfl⟩
  rcases hreps with rfl | ⟨access, hsh, rfl⟩
  · unfold grantOf at hg
    dsimp only at hg
    split at hg
    · cases hg
    next access hsh =>
      obtain ⟨hacs, hn, hsec⟩ := hshows hsh
      cases hg
      exact ⟨access, hacs, hsec.symm, hn⟩
  · obtain ⟨hacs, hn, hsec⟩ := hshows hsh
    cases hg
    exact ⟨access, hacs, hsec.symm, hn⟩

/-- A report of a live secret that is not the old one. -/
theorem rotated_of_reports {us us' : Users} {old : String}
    (hold : find us username = some old) (hlive : find us' username = some live)
    (hne : live ≠ old) (hreps : Reports site username live outc)
    (hg : grantOf site username (outc, origin) = .ok grant) :
    Rotated site us us' username grant := by
  obtain ⟨access, hacs, hsec, hn⟩ := secret_of_grantOf hreps hg
  refine ⟨fun h => ?_, ⟨live, access, hlive, hacs, hsec⟩, fun old' access' hold' hacs' h => ?_⟩
  · rw [hlive, hold] at h
    exact hne (Option.some.inj h)
  · obtain rfl := Option.some.inj (hold.symm.trans hold')
    exact hne (site.access_injective hacs hacs' (hsec.trans h.symm) hn)

/-- **A successful rotation**: its first attempt succeeded, or the secret was refused and
the one without it did. -/
theorem rotate_ok_cases
    (hok : perform site fts (rotate site operationId username plan) ⟨users, 0⟩ = (.ok grant, after))
    : ∃ secret outc origin first middle, chosenSecret site plan = .ok secret
      ∧ grantOf site username (outc, origin) = .ok grant
      ∧ rotating site fts username secret ⟨users, 0⟩ = (first, middle)
      ∧ (first = .ok outc ∧ middle = after
        ∨ ∃ error, first = .error error ∧ error.indeterminate = false
          ∧ (error.statusCode = 400 ∨ error.statusCode = 422) ∧ secret.isSome = true
          ∧ rotating site fts username none middle = (.ok outc, after)) := by
  cases hsec : chosenSecret site plan with
  | error error =>
    unfold perform rotate mutate at hok
    rw [hsec] at hok
    cases hok
  | ok secret =>
    rw [perform_rotate hsec, perform_withCallerFallback] at hok
    cases hfst : rotating site fts username secret ⟨users, 0⟩ with
    | mk r middle =>
      rw [hfst] at hok
      cases r with
      | ok outc =>
        obtain ⟨hg, rfl⟩ := Prod.mk.inj hok
        exact ⟨secret, outc, _, _, middle, rfl, hg, hfst, .inl ⟨rfl, rfl⟩⟩
      | error error =>
        dsimp only at hok
        by_cases hkn : error.indeterminate = true
        · rw [if_pos hkn] at hok
          cases hok
        by_cases hagain : secret.isNone ∨ ¬ (error.statusCode = 400 ∨ error.statusCode = 422)
        · rw [if_neg hkn, if_pos hagain] at hok
          cases hok
        rw [if_neg hkn, if_neg hagain] at hok
        obtain ⟨hcall, hstat⟩ := not_or.mp hagain
        rw [not_not] at hstat
        have hsm : secret.isSome = true := by
          rw [Option.isSome_iff_ne_none]
          simpa using hcall
        cases hsnd : rotating site fts username none middle with
        | mk r' last =>
          rw [hsnd] at hok
          cases r' with
          | error error' => cases hok
          | ok outc =>
            obtain ⟨hg, rfl⟩ := Prod.mk.inj hok
            exact ⟨secret, outc, .manager, _, middle, rfl, hg, hfst,
              .inr ⟨error, rfl, by simpa using hkn, hstat, hsm, hsnd⟩⟩

/-- **A rotation that is told** replaces the secret wherever it succeeds. -/
theorem rotated_of_told (hfr : ∀ old, find users username = some old →
      (∀ n, (fts n).fresh ≠ old) ∧ chosenSecret site plan ≠ .ok (some old))
    (htold : Told site users username plan fts)
    (hok : perform site fts (rotate site operationId username plan) ⟨users, 0⟩ = (.ok grant, after))
    : Rotated site users after.users username grant := by
  obtain ⟨secret, outc, origin, first, middle, hsec, hg, hfst, hcs⟩ :=
    rotate_ok_cases hok
  obtain ⟨hseen, hagain⟩ := htold secret hsec
  cases hold : find users username with
  | none =>
    -- Without the user neither attempt succeeds.
    obtain ⟨error, m, habs⟩ : ∃ error m, rotating site fts username secret ⟨users, 0⟩
          = (.error error, ⟨users, m⟩) := attempt_absent hold
    obtain ⟨rfl, rfl⟩ := Prod.mk.inj (hfst.symm.trans habs)
    rcases hcs with ⟨hcase, -⟩ | ⟨-, -, -, -, -, hsnd⟩
    · cases hcase
    · obtain ⟨error', m', habs'⟩ : ∃ error' m', rotating site fts username none ⟨users, m⟩
            = (.error error', ⟨users, m'⟩) := attempt_absent hold
      cases hsnd.symm.trans habs'
  | some old =>
    obtain ⟨hrt, hp⟩ := hfr old hold
    have hus : middle.users = rotatedUsers fts username secret users 0 :=
      (congrArg (·.2.users) hfst).symm.trans (attempt_users hold)
    have hlive : find middle.users username = some (rotatedSecret fts secret old 0) :=
      hus ▸ find_rotatedUsers hold
    have hnew (heff : (fts 0).effective = true) : rotatedSecret fts secret old 0 ≠ old := by
      unfold rotatedSecret
      rw [if_pos heff]
      cases secret with
      | none => exact hrt 0
      | some text =>
        rintro rfl
        exact hp hsec
    rcases hcs with ⟨rfl, rfl⟩ | ⟨error, rfl, hkn, hstat, hcall, hsnd⟩
    · obtain ⟨hreps, hhid⟩ := attempt_ok hold (congrArg Prod.fst hfst)
      have heff : (fts 0).effective = true := by
        by_contra h
        exact hseen (hhid (Bool.not_eq_true _ ▸ h))
      exact rotated_of_reports hold hlive (hnew heff) hreps hg
    · obtain ⟨middleUsers, m⟩ := middle
      obtain ⟨hreps, hhid⟩ := attempt_ok hlive (congrArg Prod.fst hsnd)
      have hl : find after.users username
          = some (rotatedSecret fts none (rotatedSecret fts secret old 0) m) := by
        rw [← find_rotatedUsers hlive, ← attempt_users hlive, hsnd]
      refine rotated_of_reports hold hl ?_ hreps hg
      cases heff : (fts m).effective with
      | true =>
        unfold rotatedSecret
        rw [if_pos heff]
        exact hrt m
      | false =>
        show (if (fts m).effective then _ else _) ≠ old
        rw [heff]
        refine hnew ?_
        -- Else the secret was refused and then lost unseen.
        by_contra h
        have heff₀ : (fts 0).effective = false := Bool.not_eq_true _ ▸ h
        have hld : (fts 0).lands = false :=
          (Bool.or_eq_false_iff.mp (show ((fts 0).lands || _) = false from heff₀)).1
        have hsm : middleUsers = users := by
          refine hus.trans ?_
          unfold rotatedUsers
          rw [heff₀]
          rfl
        have hlost := hhid heff
        rw [hsm] at hlost
        obtain ⟨hrep, hrd⟩ := hagain hcall hld
        rcases attempt_refused hold (congrArg Prod.fst hfst) hkn hstat with
          ⟨href, hm⟩ | ⟨hlost₀, href, hm⟩
        · rw [hfst] at hm
          obtain rfl : m = 1 := hm
          exact hrep href hlost
        · rw [hfst] at hm
          obtain rfl : m = 2 := hm
          exact hrd hlost₀ href hlost

/-- A second attempt that is lost unseen is reported as a success, too. -/
theorem rotate_hidden_again {operationId text : String} {m : Nat}
    (hsec : chosenSecret site plan = .ok (some text))
    (hfst : rotating site fts username (some text) ⟨users, 0⟩ = (.error error, ⟨users, m⟩))
    (hkn : error.indeterminate = false)
    (hstat : error.statusCode = 400 ∨ error.statusCode = 422)
    (hhid : Hidden site users username (fts m) (fts (m + 1))) :
    ∃ grant, perform site fts (rotate site operationId username plan) ⟨users, 0⟩
      = (.ok grant, ⟨users, m + 2⟩) := by
  obtain ⟨grant, hg⟩ : ∃ grant, rotating site fts username none ⟨users, m⟩
        = (.ok (.recovered grant), ⟨users, m + 2⟩) := attempt_hidden hhid
  have hagain : ¬ ((some text).isNone = true
      ∨ ¬ (error.statusCode = 400 ∨ error.statusCode = 422)) := by
    rw [not_or, not_not]
    exact ⟨by simp, hstat⟩
  refine ⟨grant, ?_⟩
  rw [perform_rotate hsec, perform_withCallerFallback, hfst]
  dsimp only
  rw [hkn, if_neg Bool.false_ne_true, if_neg hagain, hg]
  rfl

/-- **A rotation that reports success changed the secret if and only if no request that
left the old one was hidden**: no request to rotate was lost on its way while the
readback after it worked. -/
theorem rotated_iff_told (site : Site) (fates : Nat → Fate) (users : Users)
    (username operationId : String) (plan : CredentialPlan)
    (hfresh : ∀ old, Table.find users username = some old →
      (∀ n, (fates n).fresh ≠ old) ∧ chosenSecret site plan ≠ .ok (some old)) :
    (∀ grant after, perform site fates (rotate site operationId username plan) ⟨users, 0⟩
        = (.ok grant, after) → Rotated site users after.users username grant)
      ↔ Told site users username plan fates := by
  refine ⟨fun h secret hsecret => ?_, fun htold grant after => rotated_of_told hfresh htold⟩
  -- A hidden loss leaves the users as they were.
  have hunchanged {m : Nat} (hok : ∃ grant, perform site fates
      (rotate site operationId username plan) ⟨users, 0⟩ = (.ok grant, ⟨users, m⟩)) : False := by
    obtain ⟨grant, hgrant⟩ := hok
    exact (h grant _ hgrant).1 rfl
  refine ⟨fun hhidden => ?_, fun hcaller hlands => ?_⟩
  · obtain ⟨grant, hgrant⟩ : ∃ grant,
        rotating site fates username secret ⟨users, 0⟩
          = (.ok (.recovered grant), ⟨users, 2⟩) := attempt_hidden hhidden
    refine hunchanged (m := 2) ⟨grant, ?_⟩
    rw [perform_rotate hsecret, perform_withCallerFallback, hgrant]
    rfl
  · obtain ⟨text, rfl⟩ := Option.isSome_iff_exists.mp hcaller
    refine ⟨fun hrefuses hhidden => ?_, fun hlost hrefuses hhidden => ?_⟩
    · obtain ⟨live, hlive⟩ := hhidden.exists_live
      obtain ⟨message, statusCode, hdelivery, hstatus⟩ := Delivery.failed_of_refusesSecret hrefuses
      have hrefused : rotating site fates username (some text) ⟨users, 0⟩
          = (.error ⟨message, statusCode, false⟩, ⟨users, 1⟩) := by
        rw [perform_attempt 0 (some text) hlive, hdelivery]
        unfold rotatedUsers Fate.effective
        rw [hlands, hdelivery]
        rfl
      exact hunchanged (rotate_hidden_again hsecret hrefused rfl hstatus hhidden)
    · obtain ⟨live, hlive⟩ := hhidden.exists_live
      obtain ⟨message, statusCode, hdelivery, hstatus⟩ := Delivery.failed_of_refusesSecret hrefuses
      have hrefused : rotating site fates username (some text) ⟨users, 0⟩
          = (.error ⟨message, statusCode, false⟩, ⟨users, 2⟩) := by
        rw [perform_attempt 0 (some text) hlive, hlost]
        unfold rotatedUsers Fate.effective
        rw [hlands, hlost]
        simp only [Nat.zero_add, hdelivery]
        rfl
      exact hunchanged (rotate_hidden_again hsecret hrefused rfl hstatus hhidden)

end Rotation

namespace Sample

/-- Links of one host. -/
def site : Site where
  publicHost := "proxy.example"
  publicPort := 443
  access username secret := some ⟨"tg://proxy?user=" ++ username ++ "&secret=ee" ++ secret,
    some ("ee" ++ secret), some "proxy.example", some 443⟩
  decodeUtf8 _ := none
  access_injective h h' hsec _ := by
    cases h
    cases h'
    exact String.append_right_inj "ee" |>.mp (Option.some.inj hsec)

/-- Every request is answered, and Telemt chooses `new`. -/
def answered (_ : Nat) : Fate := ⟨true, .delivered, "new"⟩

/-- A rotation that is answered changes the secret. -/
theorem rotated_answered :
    perform site answered (rotate site "" "alice" .manager) ⟨[("alice", "old")], 0⟩
      = (.ok ⟨"alice", true, some "eenew", "proxy.example", 443, false, .manager⟩,
        ⟨[("alice", "new")], 1⟩)
    ∧ ∀ grant after, perform site answered (rotate site "" "alice" .manager) ⟨[("alice", "old")], 0⟩
      = (.ok grant, after) → Rotated site [("alice", "old")] after.users "alice" grant := by
  refine ⟨by decide, (rotated_iff_told site answered [("alice", "old")] "alice" "" .manager ?_).mpr ?_⟩
  · intro old hold
    obtain rfl := Option.some.inj (show some "old" = some old from hold)
    have hne : "new" ≠ "old" := by decide
    exact ⟨fun _ => hne, by decide⟩
  · intro secret hsecret
    cases hsecret
    exact ⟨fun h => absurd h.1 (by decide), fun h => absurd h (by decide)⟩

/-- The request to rotate is lost on its way, and the readback is answered. -/
def lostOnce : Nat → Fate
  | 0 => ⟨false, .lost, "new"⟩
  | _ => ⟨true, .delivered, "newer"⟩

/-- **A rotation that never happened is reported as a success**, with the credential that
was live before. -/
theorem rotation_never_happened :
    perform site lostOnce (rotate site "" "alice" .manager) ⟨[("alice", "old")], 0⟩
      = (.ok ⟨"alice", true, some "eeold", "proxy.example", 443, true, .caller⟩,
        ⟨[("alice", "old")], 2⟩)
    ∧ ¬ Rotated site [("alice", "old")] [("alice", "old")] "alice"
      ⟨"alice", true, some "eeold", "proxy.example", 443, true, .caller⟩ :=
  ⟨by decide, fun h => h.1 rfl⟩

end Sample

end Telemt
