import ProxyControl.Feed
import ProxyControl.Telemt

/-!
# Provisioning several accesses as one operation

An operation creates accesses one after the other, and a journal records what each of
its steps has reached before the next one runs. `run` takes the steps forward: a step
that is pending has its account created by the protocol's manager, is then applied,
escrowed once that is recorded, and active once the runtime shows the account. A step on
a linked panel is the node's to finish. Where a manager refuses, `run` turns around:
`compensate` deletes what the steps have created and marks them compensated, or manual
where a deletion fails. An error that says nothing about the manager – the database
fails, a reply is lost and its outcome unknown – ends the run with the journal where it
was, and so does a crash. A later run resumes: it reads the journal and takes the steps
on from there.

`run` is a program (`Prog`) that asks for one transaction or one manager call at a time.
The state holds the program that is running, and a crash drops it. What a command meets
is its *fate*: whether the database fails, whether a request to a manager takes effect,
and what the manager answers, which is free here. Of a manager the model keeps the
accounts it has, who made each (`Maker`), and the requests to create whose ids it
remembers. The request to create carries the ids of the operation and of the grant; in
the one operation that is modelled that is the grant.

Telemt has its own adapter (`Telemt`). The other four managers remember the requests to
create, and their adapters send a request again where the first one fails.
-/

namespace Saga

open Table
open Reconciler (Protocol)
open Keyrings (SecretState)
open Telemt (AdapterError TelemtError TelemtAccess)

/-! ## The journal -/

inductive StepStatus
  | pending | applied | escrowed | active | remote | compensated | manual
deriving DecidableEq, Repr

/-- Steps `run` has nothing to do for. -/
def StepStatus.settled : StepStatus → Bool
  | .active | .remote => true
  | _ => false

/-- Steps whose account was created. -/
def StepStatus.created : StepStatus → Bool
  | .applied | .escrowed | .active => true
  | _ => false

inductive OperationStatus
  | pending | pendingRemote | applying | compensating
  | succeeded | compensated | manualInterventionRequired
deriving DecidableEq, Repr

def OperationStatus.terminal : OperationStatus → Bool
  | .succeeded | .compensated | .manualInterventionRequired => true
  | _ => false

structure Step where
  grant : Nat
  protocol : Protocol
  status : StepStatus
  error : Option String
deriving DecidableEq, Repr

structure Operation where
  status : OperationStatus
  steps : List Step
deriving DecidableEq, Repr

/-! ## The commands -/

structure Grant where
  id : Nat
  protocol : Protocol
  runtimeUsername : String
  /-- It lives on a linked panel. -/
  remote : Bool
  /-- What the runtime shows of it is not known. -/
  observedPending : Bool
deriving DecidableEq, Repr

structure ManagerError where
  statusCode : Nat
  code : Option String
deriving DecidableEq, Repr

inductive ClientsError
  | adapter (protocol : Protocol) (error : AdapterError)
  | notFound (grant : Nat)
  | conflict (message : String)
  | database (message : String)
deriving DecidableEq, Repr

/-- The steps of `run` that only write to the database, or only read what the model
leaves out. -/
inductive Transaction
  | markOperation (status : OperationStatus)
  | markStep (grant : Nat) (status : StepStatus) (error : Option String)
  /-- Version 1 of the credential is read. -/
  | revealCredential (grant : Nat)
  | escrowManagerCredential (grant : Nat) (plaintext : String)
  | rememberTemplate (grant : Nat)
  /-- The runtimes are asked for the accounts, which are enabled or disabled. -/
  | reconcileAccess
  | activate (grant : Nat)
  | purgeGrant (grant : Nat)
  /-- The grants of the compensated steps are purged, or withdrawn from their node. -/
  | withdrawCompensated
  | audit (outcome : OperationStatus) (reason : String)
deriving DecidableEq, Repr

inductive Cmd
  | store (transaction : Transaction)
  | readOperation
  | readGrant (grant : Nat)
  | isRemoteNode (grant : Grant)
  /-- Mieru's revision or TrustTunnel's endpoint is read. -/
  | prepare (protocol : Protocol) (grant : Nat)
  | create (protocol : Protocol) (grant : Nat) (username : String) (again : Bool)
  | delete (protocol : Protocol) (grant : Nat) (username : String)
  | telemt (grant : Nat) (c : Telemt.Cmd)

/-- What is read before a request to Mieru or TrustTunnel. -/
inductive Preparation
  | ready
  | unavailable
  /-- TrustTunnel has no hostname. -/
  | unusable
  /-- The answer is not an object. -/
  | unreadable
deriving DecidableEq, Repr

/-- The answers. A manager's answer to a request to create can be read or not. -/
def Reply : Cmd → Type
  | .store _ => Except ClientsError Unit
  | .readOperation => Except ClientsError Operation
  | .readGrant _ => Except ClientsError Grant
  | .isRemoteNode _ => Except ClientsError Bool
  | .prepare _ _ => Preparation
  | .create _ _ _ _ => Except ManagerError Bool
  | .delete _ _ _ => Except ManagerError Unit
  | .telemt _ c => Telemt.Reply c

abbrev Op (α : Type) := Prog Cmd Reply ClientsError α

def store (transaction : Transaction) : Op Unit :=
  Prog.call (.store transaction) fun (reply : Except ClientsError Unit) => Prog.orFail reply

def readOperation : Op Operation :=
  Prog.call .readOperation fun (reply : Except ClientsError Operation) => Prog.orFail reply

def readGrant (grant : Nat) : Op Grant :=
  Prog.call (.readGrant grant) fun (reply : Except ClientsError Grant) => Prog.orFail reply

def isRemoteNode (grant : Grant) : Op Bool :=
  Prog.call (.isRemoteNode grant) fun (reply : Except ClientsError Bool) => Prog.orFail reply

def markOperation (status : OperationStatus) : Op Unit := store (.markOperation status)

def markStep (grant : Nat) (status : StepStatus) (error : Option String) : Op Unit :=
  store (.markStep grant status error)

/-! ## The adapters -/

/-- **What the panel is set up with**: the adapters, and Telemt's. -/
structure Site where
  adapters : Protocol → Bool
  telemt : Telemt.Site

/-- An error that escapes: a manager's own failure, or a reply that is lost. -/
def escapes (error : AdapterError) : Bool :=
  match error.code with
  | some (.runtimeError _) | some (.runtimeIndeterminate _) => true
  | _ => false

def managerName : Protocol → String
  | .naive => "NaiveProxy"
  | .mieru => "Mieru manager"
  | .amneziawg => "AmneziaWG manager"
  | .trusttunnel => "TrustTunnel manager"
  | .mtproxy => "Telemt"

def refused (protocol : Protocol) : AdapterError :=
  .new (managerName protocol ++ " refused the request")

/-- What an adapter makes of a failed request to create. NaiveProxy and Mieru may need a
person. -/
def unrecoverable (protocol : Protocol) (error : ManagerError) : AdapterError :=
  let unclear := error.code = some "result_unrecoverable" ∨ error.code = some "operation_conflict"
  match protocol with
  | .naive =>
    if unclear then ⟨"the NaiveProxy credential must be rotated", false, none, true⟩
    else refused .naive
  | .mieru =>
    if unclear then ⟨"the Mieru credential must be rotated", false, none, true⟩
    else refused .mieru
  | protocol => refused protocol

/-- Whether the request is sent again: the reply may have been lost, and the same
operation id replays safely. -/
def sendsAgain (protocol : Protocol) (error : ManagerError) : Bool :=
  match protocol with
  | .naive | .mieru => true
  | _ => ! (decide (error.statusCode = 404 ∨ error.statusCode = 409 ∨ error.statusCode = 422)
      && decide (error.code ≠ some "operation_conflict"))

/-- An answer of a shape that the adapter cannot read. -/
def crash (message : String) : AdapterError :=
  { AdapterError.new message with code := some (.runtimeError 500) }

def preparation (protocol : Protocol) : Preparation → Except AdapterError Unit
  | .ready => .ok ()
  | .unavailable => .error (.new
      (if protocol = .mieru then "Mieru manager unavailable" else "TrustTunnel manager unavailable"))
  | .unusable => .error (.new "TrustTunnel has no hostname on this node")
  | .unreadable => .error (crash "the manager answered something that is not an object")

def prepare (protocol : Protocol) (grant : Nat) : Op Unit :=
  Prog.call (.prepare protocol grant) fun (reply : Preparation) =>
    Prog.orFail ((preparation protocol reply).mapError (.adapter protocol))

/-- The answer to a request to create, where all but NaiveProxy's is read. -/
def readAnswer (protocol : Protocol) (readable : Bool) : Op (Option String) :=
  if readable || decide (protocol = .naive) then return none
  else Prog.fail (.adapter protocol (crash "a manager answer of an unexpected shape"))

def requestAccount (protocol : Protocol) (grant : Grant) (again : Bool) :
    Op (Except ManagerError Bool) :=
  Prog.call (.create protocol grant.id grant.runtimeUsername again)
    fun (reply : Except ManagerError Bool) => .ret reply

def prepareIf (needed : Bool) (protocol : Protocol) (grant : Nat) : Op Unit :=
  if needed then prepare protocol grant else return ()

/-- The same request again. Mieru's carries the revision, which is read once more. -/
def createAgain (protocol : Protocol) (grant : Grant) : Op (Option String) := do
  prepareIf (protocol = .mieru) protocol grant.id
  match ← requestAccount protocol grant true with
  | .ok readable => readAnswer protocol readable
  | .error error => Prog.fail (.adapter protocol (unrecoverable protocol error))

/-- `create` of the adapters of NaiveProxy, Mieru, AmneziaWG and TrustTunnel. -/
def managerCreate (protocol : Protocol) (grant : Grant) : Op (Option String) := do
  prepareIf (protocol = .mieru ∨ protocol = .trusttunnel) protocol grant.id
  match ← requestAccount protocol grant false with
  | .ok readable => readAnswer protocol readable
  | .error error =>
    if sendsAgain protocol error then createAgain protocol grant
    else Prog.fail (.adapter protocol (unrecoverable protocol error))

/-- An operation of the Telemt adapter for a grant. -/
def throughTelemt {α : Type} (grant : Nat) (op : Telemt.Op AdapterError α) : Op α :=
  (op.through fun c => Prog.call (.telemt grant c) .ret).mapError (.adapter .mtproxy)

/-- `create` of a grant's adapter, and the credential that the manager chose. -/
def createAccount (site : Site) (grant : Grant) : Op (Option String) :=
  match grant.protocol with
  | .mtproxy => do
    let applied ← throughTelemt grant.id
      (Telemt.create site.telemt "" grant.runtimeUsername .manager)
    return applied.credential.filter (· ≠ "")
  | protocol => managerCreate protocol grant

/-- `delete` of the adapters of NaiveProxy, Mieru, AmneziaWG and TrustTunnel. -/
def managerDelete (protocol : Protocol) (grant : Grant) : Op Unit := do
  prepareIf (protocol = .mieru) protocol grant.id
  Prog.call (.delete protocol grant.id grant.runtimeUsername)
    fun (reply : Except ManagerError Unit) =>
      match reply with
      | .ok () => .ret ()
      | .error error => .fail (.adapter protocol
          { refused protocol with alreadyGone := decide (error.statusCode = 404) })

/-- `delete` of a grant's adapter. -/
def deleteAccount (grant : Grant) : Op Unit :=
  match grant.protocol with
  | .mtproxy => throughTelemt grant.id (Telemt.delete grant.runtimeUsername)
  | protocol => managerDelete protocol grant

def requireAdapter (site : Site) (protocol : Protocol) : Op Unit :=
  if site.adapters protocol then return ()
  else Prog.fail (.conflict ("no adapter is configured for " ++ protocol.asStr))

/-! ## Running an operation -/

/-- What a step fails with: the status it has reached, and the error. -/
abbrev Advance := Prog Cmd Reply (StepStatus × ClientsError) Unit

/-- The manager chooses the credential, or it is version 1 of the escrowed ones. -/
def credential (grant : Grant) : Op Unit :=
  if grant.protocol = .mtproxy then return () else store (.revealCredential grant.id)

/-- What the manager chose is escrowed. -/
def escrow (grant : Nat) : Option String → Op Unit
  | some credential => store (.escrowManagerCredential grant credential)
  | none => return ()

/-- A pending step: its account is created. -/
def applyStep (site : Site) (grant : Grant) : Op Unit := do
  credential grant
  escrow grant.id (← createAccount site grant)
  store (.rememberTemplate grant.id)
  markStep grant.id .applied none

/-- An escrowed step: the runtime has to show the account. -/
def confirmStep (grant : Grant) : Op Unit := do
  store .reconcileAccess
  let row ← readGrant grant.id
  if row.observedPending then
    Prog.fail (.adapter grant.protocol (.new "runtime access could not be confirmed"))
  else
    store (.activate grant.id)
    markStep grant.id .active none

def advance (site : Site) (step : Step) : Advance := do
  let grant ← (readGrant step.grant).mapError (step.status, ·)
  (requireAdapter site grant.protocol).mapError (step.status, ·)
  match step.status with
  | .pending =>
    (applyStep site grant).mapError (.pending, ·)
    (markStep grant.id .escrowed none).mapError (.applied, ·)
    (confirmStep grant).mapError (.escrowed, ·)
  | .applied =>
    (markStep grant.id .escrowed none).mapError (.applied, ·)
    (confirmStep grant).mapError (.escrowed, ·)
  | .escrowed => (confirmStep grant).mapError (.escrowed, ·)
  | _ => return ()

/-- The grant of a step, `none` where it has been purged. -/
def findGrant (grant : Nat) : Op (Option Grant) := do
  match ← (readGrant grant).attempt with
  | .ok grant => return some grant
  | .error (.notFound _) => return none
  | .error error => Prog.fail error

/-- The account of a step is deleted; `outcome` is what the operation comes to. -/
def removeStep (site : Site) (outcome : OperationStatus) (grant : Grant) : Op OperationStatus := do
  requireAdapter site grant.protocol
  match ← (deleteAccount grant).attempt with
  | .ok () =>
    markStep grant.id .compensated none
    store (.purgeGrant grant.id)
    return outcome
  | .error (.adapter protocol error) =>
    if escapes error then Prog.fail (.adapter protocol error)
    else
      -- The account may still exist: a person has to look.
      markStep grant.id .manual (some error.message)
      return .manualInterventionRequired
  | .error error => Prog.fail error

def markCompensated (outcome : OperationStatus) (grant : Nat) : Op OperationStatus := do
  markStep grant .compensated none
  return outcome

/-- One step of a compensation. -/
def compensateStep (site : Site) (outcome : OperationStatus) (step : Step) : Op OperationStatus :=
  -- Nothing reached the manager for a step that was not created.
  if ! step.status.created then markCompensated outcome step.grant
  else do
    match ← findGrant step.grant with
    | none => markCompensated outcome step.grant
    | some grant =>
      if ← isRemoteNode grant then markCompensated outcome grant.id
      else removeStep site outcome grant

/-- Undo only what this operation created. -/
def compensate (site : Site) (reason : String) : Op Operation := do
  markOperation .compensating
  let operation ← readOperation
  let outcome ← operation.steps.foldlM (compensateStep site) .compensated
  store .withdrawCompensated
  store (.audit outcome reason)
  markOperation outcome
  readOperation

/-- A step failed: a person has to decide, or the operation turns around. -/
def stepFailed (site : Site) (step : Step) : StepStatus × ClientsError → Op Operation
  | (status, .adapter protocol error) =>
    if error.manualIntervention then do
      markStep step.grant .manual (some error.message)
      markOperation .manualInterventionRequired
      readOperation
    else if escapes error then Prog.fail (.adapter protocol error)
    else do
      markStep step.grant status (some error.message)
      compensate site error.message
  | (_, error) => Prog.fail error

/-- The steps in turn; the result where the operation ended with one of them. -/
def forward (site : Site) : List Step → Op (Option Operation)
  | [] => return none
  | step :: steps =>
    if step.status.settled then forward site steps
    else do
      match ← (advance site step).attempt with
      | .ok () => forward site steps
      | .error error => some <$> stepFailed site step error

/-- The operation is taken up, if there is a step to advance. -/
def takeUp (operation : Operation) : Op Unit :=
  if operation.steps.any fun step => ! step.status.settled then markOperation .applying
  else return ()

/-- The end of a run. The journal decides: a node may have finished a remote step. -/
def finish : Option Operation → Op Operation
  | some result => return result
  | none => do
    let operation ← readOperation
    let waiting := operation.steps.any fun step => step.status = .remote
    markOperation (if waiting then .pendingRemote else .succeeded)
    readOperation

/-- **`run`**: every step that is not settled is advanced. -/
def run (site : Site) : Op Operation := do
  let operation ← readOperation
  if operation.status.terminal then readOperation
  else
    takeUp operation
    finish (← forward site operation.steps)

/-! ## The world -/

/-- The name of a runtime account: managers are tables keyed by these. -/
abbrev Account := Protocol × String

def Grant.account (grant : Grant) : Account := (grant.protocol, grant.runtimeUsername)

inductive Maker
  /-- It was there before. -/
  | another
  /-- A request to create made it, for this grant. -/
  | step (grant : Nat)
deriving DecidableEq, Repr

structure World where
  journal : Operation
  grants : List Grant
  /-- The versions of the credentials, by grant. -/
  secrets : List ((Nat × Nat) × SecretState)
  accounts : List (Account × Maker)
  /-- The grants whose request to create a manager remembers. -/
  remembered : List Nat
  /-- The grants for which Telemt's reply to a request to create was lost in this run. -/
  lost : List Nat
  /-- The journal has reached `compensating`. -/
  turned : Bool
deriving DecidableEq, Repr

/-- **What a command meets.** A request whose success is reported took effect; one that is
answered with an error may have. -/
structure Fate where
  /-- The database fails, or a secret cannot be read. -/
  failure : Option String
  /-- The grants whose account the runtimes do not show as wanted. -/
  unconfirmed : List Nat
  preparation : Preparation
  lands : Bool
  /-- The error a manager answers with. -/
  error : Option ManagerError
  readable : Bool
  /-- What becomes of Telemt's reply, and the link it shows. -/
  delivery : Telemt.Delivery
  access : Option TelemtAccess

/-- What marking a grant's step makes of a step. -/
def marked (grant : Nat) (status : StepStatus) (error : Option String) (step : Step) : Step :=
  if step.grant = grant then { step with status := status, error := error } else step

/-- The local grants of the compensated steps; one on a linked panel is withdrawn by its
next generation. -/
def World.withdrawn (w : World) : List Nat :=
  (w.grants.filter fun row => ! row.remote
    && w.journal.steps.any fun step => step.grant = row.id && step.status = .compensated).map (·.id)

def Transaction.perform (w : World) (fate : Fate) : Transaction → Except ClientsError World
  | .markOperation status => .ok
    { w with
      journal := { w.journal with status := status }
      turned := w.turned || decide (status = .compensating) }
  | .markStep grant status error => .ok
    { w with
      journal := { w.journal with steps := w.journal.steps.map (marked grant status error) } }
  | .revealCredential _ => .ok w
  | .escrowManagerCredential grant _ => .ok
    (if (find w.secrets (grant, 1)).isSome then w
    else { w with secrets := put w.secrets (grant, 1) .pending })
  | .rememberTemplate _ => .ok w
  | .reconcileAccess => .ok
    { w with
      grants := w.grants.map fun grant =>
        { grant with observedPending := decide (grant.id ∈ fate.unconfirmed) } }
  | .activate grant =>
    if (find w.secrets (grant, 1)).isNone then .error (.database "secret unavailable")
    else if w.grants.any fun row => row.id = grant then
      .ok { w with secrets := put w.secrets (grant, 1) .active }
    else .error (.notFound grant)
  | .purgeGrant grant =>
    if w.grants.any fun row => row.id = grant then .ok (purge [grant])
    else .error (.notFound grant)
  | .withdrawCompensated => .ok (purge w.withdrawn)
  | .audit _ _ => .ok w
where
  /-- `purge_grant`: every version is revoked, and the row goes. -/
  purge (grants : List Nat) : World :=
    { w with
      secrets := w.secrets.map fun entry =>
        if entry.1.1 ∈ grants then (entry.1, SecretState.revoked) else entry
      grants := w.grants.filter fun row => ! decide (row.id ∈ grants) }

/-- What a transaction or a read comes to, where the database does not fail. -/
def Fate.guarding {α : Type} (fate : Fate) (w : World) (result : Except ClientsError α × World) :
    Except ClientsError α × World :=
  match fate.failure with
  | some message => (.error (.database message), w)
  | none => result

/-- **A manager's part.** A request to create that it remembers is answered as before; a
name that is taken is refused. -/
def World.create (w : World) (fate : Fate) (account : Account) (grant : Nat) :
    Except ManagerError Bool × World :=
  let result : Except ManagerError Bool :=
    if grant ∈ w.remembered then .ok fate.readable
    else if (find w.accounts account).isSome then .error ⟨409, none⟩
    else .ok fate.readable
  let made := decide (grant ∉ w.remembered) && (find w.accounts account).isNone
    && (fate.lands || fate.error.isNone)
  (match fate.error with
    | some error => .error error
    | none => result,
   if made then
     { w with
       accounts := put w.accounts account (.step grant)
       remembered := grant :: w.remembered }
   else w)

def World.delete (w : World) (fate : Fate) (account : Account) : Except ManagerError Unit × World :=
  let result : Except ManagerError Unit :=
    if (find w.accounts account).isSome then .ok () else .error ⟨404, none⟩
  (match fate.error with
    | some error => .error error
    | none => result,
   if fate.lands || fate.error.isNone then { w with accounts := erase w.accounts account }
   else w)

/-- **Telemt's part.** It remembers no requests: a name that is taken is refused. -/
def World.telemtCreate (w : World) (fate : Fate) (grant : Nat) (username : String) :
    Except TelemtError (Option TelemtAccess) × World :=
  let taken := (find w.accounts (.mtproxy, username)).isSome
  let made := ! taken && (fate.lands || decide (fate.delivery = .delivered))
  (fate.delivery.convey (if taken then .error (Telemt.apiError 409) else .ok fate.access),
   { w with
     accounts := if made then put w.accounts (.mtproxy, username) (.step grant) else w.accounts
     lost := if fate.delivery = .lost then grant :: w.lost else w.lost })

def World.telemtDelete (w : World) (fate : Fate) (username : String) :
    Except TelemtError Unit × World :=
  let found := (find w.accounts (.mtproxy, username)).isSome
  (fate.delivery.convey (if found then .ok () else .error (Telemt.apiError 404)),
   if fate.lands || decide (fate.delivery = .delivered) then
     { w with accounts := erase w.accounts (.mtproxy, username) }
   else w)

/-- What Telemt shows of a name, or answers to a rotation: `missing` where it is not there. -/
def World.telemtAccess (w : World) (fate : Fate) (username : String)
    (missing : Except TelemtError (Option TelemtAccess)) : Except TelemtError (Option TelemtAccess) :=
  fate.delivery.convey
    (if (find w.accounts (.mtproxy, username)).isSome then .ok fate.access else missing)

def World.telemt (w : World) (fate : Fate) (grant : Nat) :
    (c : Telemt.Cmd) → Telemt.Reply c × World
  | .mutate .create username _ => w.telemtCreate fate grant username
  | .mutate .rotate username _ =>
    (w.telemtAccess fate username (.error (Telemt.apiError 404)), w)
  | .deleteUser username => w.telemtDelete fate username
  | .currentAccess username => (w.telemtAccess fate username (.ok none), w)

def respond (w : World) (fate : Fate) : (c : Cmd) → Reply c × World
  | .store transaction =>
    fate.guarding w (match transaction.perform w fate with
      | .ok w' => (.ok (), w')
      | .error error => (.error error, w))
  | .readOperation => fate.guarding w (.ok w.journal, w)
  | .readGrant grant =>
    fate.guarding w (match w.grants.find? fun row => row.id = grant with
      | some row => (.ok row, w)
      | none => (.error (.notFound grant), w))
  | .isRemoteNode grant => fate.guarding w (.ok grant.remote, w)
  | .prepare _ _ => (fate.preparation, w)
  | .create protocol grant username _ => w.create fate (protocol, username) grant
  | .delete protocol _ username => w.delete fate (protocol, username)
  | .telemt grant c => w.telemt fate grant c

/-! ## Starting an operation -/

structure Intent where
  protocol : Protocol
  /-- The linked panel, if it is not this one. -/
  node : Option String
  endpoint : String
  runtimeUsername : String
deriving DecidableEq, Repr

/-- What refuses an operation whose grants before these are reserved. -/
def refusal (site : Site) (granted : List Intent) : List Intent → Option ClientsError
  | [] => none
  | intent :: intents =>
    if intent.node.isNone ∧ site.adapters intent.protocol = false then
      some (.conflict ("no adapter is configured for " ++ intent.protocol.asStr))
    else if intent ∈ granted then
      some (.conflict "runtime_username is already granted on this endpoint")
    else refusal site (intent :: granted) intents

/-- The adapters are asked for before anything is written. -/
theorem equipped_of_refusal {site : Site} {granted ints : List Intent}
    (h : refusal site granted ints = none) :
    ∀ intent ∈ ints, intent.node.isSome = true ∨ site.adapters intent.protocol = true := by
  induction ints generalizing granted with
  | nil => exact nofun
  | cons intent ints ih =>
    rw [refusal] at h
    split at h
    · cases h
    next hadap =>
      split at h
      · cases h
      · intro i hmem
        rcases List.mem_cons.mp hmem with rfl | hmem
        · cases hnode : i.node with
          | some node => exact Or.inl rfl
          | none =>
            refine Or.inr (Bool.not_eq_false _ ▸ fun hfalse => hadap ⟨?_, hfalse⟩)
            rw [hnode]
            rfl
        · exact ih h i hmem

def stepOf (intent : Intent) (grant : Nat) : Step :=
  ⟨grant, intent.protocol, if intent.node.isSome then .remote else .pending, none⟩

def grantOf (intent : Intent) (grant : Nat) : Grant :=
  ⟨grant, intent.protocol, intent.runtimeUsername, intent.node.isSome, true⟩

/-- The caller's credential is escrowed before the manager ever sees it. -/
def escrowed (intent : Intent) (grant : Nat) : List ((Nat × Nat) × SecretState) :=
  if intent.node.isSome ∨ intent.protocol ≠ .mtproxy then [((grant, 1), .pending)] else []

/-- **`reserve`**: every row of the operation, or none of them. The accounts are those the
runtimes have. -/
def reserve (site : Site) (accounts : List Account) (intents : List Intent) :
    Except ClientsError World :=
  if intents.isEmpty then .error (.conflict "an operation needs at least one grant")
  else match refusal site [] intents with
    | some error => .error error
    | none => .ok
      { journal :=
          { status := if intents.any (·.node.isSome) then .pendingRemote else .pending
            steps := intents.mapIdx fun grant intent => stepOf intent grant }
        grants := intents.mapIdx fun grant intent => grantOf intent grant
        secrets := (intents.mapIdx fun grant intent => escrowed intent grant).flatten
        accounts := accounts.map fun account => (account, .another)
        remembered := []
        lost := []
        turned := false }

/-! ## The reports of the nodes -/

inductive ObservedState
  | enabled | disabled | failed | other
deriving DecidableEq, Repr

structure Report where
  state : ObservedState
  error : Option String
deriving DecidableEq, Repr

def OperationStatus.waiting : OperationStatus → Bool
  | .pendingRemote | .applying => true
  | _ => false

/-- An operation that waited for its nodes alone. -/
def settled (status : OperationStatus) (steps : List Step) : OperationStatus :=
  if status ≠ .pendingRemote || steps.any fun step => step.status = .remote then status
  else if steps.any fun step => step.status = .active then .succeeded
  else .compensated

/-- An operation with some of its steps changed. -/
def World.rewrite (w : World) (steps : List Step) : World :=
  if steps = w.journal.steps then w
  else { w with journal := ⟨settled w.journal.status steps, steps⟩ }

/-- What a report makes of a step. -/
def reportedStep (w : World) (reported : Nat → Option Report) (withheld : List Nat)
    (withheldError : Option String) (step : Step) : Step :=
  match reported step.grant with
  | none => step
  | some report =>
    if step.status ≠ .remote then step
    else if step.grant ∈ withheld then
      match withheldError with
      | some error => { step with error := some error }
      | none => step
    else match report.state with
      | .enabled | .disabled =>
        if w.grants.any fun row => row.id = step.grant then
          { step with status := .active, error := none }
        else step
      | .failed => { step with error := report.error }
      | .other => step

/-- What a node reported. -/
def remoteApplied (w : World) (reported : Nat → Option Report) (withheld : List Nat)
    (withheldError : Option String) : World :=
  if w.journal.status.waiting then
    w.rewrite (w.journal.steps.map (reportedStep w reported withheld withheldError))
  else w

/-- A grant was deleted before its node applied it. -/
def withdrawRemote (w : World) (grant : Nat) (reason : String) : World :=
  if w.journal.status.waiting then
    w.rewrite (w.journal.steps.map fun step =>
      if step.grant = grant ∧ step.status = .remote then
        { step with status := .compensated, error := some reason }
      else step)
  else w

/-! ## Runs, crashes and resumes -/

structure State where
  world : World
  running : Option (Op Operation)

inductive Event
  /-- `run` is called: after `start`, or to resume. -/
  | run
  /-- The run's next command. -/
  | go (fate : Fate)
  | crash
  | remoteApplied (reported : Nat → Option Report) (withheld : List Nat)
      (withheldError : Option String)
  | withdrawRemote (grant : Nat) (reason : String)

/-- A program that still asks for something. -/
def unfinished : Op Operation → Option (Op Operation)
  | .call c k => some (.call c k)
  | _ => none

def step (site : Site) (s : State) : Event → Option State
  | .run =>
    match s.running with
    | none => some ⟨{ s.world with lost := [] }, unfinished (run site)⟩
    | some _ => none
  | .go fate =>
    match s.running with
    | some (.call c k) =>
      some ⟨(respond s.world fate c).2, unfinished (k (respond s.world fate c).1)⟩
    | _ => none
  | .crash => if s.running.isSome then some ⟨s.world, none⟩ else none
  | .remoteApplied reported withheld withheldError =>
    some ⟨remoteApplied s.world reported withheld withheldError, s.running⟩
  | .withdrawRemote grant reason => some ⟨withdrawRemote s.world grant reason, s.running⟩

namespace Sample

/-- Every adapter is there. -/
def site : Site := ⟨fun _ => true, Telemt.Sample.site⟩

/-- Everything is answered, and every account is shown. -/
def smooth : Fate :=
  ⟨none, [], .ready, true, none, true, .delivered, Telemt.Sample.site.access "alice" "1"⟩

/-- One access to NaiveProxy, and one to Telemt. -/
def naiveIntents : List Intent := [⟨.naive, none, "naive", "alice"⟩]

def telemtIntents : List Intent := [⟨.mtproxy, none, "telemt", "alice"⟩]

/-- What `reserve` writes for an access, with the accounts that are there. -/
def reserved (protocol : Protocol) (secrets : List ((Nat × Nat) × SecretState))
    (accounts : List Account) : World where
  journal := ⟨.pending, [⟨0, protocol, .pending, none⟩]⟩
  grants := [⟨0, protocol, "alice", false, true⟩]
  secrets := secrets
  accounts := accounts.map fun account => (account, .another)
  remembered := []
  lost := []
  turned := false

def naiveReserved (accounts : List Account) : World :=
  reserved .naive [((0, 1), .pending)] accounts

end Sample

end Saga
