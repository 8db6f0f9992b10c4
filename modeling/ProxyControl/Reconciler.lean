import ProxyControl.Checks
import ProxyControl.Programs
import ProxyControl.Run
import ProxyControl.Table

/-!
# The node-local reconcile

A managed node runs the users a central tells it to. The central pushes numbered
generations, each the list of the resources the node must run; the node stores
the latest one (`accept`) and brings its runtimes to it (`apply`), now or on a
later retry (`runPending`). The reconcile holds no lock on anything but itself:
between two of its effects the node's operators create and delete users of their
own, the runtimes lose users, the process dies.

What the node holds is `managed_resources`, one row per protocol and username.
A row in any state but `missing` says that the user under that name is the
central's (`isManaged`), and it is the only thing that says so: the local writers
ask it before they touch a name, and the reconcile asks it before it touches a
user.

`applyResource`, `applyProtocol` and `applyLatest` are programs over the commands
`Cmd`: the transactions of the store, and the calls of the adapter through which
a runtime is reached. `respond` says what a command does. What the other side
answers – an inventory, an applied grant, an error before or after the effect –
is free, and comes with the event that performs the command; of a runtime the
model keeps which users it has and, as history, who made each of them (`Maker`).

Lanes, the relay and the egress follow the users and write nothing that is
modelled here; they appear as commands that may fail or abort the pass.
-/

namespace Reconciler

open Table
/-- The data planes, in the order of their names. -/
inductive Protocol
  | amneziawg | mieru | mtproxy | naive | trusttunnel
deriving DecidableEq, Repr

def Protocol.all : List Protocol := [.amneziawg, .mieru, .mtproxy, .naive, .trusttunnel]

def Protocol.asStr : Protocol → String
  | .amneziawg => "amneziawg"
  | .mieru => "mieru"
  | .mtproxy => "mtproxy"
  | .naive => "naive"
  | .trusttunnel => "trusttunnel"

/-- The services whose clients may run their own lane. -/
def laneProtocols : List Protocol := [.naive, .mieru]

/-- A runtime user: protocol and username. -/
abbrev Key := Protocol × String

instance : LawfulBEq Key := inferInstance

abbrev Bytes := List UInt8

inductive DesiredState
  | enabled | disabled | deleted
deriving DecidableEq, Repr

inductive CredentialOrigin
  | caller | manager
deriving DecidableEq, Repr

/-- `provisioned` never adopts a runtime user; `imported` claims one already
running. -/
inductive ResourceOrigin
  | provisioned | imported
deriving DecidableEq, Repr

inductive ObservedState
  | enabled | disabled | missing | failed | drifted
deriving DecidableEq, Repr

inductive GenerationState
  | received | applying | converged | failed
deriving DecidableEq, Repr

/-- Options by name. The values are JSON; the reconcile only compares them. -/
abbrev Options (Value : Type) := List (String × Value)

variable {Value : Type}

/-- One account the node must run. -/
structure Resource (Value : Type) where
  reference : String
  protocol : Protocol
  runtimeUsername : String
  desiredState : DesiredState
  credentialRef : String
  credentialOrigin : CredentialOrigin
  origin : ResourceOrigin
  options : Options Value
  validFrom : Option Int
  validUntil : Option Int

def Resource.key (resource : Resource Value) : Key := (resource.protocol, resource.runtimeUsername)

/-- One numbered generation of what a node must run. -/
structure GenerationDocument (Value : Type) where
  nodeGuid : String
  masterGuid : String
  generation : Int
  resources : List (Resource Value)

/-- No two resources of one runtime user. -/
def GenerationDocument.check (document : GenerationDocument Value) : Except String Unit :=
  let rec go : List Key → List (Resource Value) → Except String Unit
    | _, [] => .ok ()
    | seen, resource :: rest =>
      if resource.key ∈ seen then
        .error s!"duplicate resource for {resource.protocol.asStr}/{resource.runtimeUsername}"
      else go (seen ++ [resource.key]) rest
  go [] document.resources

/-- The keys of a document that passed are distinct. -/
theorem GenerationDocument.nodup_of_go {seen : List Key} {resources : List (Resource Value)}
    (h : GenerationDocument.check.go seen resources = .ok ()) :
    (resources.map (·.key)).Nodup ∧ ∀ key ∈ seen, key ∉ resources.map (·.key) := by
  induction resources generalizing seen with
  | nil => simp
  | cons resource rest ih =>
    unfold GenerationDocument.check.go at h
    split at h
    · cases h
    next hnew =>
      obtain ⟨hnodup, hseen⟩ := ih h
      have hfirst := hseen resource.key (List.mem_append_right _ (List.mem_singleton_self _))
      refine ⟨List.nodup_cons.mpr ⟨hfirst, hnodup⟩, fun key hkey hin => ?_⟩
      rcases List.mem_cons.mp hin with rfl | hin
      · exact hnew hkey
      · exact hseen key (List.mem_append_left _ hkey) hin

/-- A stored generation. -/
structure Latest (Value : Type) where
  generation : Int
  digest : String
  state : GenerationState
  masterGuid : String
  document : GenerationDocument Value

/-- A row of `managed_resources`. -/
structure Row (Value : Type) where
  reference : String
  credentialRef : Option String
  generation : Int
  state : ObservedState
  lastError : Option String
  revision : Option String
  learned : Option (Options Value)

abbrev Rows (Value : Type) := List (Key × Row Value)

structure ResourceUpdate (Value : Type) where
  key : Key
  reference : String
  generation : Int
  state : ObservedState
  error : Option String
  revision : Option String
  credentialRef : Option String
  learned : Option (Options Value)

/-- Write a row. What the update does not say about the credential and about the
learned facts stays. -/
def upsertResource (rows : Rows Value) (update : ResourceUpdate Value) : Rows Value :=
  let old := find rows update.key
  put rows update.key
    { reference := update.reference
      credentialRef := update.credentialRef <|> old.bind (·.credentialRef)
      generation := update.generation
      state := update.state
      lastError := update.error
      revision := update.revision
      learned := update.learned <|> old.bind (·.learned) }

/-- **The node holds the user**: the question every local writer asks first. -/
def isManaged (rows : Rows Value) (key : Key) : Bool :=
  (find rows key).any fun row => row.state ≠ .missing

/-- The rows without the `missing` ones that the generation names under another
reference: the central has seen the report they were kept for. -/
def retire (refs : List (Key × String)) (rows : Rows Value) : Rows Value :=
  rows.filter fun e =>
    ! decide (e.2.state = .missing ∧ (find refs e.1).getD e.2.reference ≠ e.2.reference)

/-! ## The adapters and the store, as the reconcile sees them -/

inductive ReconcileError
  | superseded (generation : Int)
  | secret (message : String)
  | store (message : String)
  | internal (message : String)
deriving DecidableEq, Repr

def ReconcileError.toText : ReconcileError → String
  | .superseded generation => toString generation
  | .secret message => message
  | .store message => message
  | .internal message => message

/-- One account a runtime already has. -/
structure ObservedGrant (Value : Type) where
  runtimeUsername : String
  enabled : Bool
  options : Options Value
  revision : Option String

/-- What an operation left on the runtime. -/
structure AppliedGrant (Value : Type) where
  enabled : Bool
  credential : Option Bytes
  revision : Option String
  artifactTemplate : Options Value
  credentialOrigin : CredentialOrigin

/-- Who chooses the credential; a caller's plan carries the plaintext. -/
inductive CredentialPlan
  | manager
  | caller (plaintext : Bytes)
deriving DecidableEq, Repr

def CredentialPlan.plaintext : CredentialPlan → Option Bytes
  | .manager => none
  | .caller plaintext => some plaintext

/-- What an adapter can do. -/
structure Adapter where
  acceptsCallerCredential : Bool
  captureSupported : Bool
  credentialOrigin : CredentialOrigin

/-- What the node did with one resource. -/
structure ObservedResource (Value : Type) where
  reference : String
  key : Key
  state : ObservedState
  error : Option String
  revision : Option String
  learned : Options Value

/-- The node's report of its latest generation. -/
structure ObservedGeneration (Value : Type) where
  appliedGeneration : Int
  digest : String
  reconcileState : GenerationState
  resources : List (ObservedResource Value)

/-- What a pass asks for. -/
inductive Cmd (Value : Type)
  | now
  | latest
  | resources
  /-- The first transaction of a pass: `applying`, the rows, the stale ones retired. -/
  | start (generation : Int) (refs : List (Key × String))
  | upsertResource (update : ResourceUpdate Value)
  /-- The same write where it is the adoption of a running user. -/
  | adopt (update : ResourceUpdate Value)
  | removeResource (key : Key)
  /-- The last transaction of a pass: its outcome, and the report. -/
  | finish (generation : Int) (failed : Bool)
  /-- A credential the central does not have, for the answer of this pass. -/
  | handBack (credentialRef plaintext : String)
  | handedBack
  | reveal (credentialRef : String)
  | adapter (protocol : Protocol)
  | discover (protocol : Protocol)
  | create (operationId : String) (resource : Resource Value) (plan : CredentialPlan)
  | rotate (operationId : String) (key : Key) (plan : CredentialPlan)
  | enable (key : Key)
  | disable (key : Key)
  | updateOptions (key : Key) (options : Options Value)
  | delete (key : Key)
  | capture (key : Key)
  | applyLanes (protocol : Protocol) (resources : List (Resource Value))
  | applyRelay
  | applyEgress

def Res : Cmd Value → Type
  | .now => Int
  | .latest => Except ReconcileError (Option (Latest Value))
  | .resources | .start .. => Except ReconcileError (Rows Value)
  | .upsertResource _ | .adopt _ | .removeResource _ => Except ReconcileError Unit
  | .finish .. => Except ReconcileError (ObservedGeneration Value)
  | .handBack .. => Unit
  | .handedBack => List (String × String)
  | .reveal _ => Except ReconcileError Bytes
  | .adapter _ => Option Adapter
  | .discover _ => Except String (List (ObservedGrant Value))
  | .create .. | .rotate .. | .enable _ | .disable _ => Except String (AppliedGrant Value)
  | .updateOptions .. => Except String (Option (AppliedGrant Value))
  | .delete _ => Except String Unit
  | .capture _ => Except String (Option Bytes)
  | .applyLanes .. | .applyRelay | .applyEgress => Except ReconcileError Bool

/-- The user a command changes or deletes. -/
def Cmd.touches : Cmd Value → Option Key
  | .rotate _ key _ | .enable key | .disable key | .updateOptions key _ | .delete key => some key
  | _ => none

/-- What the code takes from elsewhere: the node's id, the fields of the options
models, the JSON and UTF-8 libraries, the validation of an intent. -/
structure Site (Value : Type) where
  guid : String
  fieldNames : Protocol → List String
  isNull : Value → Bool
  isEmptyText : Value → Bool
  sameOptions : Options Value → Options Value → Bool
  decode : Bytes → Except String String
  validate : Resource Value → Except String Unit

/-- A piece of a pass. -/
abbrev Op (Value ε α : Type) := Prog (Cmd Value) Res ε α

abbrev perform {ε : Type} (c : Cmd Value) : Op Value ε (Res c) := Prog.ask c

/-! ## Applying one resource -/

/-- Why one resource did not apply. -/
inductive Step
  /-- A runtime user this node never recorded as its own: reported, never persisted. -/
  | collision
  | failed (message : String)
deriving DecidableEq, Repr

def Step.ofReconcile (error : ReconcileError) : Step := .failed error.toText

/-- A call of an adapter whose error ends the step. -/
def orStep {α : Type} (answer : Except String α) : Op Value Step α :=
  Prog.orFail (answer.mapError .failed)

def stateOf (enabled : Bool) : ObservedState := if enabled then .enabled else .disabled

/-- The first revision that is there and not empty. -/
def orRevision (first second : Option String) : Option String :=
  (first.filter fun text => text ≠ "") <|> second

/-- The texts of errors are cut to 200 characters. -/
def bounded (message : String) : String := (message.take 200).toString

/-- Options the runtime teaches the panel: never pushed back, so never drift. -/
def learnedOptions : List String :=
  ["host", "port", "share_template", "address", "server_public_key", "mtu", "dns", "obfuscation",
    "hostname", "certificate_der_b64", "name"]

def withinValidity (validFrom validUntil : Option Int) (now : Int) : Bool :=
  validFrom.all (· ≤ now) && validUntil.all (now < ·)

variable (site : Site Value)

/-- The facts a runtime reported that the options model has a field for and that
are learned. -/
def learnedFrom (protocol : Protocol) (reported : Options Value) : Options Value :=
  reported.filter fun (key, value) =>
    (site.fieldNames protocol).contains key && learnedOptions.contains key
      && ! site.isNull value && ! site.isEmptyText value

def learnedFromInventory (resource : Resource Value) (item : ObservedGrant Value) :
    Option (Options Value) :=
  (some (learnedFrom site resource.protocol item.options)).filter fun learned => ! learned.isEmpty

/-- Whether the user should be able to connect now. -/
def wanted {ε : Type} (resource : Resource Value) : Op Value ε Bool := do
  let now : Int ← perform .now
  return resource.desiredState = .enabled
    && withinValidity resource.validFrom resource.validUntil now

def plan (resource : Resource Value) : Op Value Step CredentialPlan :=
  if resource.credentialOrigin = .manager then
    return .manager
  else do
    let answer : Except ReconcileError Bytes ← perform (.reveal resource.credentialRef)
    let plaintext ← Prog.orFail (answer.mapError Step.ofReconcile)
    if plaintext.isEmpty then
      Prog.fail (.failed "a caller-supplied credential needs its plaintext")
    else
      return .caller plaintext

/-- A credential the central does not hold in the form the runtime serves is
handed back: one the manager chose, or the runtime's own framing. -/
def collect (resource : Resource Value) (applied : AppliedGrant Value) (plan : CredentialPlan) :
    Op Value Step Unit :=
  let managerChose := applied.credentialOrigin = .manager ∨ resource.credentialOrigin = .manager
  let reframed := plan.plaintext.isSome ∧ applied.credential.any fun c => some c ≠ plan.plaintext
  match applied.credential.filter fun credential => ! credential.isEmpty with
  | none => return ()
  | some credential =>
    if managerChose ∨ reframed then do
      let text ← orStep (site.decode credential)
      perform (.handBack resource.credentialRef text)
    else
      return ()

def updateOf (generation : Int) (resource : Resource Value) (state : ObservedState)
    (error revision credentialRef : Option String) (learned : Option (Options Value)) :
    ResourceUpdate Value :=
  ⟨resource.key, resource.reference, generation, state, error, revision, credentialRef, learned⟩

/-- Write the resource's row. -/
def record (generation : Int) (resource : Resource Value) (state : ObservedState)
    (error revision credentialRef : Option String) (learned : Option (Options Value)) :
    Op Value ReconcileError Unit := do
  let answer : Except ReconcileError Unit ←
    perform (.upsertResource
      (updateOf generation resource state error revision credentialRef learned))
  Prog.orFail answer

def recordFailed (generation : Int) (resource : Resource Value) (error : String) :
    Op Value ReconcileError Unit :=
  record generation resource .failed (some error) none none none

/-- What a resource came to: its state, the revision, the learned facts. -/
structure Standing (Value : Type) where
  state : ObservedState
  revision : Option String
  learned : Option (Options Value)

/-- What the node has stored about the user's credential, if it holds the user. A
`missing` row owns nothing: whatever lives under that name now is someone
else's. -/
def storedOf (known : Option (Row Value)) : Option (Option String) :=
  (known.filter fun row => row.state ≠ .missing).map (·.credentialRef)

/-- A running user the node does not hold: a collision, or the explicit adoption
of an `imported` resource – no adapter call, the pushed reference names the
credential the runtime holds today. -/
def claim (resource : Resource Value) (item : Option (ObservedGrant Value))
    (stored : Option (Option String)) (generation : Int) :
    Op Value Step (Option (Option String) × Option (Options Value)) :=
  match item, stored with
  | some item, none =>
    if resource.origin ≠ .imported ∨ resource.desiredState = .deleted then
      Prog.fail .collision
    else do
      let learned := learnedFromInventory site resource item
      let answer : Except ReconcileError Unit ←
        perform (.adopt (updateOf generation resource (stateOf item.enabled) none item.revision
          (some resource.credentialRef) learned))
      Prog.orFail (answer.mapError Step.ofReconcile)
      return (some (some resource.credentialRef), learned)
  | _, _ => return (stored, none)

/-- A user the runtime does not have. The placeholder row is written first, so
that a crash after the call of the adapter is not taken for a collision. -/
def createUser (resource : Resource Value) (operationId : String) (generation : Int) :
    Op Value Step (Standing Value) := do
  (recordFailed generation resource "create in flight; will retry on the next apply").mapError
    Step.ofReconcile
  let plan ← plan resource
  orStep (site.validate resource)
  let answer : Except String (AppliedGrant Value) ← perform (.create operationId resource plan)
  let applied ← orStep answer
  collect site resource applied plan
  return ⟨stateOf applied.enabled, applied.revision,
    some (learnedFrom site resource.protocol applied.artifactTemplate)⟩

/-- A user the runtime has: another credential is rotated in, one the runtime
holds in its own form is handed back. -/
def keepUser (adapter : Adapter) (resource : Resource Value) (item : ObservedGrant Value)
    (stored : Option String) (learned : Option (Options Value)) (operationId : String) :
    Op Value Step (Standing Value) :=
  let learned :=
    if learned.all List.isEmpty then learnedFromInventory site resource item else learned
  if stored ≠ some resource.credentialRef
      ∧ (stored.isSome ∨ adapter.acceptsCallerCredential) then do
    let plan ← plan resource
    let answer : Except String (AppliedGrant Value) ←
      perform (.rotate (operationId ++ ":rotate") resource.key plan)
    let applied ← orStep answer
    collect site resource applied plan
    return ⟨stateOf item.enabled, orRevision applied.revision item.revision,
      some (learnedFrom site resource.protocol applied.artifactTemplate)⟩
  else if adapter.captureSupported
      ∧ (resource.credentialOrigin = .manager ∨ adapter.credentialOrigin = .manager) then do
    let answer : Except String (Option Bytes) ← perform (.capture resource.key)
    let captured ← orStep answer
    match captured.filter fun value => ! value.isEmpty with
    | none => return ⟨stateOf item.enabled, item.revision, learned⟩
    | some value => do
      let text ← orStep (site.decode value)
      perform (.handBack resource.credentialRef text)
      return ⟨stateOf item.enabled, item.revision, learned⟩
  else
    return ⟨stateOf item.enabled, item.revision, learned⟩

/-- Enable or disable the user where it is not as wanted. -/
def setAccess (resource : Resource Value) (standing : Standing Value) :
    Op Value Step (Standing Value) := do
  let wanted ← wanted resource
  if wanted ≠ decide (standing.state = .enabled) then
    let answer : Except String (AppliedGrant Value) ←
      if wanted then perform (.enable resource.key) else perform (.disable resource.key)
    let applied ← orStep answer
    return { standing with
      state := stateOf applied.enabled
      revision := orRevision applied.revision standing.revision }
  else
    return standing

/-- Bring the options of a user that was there to the pushed ones. -/
def syncOptions (resource : Resource Value) (current : Options Value)
    (standing : Standing Value) : Op Value Step (Standing Value) :=
  let desired := resource.options.filter fun (key, value) =>
    ! site.isNull value && ! learnedOptions.contains key
  let held := current.filter fun (key, _) => desired.any fun (key', _) => key' = key
  if ! desired.isEmpty ∧ ! site.sameOptions desired held then do
    let answer : Except String (Option (AppliedGrant Value)) ←
      perform (.updateOptions resource.key desired)
    let applied ← orStep answer
    match applied with
    | none => return { standing with state := .drifted }
    | some applied =>
      return { standing with revision := orRevision applied.revision standing.revision }
  else
    return standing

/-- **Bring one runtime user to the resource's desired state.** `item` is what the
inventory of this pass says about the user, `known` the row the pass found when
it began. -/
def applyResource (adapter : Adapter) (resource : Resource Value)
    (item : Option (ObservedGrant Value)) (known : Option (Row Value)) (generation : Int) :
    Op Value Step (Standing Value) := do
  let operationId := s!"{site.guid}:{generation}:{resource.reference}"
  let (stored, learned) ← claim site resource item (storedOf known) generation
  if resource.desiredState = .deleted then
    if item.isSome then
      let answer : Except String Unit ← perform (.delete resource.key)
      orStep answer
    return ⟨.missing, none, none⟩
  else
    match item with
    | none =>
      let standing ← createUser site resource operationId generation
      -- A user created just now already carries the intent's options.
      setAccess resource standing
    | some item =>
      let standing ← keepUser site adapter resource item stored.join learned operationId
      let standing ← setAccess resource standing
      syncOptions site resource item.options standing

/-! ## One protocol -/

/-- What the inventory says about a user: the last entry of its name. -/
def observedItem (items : List (ObservedGrant Value)) (username : String) :
    Option (ObservedGrant Value) :=
  items.reverse.find? fun item => item.runtimeUsername = username

/-- The inventory could not be read: every resource is marked failed, and every
orphan, which exists only in the store. -/
def markFailed (protocol : Protocol) (resources : List (Resource Value)) (orphans : List String)
    (known : Rows Value) (generation : Int) (error : String) : Op Value ReconcileError Unit := do
  resources.forM fun resource => recordFailed generation resource error
  orphans.forM fun username => do
    let row := find known (protocol, username)
    let answer : Except ReconcileError Unit ← perform (.upsertResource
      ⟨(protocol, username), (row.map (·.reference)).getD username, generation, .failed,
        some error, none, row.bind (·.credentialRef), none⟩)
    Prog.orFail answer

/-- What the resources of one protocol have come to so far. -/
structure Progress (Value : Type) where
  failed : Bool
  applied : List (Resource Value)
  collisions : List (ObservedResource Value)

def collisionText : String := "runtime user exists and is not managed"

def collisionReport (resource : Resource Value) : ObservedResource Value :=
  ⟨resource.reference, resource.key, .failed, some collisionText, none, []⟩

/-- Apply one resource and record what came of it. A collision is reported and not
written. -/
def applyAndRecord (adapter : Adapter) (items : List (ObservedGrant Value)) (known : Rows Value)
    (generation : Int) (progress : Progress Value) (resource : Resource Value) :
    Op Value ReconcileError (Progress Value) := do
  let result ← (applyResource site adapter resource (observedItem items resource.runtimeUsername)
    (find known resource.key) generation).attempt
  match result with
  | .error .collision =>
    return { progress with
      failed := true
      collisions := progress.collisions ++ [collisionReport resource] }
  | .error (.failed message) =>
    recordFailed generation resource (bounded message)
    return { progress with failed := true }
  | .ok standing =>
    record generation resource standing.state none standing.revision
      (some resource.credentialRef) standing.learned
    return { progress with applied := progress.applied ++ [resource] }

/-- Whether the inventory read back shows the resource as it should be. -/
def confirmed (readback : Option (List (ObservedGrant Value))) (resource : Resource Value) :
    Op Value ReconcileError Bool :=
  match readback with
  | none => return false
  | some items =>
    let item := observedItem items resource.runtimeUsername
    if resource.desiredState = .deleted then
      return item.isNone
    else
      match item with
      | none => return false
      | some item => do
        let wanted ← wanted resource
        return item.enabled = wanted

/-- Confirm the whole protocol once: a manager's successful reply is not runtime
evidence. -/
def confirmApplied (protocol : Protocol) (generation : Int) (progress : Progress Value) :
    Op Value ReconcileError Bool :=
  if progress.applied.isEmpty then
    return progress.failed
  else do
    let answer : Except String (List (ObservedGrant Value)) ← perform (.discover protocol)
    progress.applied.foldlM (fun failed resource => do
      let confirmed ← confirmed answer.toOption resource
      if confirmed then
        return failed
      else
        recordFailed generation resource "runtime access readback did not match"
        return true) progress.failed

/-- A user the generation no longer names. A row left `missing` owns nothing: a
same-named user present now is local. An error leaves the row for the next pass. -/
def removeOrphan (protocol : Protocol) (items : List (ObservedGrant Value)) (known : Rows Value)
    (failed : Bool) (username : String) : Op Value ReconcileError Bool := do
  let lingering := (find known (protocol, username)).any fun row => row.state = .missing
  let outcome ← Prog.attempt (ε := Step) do
    if (observedItem items username).isSome ∧ ! lingering then
      let answer : Except String Unit ← perform (.delete (protocol, username))
      orStep answer
    let answer : Except ReconcileError Unit ← perform (.removeResource (protocol, username))
    Prog.orFail (answer.mapError Step.ofReconcile)
  match outcome with
  | .ok _ => return failed
  | .error _ => return true

/-- **One protocol's resources and orphans**: whether anything failed, and the
collisions. -/
def applyProtocol (protocol : Protocol) (resources : List (Resource Value))
    (orphans : List String) (known : Rows Value) (generation : Int) :
    Op Value ReconcileError (Bool × List (ObservedResource Value)) := do
  let adapter : Option Adapter ← perform (.adapter protocol)
  match adapter with
  | none =>
    markFailed protocol resources orphans known generation
      (bounded s!"protocol {protocol.asStr} is not enabled on this node")
    return (true, [])
  | some adapter =>
    let discovered : Except String (List (ObservedGrant Value)) ← perform (.discover protocol)
    match discovered with
    | .error message =>
      markFailed protocol resources orphans known generation (bounded message)
      return (true, [])
    | .ok items =>
      let progress ← resources.foldlM (applyAndRecord site adapter items known generation)
        ⟨false, [], []⟩
      let failed ← confirmApplied protocol generation progress
      let failed ← orphans.foldlM (removeOrphan protocol items known) failed
      return (failed, progress.collisions)

/-! ## The whole generation -/

/-- The reference the generation gives to each of its users: the last one. -/
def refsOf (resources : List (Resource Value)) : List (Key × String) :=
  resources.foldl (fun refs resource => put refs resource.key resource.reference) []

/-- How often a generation names a user. -/
def countOf (resources : List (Resource Value)) (key : Key) : Nat :=
  (resources.filter fun resource => resource.key = key).length

/-- The users of a protocol that the node has a row for and the generation does
not name. -/
def orphansOf (known : Rows Value) (refs : List (Key × String)) (protocol : Protocol) :
    List String :=
  ((known.map Prod.fst).filter fun key =>
    key.1 = protocol ∧ (find refs key).isNone).map Prod.snd

/-- The report of a pass and the credentials it hands back. -/
abbrev Applied (Value : Type) := ObservedGeneration Value × List (String × String)

/-- Bring one protocol to the generation, then its lanes. -/
def applyService (applicable : List (Resource Value)) (refs : List (Key × String))
    (known : Rows Value) (generation : Int) (acc : Bool × List (ObservedResource Value))
    (protocol : Protocol) : Op Value ReconcileError (Bool × List (ObservedResource Value)) := do
  let resources := applicable.filter fun resource => resource.protocol = protocol
  let (failed, collisions) ← applyProtocol site protocol resources
    (orphansOf known refs protocol) known generation
  let acc := (acc.1 || failed, acc.2 ++ collisions)
  if laneProtocols.contains protocol then
    let answer : Except ReconcileError Bool ← perform (.applyLanes protocol resources)
    let failed ← Prog.orFail answer
    return (acc.1 || failed, acc.2)
  else
    return acc

/-- **One pass over the latest generation.** Two resources that name one runtime
user would race it: neither is applied, both are marked failed, and the name
still counts as wanted. -/
def applyLatest (latest : Latest Value) : Op Value ReconcileError (Applied Value) := do
  let generation := latest.generation
  let resources := latest.document.resources
  let refs := refsOf resources
  let answer : Except ReconcileError (Rows Value) ← perform (.start generation refs)
  let known ← Prog.orFail answer
  let duplicates := resources.filter fun resource => 1 < countOf resources resource.key
  let applicable := resources.filter fun resource => ! decide (1 < countOf resources resource.key)
  duplicates.forM fun resource =>
    recordFailed generation resource "duplicate protocol/runtime_username in this generation"
  let protocols := Protocol.all.filter fun protocol =>
    applicable.any (fun resource => resource.protocol = protocol)
      || known.any fun e => e.1.1 = protocol
  let (failed, unmanaged) ← protocols.foldlM
    (applyService site applicable refs known generation) (! duplicates.isEmpty, [])
  let answer : Except ReconcileError Bool ← perform .applyRelay
  let relay ← Prog.orFail answer
  let answer : Except ReconcileError Bool ← perform .applyEgress
  let egress ← Prog.orFail answer
  let answer : Except ReconcileError (ObservedGeneration Value) ←
    perform (.finish generation (failed || relay || egress))
  let observed ← Prog.orFail answer
  let credentials : List (String × String) ← perform .handedBack
  return ({ observed with resources := observed.resources ++ unmanaged }, credentials)

/-- Apply the latest generation if it is still the one meant. -/
def apply (generation : Int) : Op Value ReconcileError (Applied Value) := do
  let answer : Except ReconcileError (Option (Latest Value)) ← perform .latest
  let latest ← Prog.orFail answer
  match latest with
  | none => Prog.fail (.superseded generation)
  | some latest =>
    if latest.generation = generation then applyLatest site latest
    else Prog.fail (.superseded generation)

/-- Whether some user is not as the clock says it should be. -/
def due (known : Rows Value) : List (Resource Value) → Op Value ReconcileError Bool
  | [] => return false
  | resource :: rest => do
    if resource.desiredState = .deleted then
      due known rest
    else
      let wanted ← wanted resource
      if (find known resource.key).map (·.state) ≠ some (stateOf wanted) then
        return true
      else
        due known rest

/-- Retry failures and elapsed validity windows. -/
def runPending : Op Value ReconcileError Unit := do
  let answer : Except ReconcileError (Option (Latest Value)) ← perform .latest
  let latest ← Prog.orFail answer
  match latest with
  | none => return ()
  | some latest =>
    let answer : Except ReconcileError (Rows Value) ← perform .resources
    let known ← Prog.orFail answer
    let due ← due known latest.document.resources
    if latest.state ≠ .converged ∨ due then
      (apply site latest.generation).discard
    else
      return ()

/-! ## The node -/

/-- Who made a runtime user what it is. -/
inductive Maker
  /-- A local operator. -/
  | operator
  /-- The reconcile, with `create`. -/
  | created
  /-- The reconcile, through an `imported` resource. -/
  | adopted
deriving DecidableEq, Repr

/-- The node: the central it obeys, the generations with the latest one first, the
rows – one per user – and the credentials the pass in progress hands back; and
the users its runtimes have. -/
structure Node (Value : Type) where
  master : Option String
  generations : List (Latest Value)
  rows : Rows Value
  keyed : (rows.map Prod.fst).Nodup
  handed : List (String × String)
  users : List (Key × Maker)

inductive Conflict
  | guidMismatch | foreignMaster | staleGeneration | digestConflict
deriving DecidableEq, Repr

/-- A generation is for this node, and from its central. -/
def meant (guid : String) (master : Option String) (nodeGuid masterGuid : String) :
    Except Conflict Unit :=
  if nodeGuid ≠ guid then throw .guidMismatch
  else if (master.filter fun master => master ≠ "").any (· ≠ masterGuid) then throw .foreignMaster
  else pure ()

/-- Whether a generation is new, next to the number and the digest of the latest one. -/
def isNew (latest : Option (Int × String)) (generation : Int) (digest : String) :
    Except Conflict Bool :=
  match latest with
  | none => pure true
  | some (number, known) =>
    if generation < number then throw .staleGeneration
    else if generation = number then
      if known ≠ digest then throw .digestConflict else pure false
    else pure true

theorem meant_eq_ok {guid nodeGuid masterGuid : String} {master : Option String}
    (h : meant guid master nodeGuid masterGuid = .ok ()) :
    nodeGuid = guid ∧ ∀ value ∈ master, value ≠ "" → value = masterGuid := by
  obtain ⟨hnode, h⟩ := Checks.check_eq_ok.mp h
  obtain ⟨hmaster, -⟩ := Checks.check_eq_ok.mp h
  refine ⟨not_not.mp hnode, fun value hvalue hne => ?_⟩
  by_contra hother
  rw [hvalue] at hmaster
  exact hmaster (by simp [hne, hother])

theorem isNew_eq_ok {latest : Option (Int × String)} {generation : Int} {digest : String}
    {new : Bool} (h : isNew latest generation digest = .ok new) :
    if new then ∀ known ∈ latest, known.1 < generation else latest = some (generation, digest) := by
  unfold isNew at h
  split at h
  next => cases h; exact nofun
  next number known =>
    obtain ⟨hstale, h⟩ := Checks.check_eq_ok.mp h
    split at h
    next heq =>
      obtain ⟨hknown, h⟩ := Checks.check_eq_ok.mp h
      cases h
      exact congrArg some (Prod.ext heq.symm (not_not.mp hknown))
    next hne =>
      cases h
      rintro _ ⟨⟩
      exact lt_of_le_of_ne (not_lt.mp hstale) (Ne.symm hne)

/-- Record a pushed generation. -/
def accept (document : GenerationDocument Value) (digest : String) (node : Node Value) :
    Except Conflict (Node Value) := do
  meant site.guid node.master document.nodeGuid document.masterGuid
  let new ← isNew (node.generations.head?.map fun latest => (latest.generation, latest.digest))
    document.generation digest
  return if new then
    { node with
      master := node.master <|> some document.masterGuid
      generations :=
        ⟨document.generation, digest, .received, document.masterGuid, document⟩
          :: node.generations }
  else node

namespace Node

def upsert (node : Node Value) (update : ResourceUpdate Value) : Node Value :=
  { node with
    rows := upsertResource node.rows update
    keyed := nodup_keys_put node.keyed _ _ }

def remove (node : Node Value) (key : Key) : Node Value :=
  { node with
    rows := erase node.rows key
    keyed := nodup_keys_filter node.keyed _ }

def retire (node : Node Value) (refs : List (Key × String)) : Node Value :=
  { node with
    rows := Reconciler.retire refs node.rows
    keyed := nodup_keys_filter node.keyed _ }

def setState (node : Node Value) (generation : Int) (state : GenerationState) : Node Value :=
  { node with
    generations := node.generations.map fun latest =>
      if latest.generation = generation then { latest with state := state } else latest }

/-- The user under a name is adopted, if there is one. -/
def adopt (node : Node Value) (key : Key) : Node Value :=
  if (find node.users key).isSome then
    { node with users := put node.users key .adopted }
  else node

/-- A new user, unless there is one: an adapter refuses a name that is taken. -/
def addUser (node : Node Value) (key : Key) (maker : Maker) : Node Value :=
  if (find node.users key).isSome then node
  else { node with users := put node.users key maker }

def dropUser (node : Node Value) (key : Key) : Node Value :=
  { node with users := erase node.users key }

/-- The latest generation, its document validated once more. -/
def latest (node : Node Value) : Except ReconcileError (Option (Latest Value)) :=
  match node.generations with
  | [] => .ok none
  | latest :: _ =>
    match latest.document.check with
    | .ok _ => .ok (some latest)
    | .error message => .error (.store message)

def observed (node : Node Value) : Except ReconcileError (ObservedGeneration Value) :=
  match node.generations with
  | [] => .error (.internal "the generation vanished")
  | latest :: _ =>
    .ok ⟨latest.generation, latest.digest,
      if latest.state = .received then .applying else latest.state,
      node.rows.map fun (key, row) =>
        ⟨row.reference, key, row.state, row.lastError, row.revision, row.learned.getD []⟩⟩

end Node

/-- What the other side makes of a command: how it ends, and what it answers. -/
structure Reply (Value : Type) where
  outcome : Run.Outcome
  error : ReconcileError
  message : String
  now : Int
  adapter : Option Adapter
  items : List (ObservedGrant Value)
  grant : AppliedGrant Value
  updated : Option (AppliedGrant Value)
  bytes : Option Bytes
  failed : Bool

namespace Reply

/-- The answer of the store. -/
def store {α : Type} (reply : Reply Value) (answer : α) : Except ReconcileError α :=
  if reply.outcome = .done then .ok answer else .error reply.error

/-- The answer of an adapter. -/
def runtime {α : Type} (reply : Reply Value) (answer : α) : Except String α :=
  if reply.outcome = .done then .ok answer else .error reply.message

/-- The node after a command that may or may not have had its effect. -/
def effect (reply : Reply Value) (node : Node Value) (f : Node Value → Node Value) :
    Node Value :=
  if reply.outcome.lands then f node else node

end Reply

/-- **What a command does to the node, and what it is answered.** -/
def respond (node : Node Value) (reply : Reply Value) : (c : Cmd Value) → Res c × Node Value
  | .now => (reply.now, node)
  | .latest => (reply.store () >>= fun _ => node.latest, node)
  | .resources => (reply.store node.rows, node)
  | .start generation refs =>
    let started := (node.setState generation .applying).retire refs
    (reply.store started.rows, reply.effect node fun _ => started)
  | .upsertResource update => (reply.store (), reply.effect node (·.upsert update))
  | .adopt update => (reply.store (), reply.effect node fun node =>
      (node.upsert update).adopt update.key)
  | .removeResource key => (reply.store (), reply.effect node (·.remove key))
  | .finish generation failed =>
    let finished := node.setState generation (if failed then .failed else .converged)
    match finished.observed with
    | .ok observed => (reply.store observed, reply.effect node fun _ => finished)
    | .error error => (.error error, node)
  | .handBack credentialRef plaintext =>
    ((), { node with handed := put node.handed credentialRef plaintext })
  | .handedBack => (node.handed, node)
  | .reveal _ => (reply.store (reply.bytes.getD []), node)
  | .adapter _ => (reply.adapter, node)
  | .discover _ => (reply.runtime reply.items, node)
  | .create _ resource _ =>
    (reply.runtime reply.grant, reply.effect node (·.addUser resource.key .created))
  | .rotate .. | .enable _ | .disable _ => (reply.runtime reply.grant, node)
  | .updateOptions .. => (reply.runtime reply.updated, node)
  | .delete key => (reply.runtime (), reply.effect node (·.dropUser key))
  | .capture _ => (reply.runtime reply.bytes, node)
  | .applyLanes .. | .applyRelay | .applyEgress => (reply.store reply.failed, node)

/-! ## Runs -/

/-- The node and the pass in progress: what is left of it. -/
structure State (Value : Type) where
  node : Node Value
  running : Option (Op Value ReconcileError Unit)

/-- A pass that has come to its end is no longer in progress. -/
def settle (p : Op Value ReconcileError Unit) : Option (Op Value ReconcileError Unit) :=
  match p.head with
  | some _ => some p
  | none => none

/-- The entry points of the reconcile. -/
inductive Entry (Value : Type)
  | apply (generation : Int)
  | applyStored (latest : Latest Value)
  | runPending

def Entry.program : Entry Value → Op Value ReconcileError Unit
  | .apply generation => (Reconciler.apply site generation).discard
  | .applyStored latest => (applyLatest site latest).discard
  | .runPending => Reconciler.runPending site

inductive Event (Value : Type)
  /-- A push. -/
  | accept (document : GenerationDocument Value) (digest : String)
  /-- A pass begins: one lock serialises them. -/
  | enter (entry : Entry Value)
  /-- The pass in progress performs its next command. -/
  | perform (reply : Reply Value)
  /-- The process dies and is started again. -/
  | crash
  /-- A local operator creates a user. Whether the node holds the name is asked
  earlier, and not again. -/
  | createLocal (key : Key)
  /-- A user disappears from its runtime. -/
  | vanish (key : Key)

/-- **One step of the node.** -/
def step (s : State Value) : Event Value → Option (State Value)
  | .accept document digest =>
    match accept site document digest s.node with
    | .ok node => some { s with node := node }
    | .error _ => some s
  | .enter entry =>
    match s.running with
    | some _ => none
    | none => some ⟨{ s.node with handed := [] }, settle (entry.program site)⟩
  | .perform reply =>
    match s.running with
    | some (.call c k) =>
      let (answer, node) := respond s.node reply c
      some ⟨node, settle (k answer)⟩
    | _ => none
  | .crash => some { s with running := none }
  | .createLocal key => some { s with node := s.node.addUser key .operator }
  | .vanish key => some { s with node := s.node.dropUser key }

/-- The user the pass in progress is about to change or delete. -/
def State.touching (s : State Value) : Option Key :=
  (s.running.bind Prog.head).bind Cmd.touches

end Reconciler
