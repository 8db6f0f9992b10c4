import ProxyControl.Reconciler

/-!
# The generations of a linked node

A central panel numbers what a linked node must run. A change that says anything
new is published as the next *generation*, which makes the link dirty; the pusher
delivers the latest generation, and a report of the node that it converged makes
the link clean again.

The central keeps every generation it published (`Central.desired`), the node's
last report, and of the link three fields: whether it is dirty, the generation the
node should have, and the one it last acknowledged. A visit of the pusher goes
through several transactions and calls with anything in between, so it is a *task*
(`Task`) with what it read so far: the generation it is delivering stays the one it
read, whatever is published meanwhile. A request may be lost on its way, arrive
after its task has given up, or arrive and have its answer lost.

The node is the one of the reconcile (`Reconciler.State`): it files a pushed
generation with `Reconciler.accept`, applies it with the passes of
`Reconciler.step`, and its report is about the latest generation it has.

A document goes from the central's database to the node as it is, so the digest the
node computes is that of the document the central stored. What the grants compile
to, the secrets of a push, and the pusher's memory of nodes to leave alone for a
while are inputs of the events here.
-/

namespace Generations

open Reconciler (GenerationDocument GenerationState ObservedResource Resource Conflict)

variable {Value Sections : Type}

/-! ## Documents -/

/-- A generation as the central compiles it: what the reconcile reads of it, the
egress and relay sections, and where it comes from. -/
structure Document (Value Sections : Type) extends GenerationDocument Value where
  sections : Sections
  previousGeneration : Int
  createdAt : Int
  createdBy : String

/-- What the grants and the policies of the node compile to. -/
structure Contents (Value Sections : Type) where
  resources : List (Resource Value)
  sections : Sections

/-- What the code takes from elsewhere: the ids of the node and of the central, the
digest of the canonical JSON, and the validation of a document. -/
structure Site (Value Sections : Type) where
  nodeId : String
  ownGuid : String
  canonicalDigest : Document Value Sections → String
  validate : Document Value Sections → Except String Unit
  node : Reconciler.Site Value

variable (site : Site Value Sections)

/-- The digest with the numbering and the timestamp neutralised. -/
def contentDigest (document : Document Value Sections) : String :=
  site.canonicalDigest
    { document with generation := 1, previousGeneration := 0, createdAt := 0, createdBy := "" }

/-- Compile the contents, the resources ordered by their references. -/
def compile (contents : Contents Value Sections) (previous generation now : Int)
    (createdBy : String) : Except String (Document Value Sections) :=
  let document : Document Value Sections :=
    { nodeGuid := site.nodeId
      masterGuid := site.ownGuid
      generation := generation
      resources := contents.resources.insertionSort (·.reference ≤ ·.reference)
      sections := contents.sections
      previousGeneration := previous
      createdAt := now
      createdBy := createdBy }
  (site.validate document).map fun _ => document

/-! ## Reports -/

/-- Where the node's reconcile stands. -/
inductive ReconcileState
  | idle | applying | converged | failed
deriving DecidableEq, Repr

def ReconcileState.ofGeneration : GenerationState → ReconcileState
  | .received | .applying => .applying
  | .converged => .converged
  | .failed => .failed

/-- The node's report. -/
structure ObservedGeneration (Value : Type) where
  appliedGeneration : Int
  digest : String
  reconcileState : ReconcileState
  resources : List (ObservedResource Value)

/-- What a node reports before any push. -/
def ObservedGeneration.initial : ObservedGeneration Value := ⟨0, "", .idle, []⟩

/-- The report about the latest generation, or the initial one. -/
def observedOf (node : Reconciler.Node Value) : ObservedGeneration Value :=
  match node.observed with
  | .ok observed =>
    ⟨observed.appliedGeneration, observed.digest, .ofGeneration observed.reconcileState,
      observed.resources⟩
  | .error _ => .initial

/-! ## The central's database -/

/-- A row of `desired_generations`. -/
structure DesiredGeneration (Value Sections : Type) where
  generation : Int
  digest : String
  contentDigest : String
  document : Document Value Sections
  pushedAt : Option Int
  acknowledgedAt : Option Int

namespace DesiredGeneration

def pushed (now : Int) (row : DesiredGeneration Value Sections) :
    DesiredGeneration Value Sections :=
  { row with pushedAt := some now }

/-- The first acknowledgement stays. -/
def acknowledged (now : Int) (row : DesiredGeneration Value Sections) :
    DesiredGeneration Value Sections :=
  { row with acknowledgedAt := row.acknowledgedAt <|> some now }

end DesiredGeneration

/-- The row of `node_links`, as far as it is about generations. -/
structure NodeLink where
  enabled : Bool
  configDirty : Bool
  desiredGeneration : Int
  acknowledgedGeneration : Int
deriving DecidableEq, Repr

/-- **The central's record of the node.** The number of a generation is its key. -/
structure Central (Value Sections : Type) where
  desired : List (DesiredGeneration Value Sections)
  keyed : (desired.map DesiredGeneration.generation).Nodup
  observed : Option (ObservedGeneration Value)
  link : NodeLink

namespace Central

/-- `ORDER BY generation DESC LIMIT 1`. -/
def latest (central : Central Value Sections) : Option (DesiredGeneration Value Sections) :=
  @List.argmax _ _ Int.instLinearOrder.toPreorder Int.instLinearOrder.toDecidableLT
    DesiredGeneration.generation central.desired

/-- Store a generation and mark the link dirty. -/
def insert (document : Document Value Sections) (central : Central Value Sections) :
    Except String (Central Value Sections) :=
  if taken : document.generation ∈ central.desired.map DesiredGeneration.generation then
    .error "UNIQUE constraint failed: desired_generations.node_id, desired_generations.generation"
  else
    .ok { central with
      desired :=
        ⟨document.generation, site.canonicalDigest document, contentDigest site document, document,
          none, none⟩ :: central.desired
      keyed := List.nodup_cons.mpr ⟨taken, central.keyed⟩
      link :=
        { central.link with configDirty := true, desiredGeneration := document.generation } }

/-- Change the rows of one generation, but not its number. -/
def update (central : Central Value Sections) (generation : Int)
    (change : DesiredGeneration Value Sections → DesiredGeneration Value Sections)
    (kept : ∀ row, (change row).generation = row.generation) : Central Value Sections :=
  { central with
    desired := central.desired.map fun row =>
      if row.generation = generation then change row else row
    keyed := by
      have hsm : (DesiredGeneration.generation ∘ fun row : DesiredGeneration Value Sections =>
          if row.generation = generation then change row else row)
          = DesiredGeneration.generation := by
        funext row
        show (if row.generation = generation then change row else row).generation = row.generation
        split
        · exact kept row
        · rfl
      rw [List.map_map, hsm]
      exact central.keyed }

def markPushed (generation now : Int) (central : Central Value Sections) :
    Central Value Sections :=
  central.update generation (DesiredGeneration.pushed now) fun _ => rfl

/-- Store the node's report. One that it converged acknowledges its generation,
unless the acknowledgement is withheld. -/
def recordObserved (observed : ObservedGeneration Value) (acknowledge : Bool) (now : Int)
    (central : Central Value Sections) : Central Value Sections :=
  let central := { central with observed := some observed }
  if observed.reconcileState = .converged ∧ acknowledge then
    let central := central.update observed.appliedGeneration
      (DesiredGeneration.acknowledged now) fun _ => rfl
    -- A late acknowledgement of an older generation must not clear a newer dirty flag.
    { central with
      link :=
        { central.link with
          acknowledgedGeneration := observed.appliedGeneration
          configDirty :=
            if central.link.desiredGeneration = observed.appliedGeneration then false
            else central.link.configDirty } }
  else central

/-- The report is final, and about the latest generation. -/
def current (observed : ObservedGeneration Value) (central : Central Value Sections) : Bool :=
  (observed.reconcileState = .converged || observed.reconcileState = .failed)
    && central.latest.any fun latest => latest.generation = observed.appliedGeneration

/-- Take in a report. Only one about the latest generation can find a credential
that is not captured yet, for which the acknowledgement is withheld. -/
def absorb (observed : ObservedGeneration Value) (uncaptured : Bool) (now : Int)
    (central : Central Value Sections) : Central Value Sections :=
  let withheld := central.current observed && uncaptured
  central.recordObserved observed (! withheld) now

/-- Publish the next generation, if it says anything new. -/
def publish (contents : Contents Value Sections) (createdBy : String) (now : Int)
    (central : Central Value Sections) : Except String (Central Value Sections) := do
  let previous := central.latest.elim 0 DesiredGeneration.generation
  let document ← compile site contents previous (previous + 1) now createdBy
  if central.latest.any fun latest => latest.contentDigest = contentDigest site document then
    .ok central
  else central.insert site document

/-- The node refused `delivered` for what it has: number the contents past what it
observed, unless the central has moved on or is itself ahead. -/
def republish (delivered : DesiredGeneration Value Sections)
    (observed : ObservedGeneration Value) (contents : Contents Value Sections) (now : Int)
    (central : Central Value Sections) : Except String (Central Value Sections) :=
  match central.latest with
  | none => .ok central
  | some current =>
    if current.generation ≠ delivered.generation
        ∨ observed.appliedGeneration < current.generation then
      .ok central
    else do
      let document ← compile site contents observed.appliedGeneration
        (observed.appliedGeneration + 1) now "system"
      central.insert site document

end Central

/-! ## The pusher -/

/-- What a visit does about the latest generation. -/
inductive Delivery
  | nothing | poll | push
deriving DecidableEq, Repr

def staleApplySeconds : Int := 600

/-- A generation that was pushed is still being applied: the node last reported that it
applies the generation `applying`, and the push is not long ago. -/
def inFlight (generation : Int) (pushedAt applying : Option Int) (now : Int) : Bool :=
  decide (applying = some generation) && pushedAt.any (now - · < staleApplySeconds)

/-- The generation a report says is being applied. -/
def ObservedGeneration.applying (observed : ObservedGeneration Value) : Option Int :=
  if observed.reconcileState = .applying then some observed.appliedGeneration else none

/-- Deliver the latest generation, poll for it, or leave the node alone. -/
def delivery (link : NodeLink) (latest : DesiredGeneration Value Sections)
    (observed : Option (ObservedGeneration Value)) (deferred : Bool) (now : Int) : Delivery :=
  if ! link.enabled then .nothing
  else if inFlight latest.generation latest.pushedAt (observed.bind (·.applying)) now then .poll
  else if deferred then .nothing
  else if link.configDirty || link.acknowledgedGeneration < latest.generation then .push
  else if latest.document.resources.any fun r => r.validFrom.isSome || r.validUntil.isSome then
    -- Deadline enforcement changes runtime state without changing the generation.
    .poll
  else .nothing

structure PushRequest (Value Sections : Type) where
  expectedGuid : String
  generation : Document Value Sections

def Conflict.code : Conflict → String
  | .guidMismatch => "guid_mismatch"
  | .foreignMaster => "foreign_master"
  | .staleGeneration => "stale_generation"
  | .digestConflict => "digest_conflict"

def resyncCodes : List String := ["stale_generation", "digest_conflict"]

/-- **A visit in progress**, by what it does next. -/
inductive Task (Value Sections : Type)
  /-- It read the link, the latest generation and the last report, and adopts users. -/
  | visiting (link : NodeLink) (latest : Option (DesiredGeneration Value Sections))
      (observed : Option (ObservedGeneration Value))
  /-- Its push is on the way to the node. -/
  | pushing (latest : DesiredGeneration Value Sections)
  /-- The node filed its push, and has not answered. -/
  | accepted (latest : DesiredGeneration Value Sections)
  /-- The node answered with its report; the push is not recorded yet. -/
  | delivered (latest : DesiredGeneration Value Sections) (observed : ObservedGeneration Value)
  /-- The push was refused for what the node has, which it asks for. -/
  | resyncing (latest : DesiredGeneration Value Sections)
  /-- The node answered what it has. -/
  | republishing (latest : DesiredGeneration Value Sections)
      (observed : ObservedGeneration Value)
  /-- It asks for the node's report. -/
  | polling
  /-- The node's report is on the way, or about to be taken in. -/
  | absorbing (observed : ObservedGeneration Value)

def pushOf (latest : DesiredGeneration Value Sections) : PushRequest Value Sections :=
  ⟨site.nodeId, latest.document⟩

/-- The request that a task leaves on its way when it gives up. -/
def Task.leaves : Task Value Sections → List (PushRequest Value Sections)
  | .pushing latest => [pushOf site latest]
  | _ => []

/-! ## The node -/

/-- File a pushed generation and its secrets, in one transaction. -/
def accept (request : PushRequest Value Sections) (node : Reconciler.Node Value) :
    Except Conflict (Reconciler.Node Value) :=
  if request.expectedGuid ≠ site.node.guid then .error .guidMismatch
  else
    Reconciler.accept site.node request.generation.toGenerationDocument
      (site.canonicalDigest request.generation) node

/-! ## Runs -/

/-- The central with the visits in progress, the requests whose visit has given up,
and the node – and every report the node has made. -/
structure State (Value Sections : Type) where
  central : Central Value Sections
  tasks : List (Task Value Sections)
  requests : List (PushRequest Value Sections)
  node : Reconciler.State Value
  reports : List (ObservedGeneration Value)

inductive Event (Value Sections : Type)
  /-- A change of the central's clients, grants or policies. -/
  | publish (contents : Contents Value Sections) (createdBy : String) (now : Int)
  | setEnabled (enabled : Bool)
  /-- A visit begins. -/
  | heartbeat
  /-- A visit decides; if it adopted users it has read the generations again. -/
  | deliver (i : Nat) (adopted deferred : Bool) (now : Int)
  /-- A push arrives. The secrets may fail to be stored, which undoes the rest. -/
  | arrive (i : Nat) (kept : Bool)
  /-- A push arrives whose visit has given up. -/
  | arriveLate (i : Nat) (kept : Bool)
  /-- The node answers a push with its report, converged or not. -/
  | answer (i : Nat)
  /-- The node answers a push that a newer generation superseded. -/
  | supersede (i : Nat)
  /-- The node answers what it has. -/
  | report (i : Nat)
  | markPushed (i : Nat) (now : Int)
  | absorb (i : Nat) (uncaptured : Bool) (now : Int)
  | republish (i : Nat) (contents : Contents Value Sections) (now : Int)
  /-- A visit ends early: a call failed, an answer was lost, the central restarted. -/
  | abandon (i : Nat)
  /-- A pass of the node's reconcile begins or performs its next command; the node
  restarts; its users change. -/
  | node (event : Reconciler.Event Value)

namespace State

def next (s : State Value Sections) (i : Nat) (task : Task Value Sections) :
    State Value Sections :=
  { s with tasks := s.tasks.set i task }

def finish (s : State Value Sections) (i : Nat) : State Value Sections :=
  { s with tasks := s.tasks.eraseIdx i }

/-- The node makes a report for a task, which goes on with it. -/
def reported (s : State Value Sections) (i : Nat)
    (task : ObservedGeneration Value → Task Value Sections) : State Value Sections :=
  let observed := observedOf s.node.node
  { s.next i (task observed) with reports := observed :: s.reports }

/-- A transaction of the central; one that fails changes nothing. -/
def commit (s : State Value Sections) (result : Except String (Central Value Sections)) :
    State Value Sections :=
  match result with
  | .ok central => { s with central := central }
  | .error _ => s

end State

/-- A visit decides what to do. -/
def decideDelivery (s : State Value Sections) (i : Nat) (link : NodeLink)
    (latest : Option (DesiredGeneration Value Sections))
    (observed : Option (ObservedGeneration Value)) (deferred : Bool) (now : Int) :
    State Value Sections :=
  match latest with
  | none => s.finish i
  | some latest =>
    match delivery link latest observed deferred now with
    | .nothing => s.finish i
    | .poll => s.next i .polling
    | .push => s.next i (.pushing latest)

/-- **A push arrives at the node.** What the node refuses for the generation it has
is renumbered; any other refusal ends the visit. -/
def arrive (s : State Value Sections) (i : Nat) (latest : DesiredGeneration Value Sections)
    (kept : Bool) : State Value Sections :=
  match accept site (pushOf site latest) s.node.node with
  | .error conflict =>
    if Conflict.code conflict ∈ resyncCodes then s.next i (.resyncing latest) else s.finish i
  | .ok node =>
    if kept then
      { s.next i (.accepted latest) with node := { s.node with node := node } }
    else s.finish i

/-- A push arrives that nobody waits for. -/
def arriveLate (s : State Value Sections) (request : PushRequest Value Sections) (kept : Bool) :
    State Value Sections :=
  match accept site request s.node.node with
  | .error _ => s
  | .ok node => if kept then { s with node := { s.node with node := node } } else s

/-- The node's latest generation has another number. -/
def superseded (node : Reconciler.Node Value) (generation : Int) : Bool :=
  node.generations.head?.any fun latest => latest.generation ≠ generation

/-- **One step of the central, of the node, or of what is between them.** Only a push
brings the node a generation. -/
def step (s : State Value Sections) : Event Value Sections → Option (State Value Sections)
  | .publish contents createdBy now =>
    some (s.commit (s.central.publish site contents createdBy now))
  | .setEnabled enabled =>
    some { s with
      central := { s.central with link := { s.central.link with enabled := enabled } } }
  | .heartbeat =>
    some { s with
      tasks := s.tasks ++ [.visiting s.central.link s.central.latest s.central.observed] }
  | .deliver i adopted deferred now =>
    match s.tasks[i]? with
    | some (.visiting link latest observed) =>
      if adopted then
        some (decideDelivery s i link s.central.latest s.central.observed deferred now)
      else some (decideDelivery s i link latest observed deferred now)
    | _ => none
  | .arrive i kept =>
    match s.tasks[i]? with
    | some (.pushing latest) => some (arrive site s i latest kept)
    | _ => none
  | .arriveLate i kept =>
    match s.requests[i]? with
    | some request =>
      some { arriveLate site s request kept with requests := s.requests.eraseIdx i }
    | none => none
  | .answer i =>
    match s.tasks[i]? with
    | some (.accepted latest) => some (s.reported i (.delivered latest))
    | _ => none
  | .supersede i =>
    match s.tasks[i]? with
    | some (.accepted latest) =>
      if superseded s.node.node latest.generation then some (s.next i (.resyncing latest))
      else none
    | _ => none
  | .report i =>
    match s.tasks[i]? with
    | some (.resyncing latest) => some (s.reported i (.republishing latest))
    | some .polling => some (s.reported i .absorbing)
    | _ => none
  | .markPushed i now =>
    match s.tasks[i]? with
    | some (.delivered latest observed) =>
      some { s.next i (.absorbing observed) with
        central := s.central.markPushed latest.document.generation now }
    | _ => none
  | .absorb i uncaptured now =>
    match s.tasks[i]? with
    | some (.absorbing observed) =>
      some { s.finish i with central := s.central.absorb observed uncaptured now }
    | _ => none
  | .republish i contents now =>
    match s.tasks[i]? with
    | some (.republishing latest observed) =>
      some ((s.finish i).commit (s.central.republish site latest observed contents now))
    | _ => none
  | .abandon i =>
    match s.tasks[i]? with
    | some task => some { s.finish i with requests := s.requests ++ task.leaves site }
    | none => none
  | .node (.accept _ _) => none
  | .node event => (Reconciler.step site.node s.node event).map fun node => { s with node := node }

end Generations
