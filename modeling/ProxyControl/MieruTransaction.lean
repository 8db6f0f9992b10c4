import ProxyControl.Mieru

/-!
# The Mieru manager: transactions and recovery

A change touches two things that cannot be written together: `mita`'s
configuration and the manager's state file. A transaction writes a journal
first, applies the configuration, notes in the journal that it did, brings the
daemon up on it, and only then writes the state and removes the journal. If
something fails before the state is written, the old configuration is applied
again – the rollback, with a note of its own. A manager that starts and finds
a journal recovers: it removes the journal of a transaction that was committed,
and undoes any other.

Each of these is one step here, with the three ways it can end, and the
process can stop before any of them. What a step does to the files and to
`mita` is in `World`; where the process is, in `Control`. The journal is one
that the manager wrote: its fields are typed and its authentication is left
out. So is waiting for `mita` to reach a state.
-/

namespace Mieru

open Table
open Run (Outcome)

variable {Digest Section Rest Doc : Type} [DecidableEq Digest]

/-! ## The files -/

/-- How far a transaction got, as its journal says. -/
inductive Phase
  | prepared
  | applied
  | rollbackApplied
deriving DecidableEq, Repr

/-- **The journal.** A backup is named by the generation and the revision it was
made at. -/
structure Journal (Digest : Type) where
  phase : Phase
  operation : Operation
  mode : Mode
  previousConfigHash : Digest
  desiredConfigHash : Digest
  stateRevision : Digest
  stateGeneration : Nat
  nextRevision : Digest
  nextGeneration : Nat
  backup : Nat × Digest
  backupSha256 : Digest
deriving DecidableEq, Repr

variable (site : Site Digest Section Rest Doc)

/-- What `mita` holds: a configuration as it reads it back. -/
def Held : Type := { c : Config Section Rest // c.readback site.sha256 = c }

/-- What `mita` holds after a configuration is applied. -/
def Held.ofConfig (c : Config Section Rest) : Held site :=
  ⟨c.readback site.sha256, c.readback_readback site.sha256⟩

/-- **The files, and the configuration `mita` holds.** -/
structure World where
  state : State Digest Section Doc
  journal : Option (Journal Digest)
  backups : List ((Nat × Digest) × Config Section Rest)
  mita : Held site

/-! ## A transaction -/

/-- **A transaction that is to be carried out**: where it starts from, and where
it leads to. -/
structure Tx (Digest Section Rest Doc : Type) where
  /-- The state file it was made from. -/
  old : State Digest Section Doc
  /-- The configuration it was made from. -/
  before : Config Section Rest
  desired : Config Section Rest
  /-- The state to be written. -/
  next : State Digest Section Doc
  /-- The journal, as it is written first. -/
  journal : Journal Digest

/-- The configuration `mita` holds once a transaction is applied. -/
def Tx.expected (tx : Tx Digest Section Rest Doc) : Config Section Rest :=
  tx.desired.readback site.sha256

/-- The start of `transaction`: the checks, and the journal. -/
def prepare (file : State Digest Section Doc) (before : Config Section Rest)
    (ch : Change Digest Section Rest Doc) : Except Error (Tx Digest Section Rest Doc) := do
  validateConfig site ch.desired
  validateConfig site before
  let expected := ch.desired.readback site.sha256
  if ch.mode ≠ modeFor ch.operation before expected then
    throw (.validation "invalid transaction metadata")
  let previousHash := site.hash (.config before)
  if previousHash ≠ ch.state.configHash then
    throw (.conflict "observed config changed outside manager")
  let desiredHash := site.hash (.config expected)
  let nextRevision := site.hash
    (.revision expected ch.state.disabled ch.state.tombstones (ch.state.generation + 1))
  let journal : Journal Digest :=
    { phase := .prepared
      operation := ch.operation
      mode := ch.mode
      previousConfigHash := previousHash
      desiredConfigHash := desiredHash
      stateRevision := ch.state.revision
      stateGeneration := ch.state.generation
      nextRevision
      nextGeneration := ch.state.generation + 1
      backup := (ch.state.generation, ch.state.revision)
      backupSha256 := site.hash (.backup before) }
  let next : State Digest Section Doc := { ch.state with
    configHash := desiredHash
    revision := nextRevision
    generation := ch.state.generation + 1
    operations := match ch.record with
      | some (op, record) => put ch.state.operations op (record nextRevision)
      | none => ch.state.operations }
  return ⟨file, before, ch.desired, next, journal⟩

/-! ## Recovery -/

/-- What recovery finds to do. -/
inductive Recovery (Section Rest : Type)
  /-- The transaction was committed; its journal is left. -/
  | committed
  /-- The configuration of the backup is to be brought back; `apply` where
  `mita` does not hold it. -/
  | restore (config : Config Section Rest) (apply : Bool)

/-- The configurations a phase allows. -/
def Phase.allowed (phase : Phase) (previousHash desiredHash : Digest) : List Digest :=
  match phase with
  | .prepared => [previousHash, desiredHash]
  | .applied => [desiredHash]
  | .rollbackApplied => [previousHash]

/-- The checks of `recover_inner`, in their order. -/
def recovery (w : World site) (j : Journal Digest) : Except String (Recovery Section Rest) :=
  let observedHash := site.hash (.config w.mita.1)
  if j.backup ≠ (j.stateGeneration, j.stateRevision) ∨ j.nextGeneration ≠ j.stateGeneration + 1 then
    .error "invalid journal"
  else if w.state.generation = j.nextGeneration ∧ w.state.revision = j.nextRevision
      ∧ w.state.configHash = j.desiredConfigHash ∧ observedHash = j.desiredConfigHash then
    .ok .committed
  else if w.state.generation ≠ j.stateGeneration ∨ w.state.revision ≠ j.stateRevision
      ∨ w.state.configHash ≠ j.previousConfigHash then
    .error "journal generation is stale"
  else if observedHash ∉ j.phase.allowed j.previousConfigHash j.desiredConfigHash then
    .error "observed config does not match journal phase"
  else
    match find w.backups j.backup with
    | none => .error "unsafe transaction recovery file"
    | some config =>
      if site.hash (.backup config) ≠ j.backupSha256 then .error "backup digest mismatch"
      else if (validateConfig site config).isOk = false then .error "invalid backup config"
      else if site.hash (.config config) ≠ j.previousConfigHash then .error "backup config mismatch"
      else if observedHash = j.desiredConfigHash ∧ j.mode ≠ modeFor j.operation config w.mita.1 then
        .error "journal mode mismatch"
      -- The disabled users and the tombstones are those of the state on disk.
      else if observedHash = j.desiredConfigHash ∧ j.nextRevision ≠ site.hash
          (.revision w.mita.1 w.state.disabled w.state.tombstones j.nextGeneration) then
        .error "journal next revision mismatch"
      else .ok (.restore config (decide (observedHash ≠ j.previousConfigHash)))

/-- **`recover_inner`, where every call of `mita` succeeds**: the whole of it,
without a stop. -/
def recover (w : World site) : Except String (World site) :=
  match w.journal with
  | none => .ok w
  | some j =>
    match recovery site w j with
    | .error e => .error e
    | .ok .committed => .ok { w with journal := none }
    | .ok (.restore config apply) =>
      let w := if apply then { w with mita := Held.ofConfig site config } else w
      if site.hash (.config w.mita.1) ≠ j.previousConfigHash then
        .error "recovery readback mismatch"
      else .ok { w with journal := none }

/-! ## Steps -/

/-- Where the process is, and what it does next. -/
inductive Control (Digest Section Rest Doc : Type)
  | down
  /-- It runs, and no request is in progress. -/
  | up
  /-- The steps of a transaction. -/
  | backup (tx : Tx Digest Section Rest Doc)
  | journal (tx : Tx Digest Section Rest Doc)
  | apply (tx : Tx Digest Section Rest Doc)
  | phase (tx : Tx Digest Section Rest Doc)
  | serve (tx : Tx Digest Section Rest Doc)
  | commit (tx : Tx Digest Section Rest Doc)
  | finish (tx : Tx Digest Section Rest Doc)
  | sync (tx : Tx Digest Section Rest Doc)
  /-- The steps of its rollback. -/
  | undo (tx : Tx Digest Section Rest Doc)
  | undoPhase (tx : Tx Digest Section Rest Doc)
  | undoServe (tx : Tx Digest Section Rest Doc)
  | undoFinish (tx : Tx Digest Section Rest Doc)
  /-- The steps of a recovery. -/
  | restore (config : Config Section Rest) (previousHash : Digest)
  | restart (previousHash : Digest)
  | remove

/-- The manager. -/
structure Machine where
  world : World site
  control : Control Digest Section Rest Doc
  /-- The transaction whose journal was last written. -/
  last : Option (Tx Digest Section Rest Doc)

/-- What can happen next. -/
inductive Event (Digest Section Doc : Type)
  | request (env : Env Section Doc) (r : Request Digest Doc)
  /-- The next step is taken, and ends in some way. -/
  | next (o : Outcome)
  | stop
  | start

namespace Machine

variable {site}

/-- Change the files where the step had its effect, and go on where it succeeded. -/
def effect (m : Machine site) (o : Outcome) (f : World site → World site)
    (done failed : Control Digest Section Rest Doc) : Machine site :=
  { m with
    world := if o.lands then f m.world else m.world
    control := if o = .done then done else failed }

end Machine

/-- A journal with another phase. -/
def World.setPhase (w : World site) (tx : Tx Digest Section Rest Doc) (phase : Phase) : World site :=
  { w with journal := some { tx.journal with phase } }

variable [DecidableEq Doc]

/-- **What an event does.** -/
def step (m : Machine site) : Event Digest Section Doc → Option (Machine site)
  | .stop => some { m with control := .down }
  | .start =>
    match m.control with
    | .down =>
      match m.world.journal with
      | none => some { m with control := .up }
      | some j =>
        match recovery site m.world j with
        | .error _ => some m
        | .ok .committed => some { m with control := .remove }
        | .ok (.restore config true) =>
          some { m with control := .restore config j.previousConfigHash }
        | .ok (.restore _ false) => some { m with control := .restart j.previousConfigHash }
    | _ => none
  | .request env r =>
    match m.control with
    | .up =>
      match plan site env m.world.state m.world.mita.1 r with
      | .ok (.change ch) =>
        match prepare site m.world.state m.world.mita.1 ch with
        | .ok tx => some { m with control := .backup tx }
        | .error _ => some m
      | _ => some m
    | _ => none
  | .next o =>
    match m.control with
    | .down => none
    | .up => none
    | .backup tx =>
      some (m.effect o (fun w => { w with
        backups := put w.backups tx.journal.backup tx.before }) (.journal tx) .up)
    | .journal tx =>
      some { m.effect o (fun w => { w with journal := some tx.journal }) (.apply tx) .up with
        last := if o.lands then some tx else m.last }
    | .apply tx =>
      some (m.effect o (fun w => { w with mita := .ofConfig site tx.desired }) (.phase tx) (.undo tx))
    | .phase tx => some (m.effect o (fun w => w.setPhase site tx .applied) (.serve tx) (.undo tx))
    | .serve tx =>
      -- The configuration is read back before the daemon is reloaded or restarted.
      if site.hash (.config m.world.mita.1) ≠ tx.journal.desiredConfigHash then
        some { m with control := .undo tx }
      else some (m.effect o id (.commit tx) (.undo tx))
    | .commit tx => some (m.effect o (fun w => { w with state := tx.next }) (.finish tx) .up)
    | .finish tx =>
      some (m.effect o (fun w => { w with journal := none })
        (if tx.next.lanes = [] then .up else .sync tx) .up)
    | .sync tx =>
      -- Done: the lanes follow. Otherwise they are marked, if that can be written.
      some (m.effect o (fun w => if o = .done then w
        else { w with state := { tx.next with lanesStale := true } }) .up .up)
    | .undo tx =>
      some (m.effect o (fun w => { w with mita := .ofConfig site tx.before }) (.undoPhase tx) .up)
    | .undoPhase tx =>
      if site.hash (.config m.world.mita.1) ≠ tx.journal.previousConfigHash then
        some { m with control := .up }
      else some (m.effect o (fun w => w.setPhase site tx .rollbackApplied) (.undoServe tx) .up)
    | .undoServe tx => some (m.effect o id (.undoFinish tx) .up)
    | .undoFinish _ => some (m.effect o (fun w => { w with journal := none }) .up .up)
    | .restore config previousHash =>
      some (m.effect o (fun w => { w with mita := .ofConfig site config }) (.restart previousHash)
        .down)
    | .restart previousHash =>
      if site.hash (.config m.world.mita.1) ≠ previousHash then some { m with control := .down }
      else some (m.effect o id .remove .down)
    | .remove => some (m.effect o (fun w => { w with journal := none }) .up .down)

/-! ## Whole requests -/

/-- What a success says. -/
structure Reply (Digest : Type) where
  revision : Digest
  share : Option String
deriving DecidableEq, Repr

/-- **A request as a whole**, where it is not left half way: its transaction is
carried out, or undone. After a `failure` it may be either. -/
def call (w : World site) (env : Env Section Doc) (r : Request Digest Doc) (o : Outcome)
    (failure : Error) : World site × Except Error (Reply Digest) :=
  match plan site env w.state w.mita.1 r with
  | .error e => (w, .error e)
  | .ok (.replayed revision) => (w, .ok ⟨revision, none⟩)
  | .ok .nothing => (w, .ok ⟨w.state.revision, none⟩)
  | .ok (.change ch) =>
    match prepare site w.state w.mita.1 ch with
    | .error e => (w, .error e)
    | .ok tx =>
      (if o.lands then
        { state := tx.next
          journal := none
          backups := put w.backups tx.journal.backup tx.before
          mita := .ofConfig site tx.desired }
        else w,
      if o = .done then .ok ⟨tx.next.revision, ch.share⟩ else .error failure)

end Mieru

namespace Mieru.Sample

variable {Digest : Type} (hash : Hashed Unit Unit → Digest)

/-- A site whose digest of a text is a valid one and tells two passwords of
`alice` apart. -/
def site : Site Digest Unit Unit Unit where
  hash := hash
  sha256 text := String.ofList (List.replicate 64
    (if text = "bbbbbbbbbbbbbbbb\x00alice" then '1' else '0'))
  checkBindings _ := .ok ()
  checkSettings _ := .ok ()
  checkEgress _ := .ok ()
  checkTraffic _ := .ok ()
  share _ _ _ := .ok ""
  fromMita _ := none

def env : Env Unit Unit :=
  ⟨0, "tttttttttttttttt", fun _ => .ok none, fun _ => .ok (), fun _ => false⟩

/-- The digest a manager with the given users starts with. -/
def revision (users : List User) : Digest := hash (.config ⟨some users, none, ()⟩)

def world (users : List User) : World (site hash) where
  state := ⟨0, revision hash users, revision hash users, [], [], [], [], [], false, sorted_nil⟩
  journal := none
  backups := []
  mita := .ofConfig _ ⟨some users, none, ()⟩

end Mieru.Sample
