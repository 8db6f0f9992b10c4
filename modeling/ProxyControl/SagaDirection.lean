import ProxyControl.Saga

/-!
# The direction of an operation

Once a manager has refused a step, `run` turns around: the journal reaches
`compensating`, and from there the operation should end `compensated` or in the hands of
a person. The run that turned around does that. A run that resumes it does not: `run`
never looks whether the journal says `compensating`. It marks the operation `applying`
and takes the steps forward again, so that the step whose refusal started the
compensation has its account created after all, and an operation that was half undone
ends `succeeded` (`forward_again_after_crash`).

It takes a stop in the middle of a compensation: the process stops, the database fails,
or Mieru's answer about its revision cannot be read. `direction_kept` says that without
one of these while the journal says `compensating` every run keeps the direction.

A run is ahead while the journal has not turned (`Ahead`), turned while it compensates
(`Turned`), and over when nothing is left to do (`Over`). The nodes report to operations
that wait for them, and a turned one does not: `Rely` says what they may do.
-/

namespace Saga

open Prog (Safe)

/-- A request to create an account. -/
def Cmd.creates : Cmd → Bool
  | .create _ _ _ _ => true
  | .telemt _ (.mutate .create _ _) => true
  | _ => false

/-- The journal turns around with this command. -/
def Cmd.turns : Cmd → Bool
  | .store (.markOperation .compensating) => true
  | _ => false

/-- Neither the database fails, nor does a manager with an answer that cannot be read. -/
def Fate.calm (fate : Fate) : Prop := fate.failure = none ∧ fate.preparation ≠ .unreadable

instance (fate : Fate) : Decidable fate.calm :=
  inferInstanceAs (Decidable (_ ∧ _))

/-- **Nothing stops a compensation.** -/
def Undisturbed (s : State) (e : Event) : Prop :=
  s.world.journal.status = .compensating → match e with
    | .crash => False
    | .go fate => fate.calm
    | _ => True

instance (s : State) (e : Event) : Decidable (Undisturbed s e) := by
  unfold Undisturbed
  cases e <;> infer_instance

/-- The commands meet their fates in turn. -/
def answering (fates : Nat → Fate) (s : World × Nat) (c : Cmd) : Reply c × World × Nat :=
  ((respond s.1 (fates s.2) c).1, (respond s.1 (fates s.2) c).2, s.2 + 1)

/-- A run that nobody interrupts. -/
def alone (site : Site) (fates : Nat → Fate) (w : World) :
    Except ClientsError Operation × World × Nat :=
  (run site).eval (answering fates) (w, 0)

/-! ## Ahead, turned and over -/

def OperationStatus.undone (status : OperationStatus) : Prop :=
  status = .compensated ∨ status = .manualInterventionRequired

/-- Every local grant has its adapter. -/
def Equipped (site : Site) (w : World) : Prop :=
  ∀ grant ∈ w.grants, grant.remote = true ∨ site.adapters grant.protocol = true

structure Ahead (site : Site) (w : World) : Prop where
  not_turned : w.turned = false
  not_compensating : w.journal.status ≠ .compensating
  equipped : Equipped site w

structure Turned (site : Site) (w : World) : Prop where
  turned : w.turned = true
  compensating : w.journal.status = .compensating
  equipped : Equipped site w

/-- Where a run may end. -/
structure Over (site : Site) (w : World) : Prop where
  undone : w.turned = true → w.journal.status.undone
  turned : w.journal.status = .compensating → w.turned = true
  equipped : Equipped site w

section Direction

variable {site : Site} {w w' : World} {txn : Transaction} {fate : Fate} {c : Cmd}

/-- What holds at every moment of a run. -/
structure Heading (site : Site) (w : World) : Prop where
  of_turned : w.turned = true → w.journal.status = .compensating ∨ w.journal.status.undone
  turned : w.journal.status = .compensating → w.turned = true
  equipped : Equipped site w

theorem Over.heading (h : Over site w) : Heading site w where
  of_turned := fun ht => .inr (h.undone ht)
  turned := h.turned
  equipped := h.equipped

theorem Turned.heading (h : Turned site w) : Heading site w where
  of_turned := fun _ => .inl h.compensating
  turned := fun _ => h.turned
  equipped := h.equipped

theorem Heading.over (h : Heading site w) (hc : w.journal.status ≠ .compensating) :
    Over site w where
  undone := fun ht => (h.of_turned ht).resolve_left hc
  turned := h.turned
  equipped := h.equipped

theorem Ahead.over (h : Ahead site w) : Over site w where
  undone := fun ht => absurd ht (by rw [h.not_turned]; decide)
  turned := fun hc => absurd hc h.not_compensating
  equipped := h.equipped

theorem Over.ahead (h : Over site w) (ht : w.turned = false) : Ahead site w where
  not_turned := ht
  not_compensating := fun hc => absurd (h.turned hc) (by rw [ht]; decide)
  equipped := h.equipped

/-- **What the nodes may do**: nothing to an operation that has turned. -/
structure Rely (w w' : World) : Prop where
  of_turned : w.turned = true → w' = w
  turned : w'.turned = w.turned
  grants : w'.grants = w.grants
  compensating : w'.journal.status = .compensating → w.journal.status = .compensating

theorem Rely.refl (w : World) : Rely w w := ⟨fun _ => rfl, rfl, rfl, fun h => h⟩

theorem Rely.trans {w₁ w₂ w₃ : World} (h : Rely w₁ w₂) (h' : Rely w₂ w₃) : Rely w₁ w₃ where
  of_turned := fun ht => (h'.of_turned (h.turned.trans ht)).trans (h.of_turned ht)
  turned := h'.turned.trans h.turned
  grants := h'.grants.trans h.grants
  compensating := fun hc => h.compensating (h'.compensating hc)

theorem Ahead.rely (h : Ahead site w) (hr : Rely w w') : Ahead site w' where
  not_turned := hr.turned.trans h.not_turned
  not_compensating := fun hc => h.not_compensating (hr.compensating hc)
  equipped := by
    unfold Equipped
    rw [hr.grants]
    exact h.equipped

theorem Over.rely (h : Over site w) (hr : Rely w w') : Over site w' := by
  by_cases ht : w.turned = true
  · rw [hr.of_turned ht]
    exact h
  · exact ((h.ahead (Bool.not_eq_true _ ▸ ht)).rely hr).over

/-! ## What the commands do to the direction -/

theorem perform_grants (h : txn.perform w fate = .ok w') (hw : Equipped site w) :
    Equipped site w' := by
  intro g hmem
  cases txn with
  | reconcileAccess =>
    cases h
    obtain ⟨row, hrow, rfl⟩ := List.mem_map.mp hmem
    exact hw row hrow
  | withdrawCompensated =>
    cases h
    exact hw g (List.mem_filter.mp hmem).1
  | purgeGrant id =>
    rw [Transaction.perform] at h
    split at h
    · cases h
      exact hw g (List.mem_filter.mp hmem).1
    · cases h
  | activate id =>
    rw [Transaction.perform] at h
    split at h
    · cases h
    · split at h
      · cases h
        exact hw g hmem
      · cases h
  | escrowManagerCredential id plaintext =>
    rw [Transaction.perform] at h
    split at h <;> cases h <;> exact hw g hmem
  | _ => cases h; exact hw g hmem

/-- A transaction other than those that mark the operation leaves the direction alone. -/
theorem perform_status (h : txn.perform w fate = .ok w') (hmark : ∀ st, txn ≠ .markOperation st) :
    w'.turned = w.turned ∧ w'.journal.status = w.journal.status := by
  cases txn with
  | markOperation st => exact absurd rfl (hmark st)
  | purgeGrant id =>
    rw [Transaction.perform] at h
    split at h
    · cases h
      exact ⟨rfl, rfl⟩
    · cases h
  | activate id =>
    rw [Transaction.perform] at h
    split at h
    · cases h
    · split at h
      · cases h
        exact ⟨rfl, rfl⟩
      · cases h
  | escrowManagerCredential id plaintext =>
    rw [Transaction.perform] at h
    split at h <;> cases h <;> exact ⟨rfl, rfl⟩
  | _ => cases h; exact ⟨rfl, rfl⟩

/-- A request to a manager leaves the panel's own tables alone. -/
theorem respond_managers (fate : Fate) (hc : ∀ txn, c ≠ .store txn) :
    (respond w fate c).2.turned = w.turned ∧ (respond w fate c).2.journal = w.journal
      ∧ (respond w fate c).2.grants = w.grants := by
  have hgd : ∀ {α : Type} (r : Except ClientsError α), (fate.guarding w (r, w)).2 = w := by
    intro α r
    unfold Fate.guarding
    split <;> rfl
  cases c with
  | store txn => exact absurd rfl (hc txn)
  | readOperation =>
    rw [respond, hgd]
    exact ⟨rfl, rfl, rfl⟩
  | readGrant g =>
    rw [respond]
    split <;> rw [hgd] <;> exact ⟨rfl, rfl, rfl⟩
  | isRemoteNode g =>
    rw [respond, hgd]
    exact ⟨rfl, rfl, rfl⟩
  | prepare p g => exact ⟨rfl, rfl, rfl⟩
  | create p g u again =>
    rw [respond, World.create]
    dsimp only
    split <;> exact ⟨rfl, rfl, rfl⟩
  | delete p g u =>
    rw [respond, World.delete]
    dsimp only
    split <;> exact ⟨rfl, rfl, rfl⟩
  | telemt g c =>
    cases c with
    | mutate mutation u sec =>
      cases mutation with
      | create => exact ⟨rfl, rfl, rfl⟩
      | rotate => exact ⟨rfl, rfl, rfl⟩
    | deleteUser u =>
      show (w.telemtDelete fate u).2.turned = w.turned
        ∧ (w.telemtDelete fate u).2.journal = w.journal
        ∧ (w.telemtDelete fate u).2.grants = w.grants
      rw [World.telemtDelete]
      dsimp only
      split <;> exact ⟨rfl, rfl, rfl⟩
    | currentAccess u => exact ⟨rfl, rfl, rfl⟩

/-- What a transaction leaves, however it ends. -/
theorem respond_store (fate : Fate) (txn : Transaction) : (respond w fate (.store txn)).2 = w
      ∨ txn.perform w fate = .ok (respond w fate (.store txn)).2 := by
  rw [respond, Fate.guarding]
  split
  · exact .inl rfl
  · cases hperf : txn.perform w fate with
    | ok w' => exact .inr rfl
    | error error => exact .inl rfl

theorem Ahead.respond (h : Ahead site w) (fate : Fate) (hc : c.turns = false) :
    Ahead site (respond w fate c).2 := by
  by_cases hsto : ∃ txn, c = .store txn
  · obtain ⟨txn, rfl⟩ := hsto
    rcases respond_store (w := w) fate txn with hsm | hperf
    · rw [hsm]
      exact h
    · refine ⟨?_, ?_, perform_grants hperf h.equipped⟩
      all_goals
        by_cases hmark : ∃ st, txn = .markOperation st
        · obtain ⟨st, rfl⟩ := hmark
          have hne : st ≠ .compensating := by
            rintro rfl
            cases hc
          injection hperf with hw'
          rw [← hw']
          first
            | exact hne
            | exact Bool.or_eq_false_iff.mpr ⟨h.not_turned, decide_eq_false hne⟩
        · have hkept := perform_status hperf fun st heq => hmark ⟨st, heq⟩
          first
            | exact hkept.1.trans h.not_turned
            | exact fun hcomp => h.not_compensating (hkept.2.symm.trans hcomp)
  · obtain ⟨hturn, hjrn, hgrs⟩ :=
      respond_managers (w := w) fate fun txn heq => hsto ⟨txn, heq⟩
    refine ⟨hturn.trans h.not_turned, ?_, ?_⟩
    · rw [hjrn]
      exact h.not_compensating
    · unfold Equipped
      rw [hgrs]
      exact h.equipped

/-! ## The commands of a step -/

/-- No command of the program turns the operation around. -/
abbrev Onward {ε α : Type} (p : Prog Cmd Reply ε α) : Prop := p.All fun c => c.turns = false

section Onward

open Reconciler (Protocol)

theorem onward_store (h : (Cmd.store txn).turns = false) : Onward (store txn) :=
  ⟨h, fun _ => Prog.All.orFail _⟩

theorem onward_readGrant (g : Nat) : Onward (readGrant g) :=
  ⟨rfl, fun _ => Prog.All.orFail _⟩

theorem onward_readOperation : Onward readOperation :=
  ⟨rfl, fun _ => Prog.All.orFail _⟩

theorem onward_requireAdapter (p : Protocol) : Onward (requireAdapter site p) := by
  unfold requireAdapter
  split <;> trivial

theorem onward_prepareIf (needed : Bool) (p : Protocol) (g : Nat) :
    Onward (prepareIf needed p g) := by
  unfold prepareIf
  split
  · exact ⟨rfl, fun _ => Prog.All.orFail _⟩
  · trivial

theorem onward_readAnswer (p : Protocol) (readable : Bool) : Onward (readAnswer p readable) := by
  unfold readAnswer
  split <;> trivial

theorem onward_createAgain (p : Protocol) (g : Grant) : Onward (createAgain p g) := by
  refine (onward_prepareIf _ p g.id).bind fun _ => ⟨rfl, fun rep => ?_⟩
  cases rep with
  | ok readable => exact onward_readAnswer p readable
  | error error => trivial

theorem onward_managerCreate (p : Protocol) (g : Grant) : Onward (managerCreate p g) := by
  refine (onward_prepareIf _ p g.id).bind fun _ => ⟨rfl, fun rep => ?_⟩
  cases rep with
  | ok readable => exact onward_readAnswer p readable
  | error error =>
    show Onward (if sendsAgain p error then createAgain p g else _)
    split
    · exact onward_createAgain p g
    · trivial

theorem onward_throughTelemt {α : Type} (g : Nat) (op : Telemt.Op Telemt.AdapterError α) :
    Onward (throughTelemt g op) := by
  refine Prog.All.mapError (Prog.All.through (fun c => ?_) op)
  exact ⟨rfl, fun _ => trivial⟩

theorem onward_createAccount (g : Grant) : Onward (createAccount site g) := by
  unfold createAccount
  split
  · exact (onward_throughTelemt g.id _).bind fun _ => trivial
  · exact onward_managerCreate _ g

theorem onward_applyStep (g : Grant) : Onward (applyStep site g) := by
  have hcred : Onward (credential g) := by
    unfold credential
    split
    · trivial
    · exact onward_store rfl
  have hesc : ∀ credential, Onward (escrow g.id credential) := by
    intro credential
    cases credential with
    | none => trivial
    | some credential => exact onward_store rfl
  exact hcred.bind fun _ => (onward_createAccount g).bind fun credential =>
    (hesc credential).bind fun _ => (onward_store rfl).bind fun _ => onward_store rfl

theorem onward_confirmStep (g : Grant) : Onward (confirmStep g) := by
  refine (onward_store rfl).bind fun _ => (onward_readGrant g.id).bind fun row => ?_
  split
  · trivial
  · exact (onward_store rfl).bind fun _ => onward_store rfl

theorem onward_advance (step : Step) : Onward (advance site step) := by
  refine (onward_readGrant step.grant).mapError.bind fun g =>
    (onward_requireAdapter g.protocol).mapError.bind fun _ => ?_
  have hesc : Onward ((markStep g.id .escrowed none).mapError (StepStatus.applied, ·)) :=
    (onward_store rfl).mapError
  have hconf : Onward ((confirmStep g).mapError (StepStatus.escrowed, ·)) :=
    (onward_confirmStep g).mapError
  split
  · exact (onward_applyStep g).mapError.bind fun _ => hesc.bind fun _ => hconf
  · exact hesc.bind fun _ => hconf
  · exact hconf
  · trivial

end Onward

/-! ## The discipline of a run -/

/-- A turned operation asks for no account. -/
def direction (site : Site) : Prog.Discipline Cmd Reply World where
  guard w c := Heading site w ∧ (w.turned = true → c.creates = false)
  next w c r w' := ∃ fate : Fate, (w.journal.status = .compensating → fate.calm)
    ∧ respond w fate c = (r, w')

/-- A run next to the nodes. -/
abbrev Directed (site : Site) {ε α : Type} (Q : α → World → Prop) (E : ε → World → Prop)
    (p : Prog Cmd Reply ε α) (w : World) : Prop :=
  Prog.Safe ((direction site).under Rely) Q E p w

variable {ε α : Type} {Q : α → World → Prop} {E : ε → World → Prop}

/-- **Ahead all the way.** -/
theorem directed_onward {p : Prog Cmd Reply ε α} (hp : Onward p) (hw : Ahead site w) :
    Directed site (fun _ => Ahead site) (fun _ => Ahead site) p w := by
  refine Safe.of_all (hp.mono fun c hc t ht => ⟨fun u hu => ?_, ?_⟩) hw
  · refine ⟨(ht.rely hu).over.heading, fun hturn => ?_⟩
    rw [(ht.rely hu).not_turned] at hturn
    cases hturn
  · rintro r t' ⟨u, hu, fate, -, hresp⟩
    have haft := (ht.rely hu).respond fate hc
    rwa [hresp] at haft

/-- A command of a turned operation: nobody else moves, and nothing fails. -/
theorem directed_turned {k : Reply c → Prog Cmd Reply ε α} (hw : Turned site w)
    (hc : c.creates = false)
    (h : ∀ fate : Fate, fate.calm → Directed site Q E (k (respond w fate c).1) (respond w fate c).2)
    : Directed site Q E (.call c k) w := by
  refine ⟨fun t ht => ?_, ?_⟩
  · obtain rfl := ht.of_turned hw.turned
    exact ⟨hw.heading, fun _ => hc⟩
  · rintro r w' ⟨t, ht, fate, hcalm, hresp⟩
    obtain rfl := ht.of_turned hw.turned
    have haft := h fate (hcalm hw.compensating)
    rwa [hresp] at haft

/-! ## Compensating -/

section Calm

variable {fate : Fate}

theorem respond_store_of_calm (hfate : fate.calm) (h : txn.perform w fate = .ok w') :
    respond w fate (.store txn) = (.ok (), w') := by
  rw [respond, Fate.guarding, hfate.1, h]
  rfl

theorem respond_readOperation_of_calm (hfate : fate.calm) :
    respond w fate .readOperation = (.ok w.journal, w) := by
  rw [respond, Fate.guarding, hfate.1]
  rfl

theorem respond_readGrant_of_calm (hfate : fate.calm) (g : Nat) :
    respond w fate (.readGrant g) = (.error (.notFound g), w)
      ∨ ∃ row ∈ w.grants, row.id = g ∧ respond w fate (.readGrant g) = (.ok row, w) := by
  rw [respond, Fate.guarding, hfate.1]
  cases hf : w.grants.find? fun row => row.id = g with
  | none => exact .inl rfl
  | some row =>
    have hid := List.find?_some hf
    exact .inr ⟨row, List.mem_of_find?_eq_some hf, of_decide_eq_true hid, rfl⟩

theorem respond_isRemoteNode_of_calm (hfate : fate.calm) (g : Grant) :
    respond w fate (.isRemoteNode g) = (.ok g.remote, w) := by
  rw [respond, Fate.guarding, hfate.1]
  rfl

end Calm

theorem Turned.perform (h : Turned site w) (hperf : txn.perform w fate = .ok w')
    (hmark : ∀ st, txn ≠ .markOperation st) : Turned site w' := by
  obtain ⟨hturn, hstat⟩ := perform_status hperf hmark
  exact ⟨hturn.trans h.turned, hstat.trans h.compensating, perform_grants hperf h.equipped⟩

/-- A transaction that cannot be refused. -/
theorem directed_store {Q : Unit → World → Prop} {E : ClientsError → World → Prop}
    (hw : Turned site w) (h : ∀ fate, ∃ w', txn.perform w fate = .ok w' ∧ Q () w') :
    Directed site Q E (store txn) w := by
  refine directed_turned hw rfl fun fate hcalm => ?_
  obtain ⟨w', hperf, hQ⟩ := h fate
  rw [respond_store_of_calm hcalm hperf]
  exact hQ

theorem directed_markStep {Q : Unit → World → Prop} {E : ClientsError → World → Prop} {g : Nat}
    {st : StepStatus} {e : Option String} (hw : Turned site w)
    (h : ∀ w', Turned site w' → w'.grants = w.grants → Q () w') :
    Directed site Q E (markStep g st e) w := by
  refine directed_store hw fun fate => ⟨_, rfl, h _ ?_ rfl⟩
  exact ⟨hw.turned, hw.compensating, hw.equipped⟩

/-- Where the account of a step is to be deleted. -/
structure Holding (site : Site) (rows : List Grant) (w : World) : Prop extends Turned site w where
  grants : w.grants = rows

/-- An error of an adapter after which a person has to look. -/
def Plain (error : ClientsError) : Prop :=
  ∃ protocol adapterError, error = .adapter protocol adapterError ∧ escapes adapterError = false

section Deleting

variable {rows : List Grant}

theorem Holding.respond (h : Holding site rows w) (fate : Fate)
    (hc : ∀ txn, c ≠ .store txn) : Holding site rows (respond w fate c).2 := by
  obtain ⟨hturn, hjrn, hgrs⟩ := respond_managers (w := w) fate hc
  refine { turned := hturn.trans h.turned, compensating := ?_, equipped := ?_, grants := ?_ }
  · rw [hjrn, h.compensating]
  · unfold Equipped
    rw [hgrs]
    exact h.equipped
  · rw [hgrs, h.grants]

theorem directed_prepareIf (hw : Holding site rows w) (needed : Bool)
    (p : Reconciler.Protocol) (g : Nat) :
    Directed site (fun _ => Holding site rows) (fun e w => Plain e ∧ Holding site rows w)
      (prepareIf needed p g) w := by
  unfold prepareIf
  split
  · refine directed_turned hw.toTurned rfl fun fate hcalm => ?_
    show Directed site _ _ (Prog.orFail ((preparation p fate.preparation).mapError _)) w
    cases hprep : fate.preparation with
    | ready => exact hw
    | unavailable | unusable => exact ⟨⟨p, _, rfl, rfl⟩, hw⟩
    | unreadable => exact absurd hprep hcalm.2
  · exact hw

theorem directed_managerDelete (hw : Holding site rows w) (p : Reconciler.Protocol) (g : Grant) :
    Directed site (fun _ => Holding site rows) (fun e w => Plain e ∧ Holding site rows w)
      (managerDelete p g) w := by
  refine (directed_prepareIf hw _ p g.id).seq fun _ w hw => ?_
  refine directed_turned hw.toTurned rfl fun fate _ => ?_
  have haft := hw.respond fate (c := .delete p g.id g.runtimeUsername) fun _ => nofun
  cases (Saga.respond w fate (.delete p g.id g.runtimeUsername)).1 with
  | ok _ => exact haft
  | error error => exact ⟨⟨p, _, rfl, rfl⟩, haft⟩

theorem directed_deleteAccount (hw : Holding site rows w) (g : Grant) :
    Directed site (fun _ => Holding site rows) (fun e w => Plain e ∧ Holding site rows w)
      (deleteAccount g) w := by
  unfold deleteAccount
  split
  · refine directed_turned hw.toTurned (c := .telemt g.id (.deleteUser g.runtimeUsername))
      rfl fun fate _ => ?_
    have haft := hw.respond fate (c := .telemt g.id (.deleteUser g.runtimeUsername)) fun _ => nofun
    cases (Saga.respond w fate (.telemt g.id (.deleteUser g.runtimeUsername))).1 with
    | ok _ => exact haft
    | error error =>
      refine ⟨⟨.mtproxy, _, rfl, ?_⟩, haft⟩
      split <;> rfl
  · exact directed_managerDelete hw _ g

end Deleting

/-- What a step of a compensation leaves. -/
def Compensating (site : Site) (outcome : OperationStatus) (w : World) : Prop :=
  Turned site w ∧ outcome.undone

section Steps

variable {outcome : OperationStatus} {E : ClientsError → World → Prop}

theorem directed_markCompensated (hw : Turned site w) (ho : outcome.undone) (g : Nat) :
    Directed site (Compensating site) E (markCompensated outcome g) w :=
  Safe.bind (directed_markStep hw fun _ hw' _ => ⟨hw', ho⟩)

theorem directed_removeStep (hw : Turned site w) (ho : outcome.undone) {g : Grant}
    (hmem : g ∈ w.grants) (hloc : g.remote = false) :
    Directed site (Compensating site) E (removeStep site outcome g) w := by
  have hadap : requireAdapter site g.protocol = .ret () := by
    rcases hw.equipped g hmem with hrem | hadap
    · rw [hloc] at hrem
      cases hrem
    · unfold requireAdapter
      rw [if_pos hadap]
      rfl
  unfold removeStep
  rw [hadap]
  show Directed site (Compensating site) E ((deleteAccount g).attempt.bind _) w
  refine Safe.bind (Safe.attempt ((directed_deleteAccount ⟨hw, rfl⟩ g).mono
    (fun _ w' hw' => ?_) fun e w' he => ?_))
  · refine Safe.bind (directed_markStep hw'.toTurned fun w₁ hw₁ hgrs => ?_)
    refine Safe.bind (directed_store hw₁ fun fate => ?_)
    have hrow : w₁.grants.any (fun row => row.id = g.id) = true := by
      rw [hgrs, hw'.grants]
      exact List.any_eq_true.mpr ⟨g, hmem, decide_eq_true rfl⟩
    have hperf : (Transaction.purgeGrant g.id).perform w₁ fate
        = .ok (Transaction.perform.purge w₁ [g.id]) := by
      rw [Transaction.perform, if_pos hrow]
    exact ⟨_, hperf, hw₁.perform hperf fun _ => nofun, ho⟩
  · obtain ⟨⟨p, error, rfl, hesc⟩, hw'⟩ := he
    show Directed site _ _ (if escapes error then _ else _) w'
    rw [hesc]
    exact Safe.bind (directed_markStep hw'.toTurned fun w₁ hw₁ _ => ⟨hw₁, .inr rfl⟩)

theorem directed_compensateStep (hw : Turned site w) (ho : outcome.undone) (step : Step) :
    Directed site (Compensating site) E (compensateStep site outcome step) w := by
  unfold compensateStep
  split
  · exact directed_markCompensated hw ho step.grant
  · refine directed_turned hw (c := .readGrant step.grant) rfl fun fate hcalm => ?_
    rcases respond_readGrant_of_calm (w := w) hcalm step.grant with hmiss | ⟨row, hmem, -, hfnd⟩
    · rw [hmiss]
      exact directed_markCompensated hw ho step.grant
    · rw [hfnd]
      refine directed_turned hw (c := .isRemoteNode row) rfl fun fate hcalm => ?_
      rw [respond_isRemoteNode_of_calm hcalm]
      show Directed site _ _ (if row.remote = true then _ else _) w
      split
      · exact directed_markCompensated hw ho row.id
      next hloc => exact directed_removeStep hw ho hmem (Bool.not_eq_true _ ▸ hloc)

end Steps

/-- The journal turns around. -/
theorem directed_turn (hw : Ahead site w) :
    Directed site (fun _ => Turned site) (fun _ => Over site) (markOperation .compensating) w := by
  refine ⟨fun t ht => ⟨(hw.rely ht).over.heading, fun _ => rfl⟩, ?_⟩
  · rintro r w' ⟨t, ht, fate, -, hresp⟩
    have hahead := hw.rely ht
    rw [respond, Fate.guarding] at hresp
    split at hresp <;> cases hresp
    · exact hahead.over
    · exact ⟨Bool.or_true _, rfl, hahead.equipped⟩

theorem directed_readOperation (hw : Over site w) :
    Directed site (fun _ => Over site) (fun _ => Over site) readOperation w := by
  refine ⟨fun t ht => ⟨(hw.rely ht).heading, fun _ => rfl⟩, ?_⟩
  rintro r w' ⟨t, ht, fate, -, hresp⟩
  rw [respond, Fate.guarding] at hresp
  split at hresp <;> cases hresp <;> exact hw.rely ht

theorem directed_compensate (hw : Ahead site w) (reason : String) :
    Directed site (fun _ => Over site) (fun _ => Over site) (compensate site reason) w := by
  refine (directed_turn hw).seq fun _ w hw => ?_
  refine directed_turned hw (c := .readOperation) rfl fun fate hcalm => ?_
  rw [respond_readOperation_of_calm hcalm]
  show Directed site _ _ ((w.journal.steps.foldlM (compensateStep site) .compensated).bind _) w
  refine Safe.bind (Safe.foldlM (I := fun _ => Compensating site)
    (fun step _ outcome t ht => directed_compensateStep ht.1 ht.2 step)
    (fun outcome t ht => ?_) ⟨hw, .inl rfl⟩)
  obtain ⟨hturn, ho⟩ := ht
  refine Safe.bind (directed_store hturn fun fate => ⟨_, rfl, ?_⟩)
  have hwith := hturn.perform (rfl : Transaction.perform t fate .withdrawCompensated = _)
    fun _ => nofun
  refine Safe.bind (directed_store hwith fun fate => ⟨_, rfl, ?_⟩)
  refine Safe.bind (directed_store hwith fun fate => ⟨_, rfl, ?_⟩)
  refine directed_readOperation ⟨fun _ => ho, fun hc => ?_, hwith.equipped⟩
  rcases ho with rfl | rfl <;> cases hc

/-! ## Running -/

theorem directed_stepFailed (hw : Ahead site w) (step : Step) (e : StepStatus × ClientsError) :
    Directed site (fun _ => Over site) (fun _ => Over site) (stepFailed site step e) w := by
  obtain ⟨st, e⟩ := e
  cases e with
  | adapter p e =>
    show Directed site _ _ (if e.manualIntervention then _ else _) w
    split
    · have honward : Onward (do
          markStep step.grant .manual (some e.message)
          markOperation .manualInterventionRequired
          readOperation) :=
        (onward_store rfl).bind fun _ => (onward_store rfl).bind fun _ => onward_readOperation
      exact (directed_onward honward hw).mono (fun _ _ h => h.over) fun _ _ h => h.over
    · split
      · exact hw.over
      · refine Safe.bind ((directed_onward (onward_store rfl) hw).mono (fun _ w hw => ?_)
          fun _ _ h => h.over)
        exact directed_compensate hw e.message
  | notFound g => exact hw.over
  | conflict msg => exact hw.over
  | database msg => exact hw.over

theorem directed_forward (hw : Ahead site w) (steps : List Step) :
    Directed site (fun r w => if r.isSome then Over site w else Ahead site w)
      (fun _ => Over site) (forward site steps) w := by
  induction steps generalizing w with
  | nil => exact hw
  | cons step steps ih =>
    unfold forward
    split
    · exact ih hw
    · refine Safe.bind (Safe.attempt ((directed_onward (onward_advance step) hw).mono
        (fun _ w hw => ih hw) fun e w hw => ?_))
      exact (directed_stepFailed hw step e).seq fun _ _ h => h

theorem directed_finish {r : Option Operation}
    (hw : if r.isSome then Over site w else Ahead site w) :
    Directed site (fun _ => Over site) (fun _ => Over site) (finish r) w := by
  cases r with
  | some op => exact hw
  | none =>
    have honward : Onward (finish none) := by
      refine onward_readOperation.bind fun op => (onward_store ?_).bind fun _ =>
        onward_readOperation
      split <;> rfl
    exact (directed_onward honward hw).mono (fun _ _ h => h.over) fun _ _ h => h.over

/-- **A run keeps the direction**, from wherever one may end. -/
theorem directed_run (hw : Over site w) :
    Directed site (fun _ => Over site) (fun _ => Over site) (run site) w := by
  by_cases hturn : w.turned = true
  · -- The operation is over: it is read, and no more.
    have hund := hw.undone hturn
    refine ⟨fun t ht => ⟨(hw.rely ht).heading, fun _ => rfl⟩, ?_⟩
    rintro r w' ⟨t, ht, fate, -, hresp⟩
    rw [ht.of_turned hturn, respond, Fate.guarding] at hresp
    split at hresp <;> cases hresp
    · exact hw
    · have hterm : w.journal.status.terminal = true := by
        rcases hund with h | h <;> rw [h] <;> rfl
      show Directed site _ _ (if w.journal.status.terminal then _ else _) w
      rw [if_pos hterm]
      exact directed_readOperation hw
  · have hahead := hw.ahead (Bool.not_eq_true _ ▸ hturn)
    refine Safe.bind ((directed_onward onward_readOperation hahead).mono
      (fun op w hw => ?_) fun _ _ h => h.over)
    split
    · exact directed_readOperation hw.over
    · have htake : Onward (takeUp op) := by
        unfold takeUp
        split
        · exact onward_store rfl
        · trivial
      refine Safe.bind ((directed_onward htake hw).mono (fun _ w hw => ?_) fun _ _ h => h.over)
      exact (directed_forward hw op.steps).seq fun res w hw => directed_finish hw

/-! ## Every run -/

/-- What holds of every state. -/
def Invariant (site : Site) (s : State) : Prop :=
  match s.running with
  | none => Over site s.world
  | some (.call c k) => Directed site (fun _ => Over site) (fun _ => Over site) (.call c k) s.world
  | some _ => False

theorem Invariant.of_directed {p : Op Operation}
    (h : Directed site (fun _ => Over site) (fun _ => Over site) p w) :
    Invariant site ⟨w, unfinished p⟩ := by
  cases p with
  | ret a => exact h
  | fail e => exact h
  | call c k => exact h

theorem Invariant.heading {s : State} (h : Invariant site s) : Heading site s.world := by
  obtain ⟨w, running⟩ := s
  cases running with
  | none => exact Over.heading h
  | some p =>
    cases p with
    | call c k => exact (h.1 w (Rely.refl w)).1
    | ret a => exact h.elim
    | fail e => exact h.elim

/-- A report changes an operation that waits, and so one that has not turned. -/
theorem rely_rewrite (h : Heading site w) (steps : List Step) :
    Rely w (if w.journal.status.waiting then w.rewrite steps else w) := by
  split
  next hwait =>
    have hturn : w.turned = false := by
      refine Bool.eq_false_iff.mpr fun ht => ?_
      rcases h.of_turned ht with hs | hs | hs <;> rw [hs] at hwait <;> cases hwait
    have hsett : settled w.journal.status steps = .compensating →
        w.journal.status = .compensating := by
      unfold settled
      split
      · exact fun hs => hs
      · split <;> exact nofun
    unfold World.rewrite
    split
    · exact Rely.refl w
    · refine ⟨fun ht => ?_, rfl, rfl, hsett⟩
      rw [hturn] at ht
      cases ht
  · exact Rely.refl w

theorem Invariant.rely {running : Option (Op Operation)} (h : Invariant site ⟨w, running⟩)
    (hr : Rely w w') : Invariant site ⟨w', running⟩ := by
  cases running with
  | none => exact Over.rely h hr
  | some p =>
    cases p with
    | call c k =>
      have htrans : ∀ u v x, Rely u v → Rely v x → Rely u x := fun _ _ _ => Rely.trans
      exact Safe.of_rely htrans hr h
    | ret a => exact h
    | fail e => exact h

theorem invariant_step {s s' : State} {e : Event} (h : Invariant site s) (hok : Undisturbed s e)
    (hs : step site s e = some s') : Invariant site s' := by
  obtain ⟨w, running⟩ := s
  cases e with
  | run =>
    cases running with
    | some p => cases hs
    | none =>
      cases hs
      have hover : Over site { w with lost := [] } := { h with }
      exact Invariant.of_directed (directed_run hover)
  | go fate =>
    cases running with
    | none => cases hs
    | some p =>
      cases p with
      | ret a => cases hs
      | fail e => cases hs
      | call c k =>
        cases hs
        exact Invariant.of_directed (h.2 _ _ ⟨w, Rely.refl w, fate, hok, rfl⟩)
  | crash =>
    cases running with
    | none => cases hs
    | some p =>
      cases hs
      exact h.heading.over hok
  | remoteApplied reported withheld withheldError | withdrawRemote g reason =>
    cases hs
    exact h.rely (rely_rewrite h.heading _)

theorem over_reserve {accs : List Account} {intents : List Intent}
    (h : reserve site accs intents = .ok w) : Over site w := by
  unfold reserve at h
  split at h
  · cases h
  · split at h
    · cases h
    next href =>
      cases h
      refine ⟨nofun, fun hc => ?_, fun g hmem => ?_⟩
      · split at hc <;> cases hc
      · obtain ⟨i, hi, rfl⟩ := List.mem_mapIdx.mp hmem
        exact equipped_of_refusal href _ (List.getElem_mem hi)

/-- A run of an operation that is over ends with it. -/
theorem alone_of_undone {fts : Nat → Fate} (hfates : ∀ n, (fts n).failure = none)
    (h : w.journal.status.undone) : (alone site fts w).1 = .ok w.journal := by
  have hrd : ∀ n, Prog.eval (answering fts) readOperation (w, n) = (.ok w.journal, w, n + 1) := by
    intro n
    show Prog.eval (answering fts) (Prog.orFail (respond w (fts n) .readOperation).1)
      ((respond w (fts n) .readOperation).2, n + 1) = _
    rw [respond, Fate.guarding, hfates n]
    rfl
  have hterm : w.journal.status.terminal = true := by
    rcases h with h | h <;> rw [h] <;> rfl
  unfold alone run
  rw [Prog.bind_eq, Prog.eval_bind, hrd]
  dsimp only
  rw [if_pos hterm, hrd]

/-- **The direction is kept** in every run in which nothing stops a compensation. Once the
journal has reached `compensating`, no account is asked for and the operation does not
succeed. When the run in progress has ended, every run that meets no failure ends with the
operation `compensated` or with a person. -/
theorem direction_kept (site : Site) (accounts : List Account) (intents : List Intent) (w : World)
    (events : List Event) (s : State) (hstart : reserve site accounts intents = .ok w)
    (hrun : Run.exec (step site) ⟨w, none⟩ events = some s)
    (hok : Run.Meets (step site) Undisturbed ⟨w, none⟩ events) (hturned : s.world.turned = true) :
    (∀ p c, s.running = some p → p.head = some c → c.creates = false)
    ∧ s.world.journal.status ≠ .succeeded
    ∧ (s.running = none → ∀ fates : Nat → Fate, (∀ n, (fates n).failure = none) →
      ∃ operation, (alone site fates s.world).1 = .ok operation
        ∧ (operation.status = .compensated ∨ operation.status = .manualInterventionRequired)) := by
  have hinv : Invariant site s :=
    Run.invariant_of_meets (fun _ _ _ => invariant_step) hrun hok (over_reserve hstart)
  refine ⟨fun p c hp hc => ?_, fun hs => ?_, fun hidle fates hfates => ?_⟩
  · obtain ⟨w', running⟩ := s
    cases hp
    cases p with
    | call c' k =>
      cases hc
      exact (hinv.1 w' (Rely.refl w')).2 hturned
    | ret a => cases hc
    | fail e => cases hc
  · rcases hinv.heading.of_turned hturned with h | h | h <;> rw [hs] at h <;> cases h
  · obtain ⟨w', running⟩ := s
    cases hidle
    have hundone : w'.journal.status.undone := Over.undone hinv hturned
    exact ⟨w'.journal, alone_of_undone hfates hundone, hundone⟩

end Direction

namespace Sample

/-- The manager refuses. -/
def refusing : Fate := { smooth with lands := false, error := some ⟨500, none⟩ }

/-- NaiveProxy refuses the account twice, and the journal reaches `compensating`. -/
def turning : List Event :=
  .run :: List.replicate 4 (.go smooth) ++ List.replicate 2 (.go refusing)
    ++ List.replicate 2 (.go smooth)

/-- The process stops there, and the operation is resumed. -/
def stopped : List Event := turning ++ [.crash, .run] ++ List.replicate 4 (.go smooth)

/-- The resumed run goes on to its end. -/
def resumed : List Event := stopped ++ List.replicate 11 (.go smooth)

/-- **A compensation that is resumed goes forward again**: the operation has turned, the
resumed run asks for the account that was refused, and the operation succeeds. -/
theorem forward_again_after_crash :
    ∃ w, reserve site [] naiveIntents = .ok w
      ∧ (∃ s p c, Run.exec (step site) ⟨w, none⟩ stopped = some s ∧ s.world.turned = true
        ∧ s.running = some p ∧ p.head = some c ∧ c.creates = true)
      ∧ ∃ s, Run.exec (step site) ⟨w, none⟩ resumed = some s ∧ s.world.turned = true
        ∧ s.world.journal.status = .succeeded := by
  refine ⟨naiveReserved [], rfl, ?_, by decide +kernel⟩
  obtain ⟨s, hs, hturned, hhead⟩ : ∃ s,
      Run.exec (step site) ⟨naiveReserved [], none⟩ stopped = some s
      ∧ s.world.turned = true ∧ (s.running.bind Prog.head).map Cmd.creates = some true := by
    decide +kernel
  obtain ⟨c, hc, hcreates⟩ := Option.map_eq_some_iff.mp hhead
  obtain ⟨p, hp, hhead⟩ := Option.bind_eq_some_iff.mp hc
  exact ⟨s, p, c, hs, hturned, hp, hhead, hcreates⟩

/-- A compensation that nothing stops ends as it should. -/
theorem direction_kept_undisturbed :
    ∃ s, Run.exec (step site) ⟨naiveReserved [], none⟩
        (turning ++ List.replicate 6 (.go smooth)) = some s
      ∧ s.world.turned = true ∧ s.world.journal.status ≠ .succeeded := by
  exact Run.end_and (by decide +kernel) fun s hs hturned =>
    (direction_kept site [] naiveIntents (naiveReserved []) _ s rfl hs (by decide +kernel) hturned).2.1

end Sample

end Saga
