import ProxyControl.SagaAccounts

/-!
# What a compensation leaves behind

An operation that ends `compensated` should leave nothing: no account that one of its
requests made, and no version of a credential that is not revoked. Nor should it take
away what was there before. Which accounts to delete the compensation reads off the
journal, and the journal is written after the manager has answered. In between a step is
*loose*: its account exists and the journal says `pending`.

Four managers remember a request to create, so a run that resumes such a step gets the
same answer again and goes on. Telemt refuses the second request with a conflict. The
run takes that for a refusal and compensates, and a step that is pending counts as one
for which nothing was created: the account stays (`account_left_at_telemt`). The same
happens where a manager that remembers fails on the second request, and to a step that
waits for a person when the operation is resumed before it is marked so. What was there
before is lost where Telemt's conflict is lost on its way: the adapter reads the account
back and takes it for its own.

`Unclouded` excludes these, and `nothing_left` is what remains true. A run goes on over
steps that are passed (`Going`), and undoes them one after the other (`Undoing`); it may
fail, or the process stop, where the world is `Stoppable`.
-/

namespace Saga

open List
open Table
open Prog (Safe)
open Reconciler (Protocol)

/-- **What may happen in a state.** -/
def Unclouded (s : State) : Event → Prop
  | .crash => s.world.Stoppable
  | .go fate =>
    match s.running.bind Prog.head with
    | some c => fate.clear s.world c
    | none => True
  | _ => True

instance (s : State) : (e : Event) → Decidable (Unclouded s e)
  | .crash => inferInstanceAs (Decidable s.world.Stoppable)
  | .go fate =>
    match h : s.running.bind Prog.head with
    | some c => decidable_of_iff (fate.clear s.world c) (by unfold Unclouded; rw [h])
    | none => decidable_of_iff True (by unfold Unclouded; rw [h])
  | .run => inferInstanceAs (Decidable True)
  | .remoteApplied _ _ _ => inferInstanceAs (Decidable True)
  | .withdrawRemote _ _ => inferInstanceAs (Decidable True)

section Cleanup

variable {site : Site} {name : Nat → Account} {old : List Account} {w w' : World}
  {done : List Step} {step : Step} {rest : List Step} {Q : Unit → World → Prop} {grant : Grant}
  {status : StepStatus} {txn : Transaction} {msg : String} {intents : List Intent}

/-! ## Advancing a step -/

section

variable (h : Facing site name old done step rest w)

include h

theorem Facing.failed_database (msg : String)
    (hs : w.Stoppable) : FailedFacing site name old done step rest (.database msg) w :=
  ⟨h, fun hpend => (hs step h.mem).1 hpend⟩

/-- The rows are marked with what the runtimes show. -/
theorem Facing.reconcile (unconfirmed : List Nat) : Facing site name old done step rest { w with
        grants := w.grants.map fun g =>
          { g with observedPending := decide (g.id ∈ unconfirmed) } } where
  base := h.base.reconcile unconfirmed
  steps := h.steps
  passed := h.passed
  no_manual := h.no_manual
  tight := h.tight
  row := by
    obtain ⟨row, hmem, hid⟩ := h.row
    exact ⟨_, mem_map_of_mem hmem, hid⟩
  going := h.going

theorem Facing.putSecret (state : Keyrings.SecretState) : Facing site name old done step rest
      { w with secrets := Table.put w.secrets (step.grant, 1) state } :=
  h.of_base (h.base.putSecret h.row) rfl rfl fun _ _ hmade => hmade

theorem careful_step (hok : ∀ fate, ∃ w', txn.perform w fate = .ok w' ∧ Q () w') :
    Careful site name old Q (FailedFacing site name old done step rest) (store txn) w :=
  careful_perform h.base hok h.failed_database

theorem careful_applyStep (hpend : step.status = .pending) (hid : grant.id = step.grant)
    (hacct : grant.account = name step.grant)
    (hnot : step.protocol = .mtproxy → w.made step.grant = false) :
    Careful site name old
      (fun _ => Facing site name old done { step with status := .applied, error := none } rest)
      (FailedFacing site name old done step rest) (applyStep site grant) w := by
  have hcred : Careful site name old (fun _ w' => w' = w)
      (FailedFacing site name old done step rest) (credential grant) w := by
    unfold credential
    split
    · rfl
    · exact careful_step h fun _ => ⟨w, rfl, rfl⟩
  refine hcred.seq fun _ w' hw' => ?_
  subst hw'
  refine (careful_createAccount h hpend hid hacct hnot).seq fun credential w hw => ?_
  obtain ⟨h, hfree⟩ := hw
  have hesc : Careful site name old (fun _ => Facing site name old done step rest)
      (FailedFacing site name old done step rest) (escrow grant.id credential) w := by
    cases credential with
    | none => exact h
    | some plaintext =>
      refine careful_step h fun fate => ⟨_, rfl, ?_⟩
      split
      · exact h
      · rw [hid]
        exact h.putSecret .pending
  refine hesc.seq fun _ w h => ?_
  refine Safe.bind (careful_step h fun _ => ⟨w, rfl, ?_⟩)
  refine careful_step h fun _ => ⟨_, rfl, ?_⟩
  rw [hid]
  exact h.mark (by rintro ⟨⟩) (fun _ => hfree) (by decide)

/-- A step that is not pending may fail as it likes. -/
theorem Facing.failed_created (hcre : step.status.created = true) (e : ClientsError) :
    FailedFacing site name old done step rest e w := by
  refine ⟨h, fun hpend => ?_⟩
  rw [hpend] at hcre
  cases hcre

theorem careful_markEscrowed (happ : step.status = .applied) (hid : grant.id = step.grant) :
    Careful site name old
      (fun _ => Facing site name old done { step with status := .escrowed, error := none } rest)
      (FailedFacing site name old done step rest) (markStep grant.id .escrowed none) w := by
  have hfree := h.base.free step h.mem (by rw [happ]; rfl)
  refine careful_step h fun _ => ⟨_, rfl, ?_⟩
  rw [hid]
  exact h.mark (by rintro ⟨⟩) (fun _ => hfree) (by decide)

theorem careful_confirmStep (hesc : step.status = .escrowed) (hid : grant.id = step.grant) :
    Careful site name old
      (fun _ => Facing site name old done { step with status := .active, error := none } rest)
      (FailedFacing site name old done step rest) (confirmStep grant) w := by
  have hcre : step.status.created = true := by
    rw [hesc]
    rfl
  refine Safe.bind (careful_step h fun fate => ⟨_, rfl, ?_⟩)
  have h := h.reconcile fate.unconfirmed
  refine Safe.bind (careful_readGrant h.base (fun row _ _ => ?_)
    (fun _ => h.failed_created hcre _) fun msg _ => h.failed_created hcre _)
  split
  · exact h.failed_created hcre _
  · refine Safe.bind (careful_store h.base (fun fate w' hperf => ?_)
      (fun _ error _ => h.failed_created hcre error) fun msg _ => h.failed_created hcre _)
    have hact : Facing site name old done step rest w' := by
      rw [Transaction.perform, hid] at hperf
      split at hperf
      · cases hperf
      · split at hperf
        · cases hperf
          exact h.putSecret .active
        · cases hperf
    have hfree := h.base.free step h.mem hcre
    refine careful_step hact fun _ => ⟨_, rfl, ?_⟩
    rw [hid]
    exact hact.mark (by rintro ⟨⟩) (fun _ => hfree) (by decide)

end

/-- **A run goes on** over steps that are passed. -/
structure Going (site : Site) (name : Nat → Account) (old : List Account) (done rest : List Step)
    (w : World) : Prop where
  base : Base site name old w
  steps : w.journal.steps = done ++ rest
  passed : ∀ d ∈ done, d.status.passed
  no_manual : ∀ d ∈ w.journal.steps, d.status ≠ .manual
  stoppable : w.Stoppable
  going : w.journal.status.terminal = false

variable (site name old) in
/-- A program that begins and ends where a run may. -/
abbrev Settles {α : Type} (p : Op α) (w : World) : Prop :=
  Careful site name old (fun _ => Idle site name old) (fun _ => Idle site name old) p w

theorem Going.idle (h : Going site name old done rest w) : Idle site name old w :=
  ⟨h.base, h.stoppable⟩

/-- The next step, if it is not passed: none after it is loose. -/
theorem Going.facing (h : Going site name old done (step :: rest) w) (hs : ¬ step.status.passed)
    (hrow : ∃ row ∈ w.grants, row.id = step.grant) : Facing site name old done step rest w where
  base := h.base
  steps := h.steps
  passed := h.passed
  no_manual := h.no_manual
  tight := by
    have horder := h.base.order
    rw [h.steps, pairwise_append, pairwise_cons] at horder
    exact fun d hd => Bool.eq_false_iff.mpr fun hloose => hs (horder.2.1.1 d hd hloose)
  row := hrow
  going := h.going

/-- A step that is passed over. -/
theorem Going.next (h : Going site name old done (step :: rest) w) (hs : step.status.passed) :
    Going site name old (done ++ [step]) rest w where
  base := h.base
  steps := by rw [h.steps, append_assoc, singleton_append]
  passed := by
    intro d hd
    rcases mem_append.mp hd with hd | hd
    · exact h.passed d hd
    · rw [mem_singleton.mp hd]
      exact hs
  no_manual := h.no_manual
  stoppable := h.stoppable
  going := h.going

theorem Facing.next (h : Facing site name old done step rest w) (hstep : step.status.passed) :
    Going site name old (done ++ [step]) rest w := by
  refine Going.next { h with stoppable := h.stoppable ?_ } hstep
  intro hpend _
  rcases hstep with hs | hs <;> rw [hpend] at hs <;> cases hs

/-- Where a step has failed: what the journal says of it, and what is left. -/
def FailedAt (site : Site) (name : Nat → Account) (old : List Account) (done : List Step)
    (step : Step) (rest : List Step) (failure : StepStatus × ClientsError) (w : World) : Prop :=
  Idle site name old w ∧ (∀ protocol error, failure.2 ≠ .adapter protocol error)
  ∨ ∃ reached : Step, reached.grant = step.grant ∧ reached.status = failure.1
    ∧ (reached.status = .pending ∨ reached.status.created = true)
    ∧ Facing site name old done reached rest w ∧ Failed reached failure.2 w

variable (site name old done step rest) in
/-- A phase that ends with a step that is passed. -/
abbrev Advances (p : Prog Cmd Reply (StepStatus × ClientsError) Unit) (w : World) : Prop :=
  Careful site name old (fun _ w => ∃ passed, Going site name old (done ++ [passed]) rest w)
    (FailedAt site name old done step rest) p w

theorem careful_advance (h : Going site name old done (step :: rest) w)
    (huns : step.status.settled = false) :
    Advances site name old done step rest (advance site step) w := by
  have hmem : step ∈ w.journal.steps := by
    rw [h.steps]
    exact mem_append_right done mem_cons_self
  refine Safe.bind (Safe.mapError (careful_readGrant h.base (fun grant hg hid => ?_)
    (fun _ => .inl ⟨h.idle, nofun⟩) fun msg _ => .inl ⟨h.idle, nofun⟩))
  have hrow : ∃ row ∈ w.grants, row.id = step.grant := ⟨grant, hg, hid⟩
  have hadap : Careful site name old (fun _ w' => w' = w) (FailedAt site name old done step rest)
      ((requireAdapter site grant.protocol).mapError (step.status, ·)) w := by
    refine Safe.mapError ?_
    unfold requireAdapter
    split
    · rfl
    · exact .inl ⟨h.idle, nofun⟩
  refine hadap.seq fun _ w' hw' => ?_
  rw [hw']
  have hacct : grant.account = name step.grant := by
    rw [(h.base.rows grant hg).1, hid]
  -- What each phase leaves where it fails, and where it ends.
  have hfailed : ∀ {reached : Step} {w : World} {error : ClientsError},
      reached.grant = step.grant → (reached.status = .pending ∨ reached.status.created = true) →
      FailedFacing site name old done reached rest error w →
      FailedAt site name old done step rest (reached.status, error) w :=
    fun hg hstat hw => .inr ⟨_, hg, rfl, hstat, hw.1, hw.2⟩
  have hconf : ∀ (reached : Step) (w : World), reached.grant = step.grant →
      reached.status = .escrowed → Facing site name old done reached rest w →
      Advances site name old done step rest
        ((confirmStep grant).mapError (StepStatus.escrowed, ·)) w := by
    intro reached w hg hstat hw
    refine Safe.mapError ((careful_confirmStep hw hstat (hid.trans hg.symm)).mono
      (fun _ w hw => ⟨_, hw.next (.inl rfl)⟩) fun error w he => ?_)
    rw [← hstat]
    exact hfailed hg (.inr (by rw [hstat]; rfl)) he
  have hesc : ∀ (reached : Step) (w : World), reached.grant = step.grant →
      reached.status = .applied → Facing site name old done reached rest w →
      Advances site name old done step rest
        (((markStep grant.id .escrowed none).mapError (StepStatus.applied, ·)).bind
          fun _ => (confirmStep grant).mapError (StepStatus.escrowed, ·)) w := by
    intro reached w hg hstat hw
    refine Safe.bind (Safe.mapError
      ((careful_markEscrowed hw hstat (hid.trans hg.symm)).mono (fun _ w hw => ?_)
        fun error w he => ?_))
    · exact hconf { reached with status := .escrowed, error := none } w hg rfl hw
    · rw [← hstat]
      exact hfailed hg (.inr (by rw [hstat]; rfl)) he
  cases hstat : step.status with
  | pending =>
    have hfac := h.facing (by rw [hstat]; rintro (hs | hs) <;> cases hs) hrow
    have hnot : step.protocol = .mtproxy → w.made step.grant = false :=
      (h.stoppable step hmem).1 hstat
    refine Safe.bind (Safe.mapError
      ((careful_applyStep hfac hstat hid hacct hnot).mono (fun _ w hw => ?_) fun error w he => ?_))
    · exact hesc { step with status := .applied, error := none } w rfl rfl hw
    · rw [← hstat]
      exact hfailed rfl (.inl hstat) he
  | applied =>
    exact hesc step w rfl hstat (h.facing (by rw [hstat]; rintro (hs | hs) <;> cases hs) hrow)
  | escrowed =>
    exact hconf step w rfl hstat (h.facing (by rw [hstat]; rintro (hs | hs) <;> cases hs) hrow)
  | active =>
    rw [hstat] at huns
    cases huns
  | remote => exact absurd hstat (h.base.here step hmem)
  | compensated => exact ⟨step, h.next (.inr hstat)⟩
  | manual => exact absurd hstat (h.no_manual step hmem)

/-! ## Undoing the steps -/

/-- **A compensation in progress**: the steps that are done are compensated or wait for a
person, and no step is loose. -/
structure Undoing (site : Site) (name : Nat → Account) (old : List Account) (done rest : List Step)
    (outcome : OperationStatus) (w : World) : Prop where
  base : Base site name old w
  steps : w.journal.steps = done ++ rest
  outcome : (outcome = .compensated ∧ ∀ d ∈ done, d.status = .compensated)
    ∨ outcome = .manualInterventionRequired
  settled : ∀ d ∈ done, d.status = .compensated ∨ d.status = .manual
  waiting : ∀ d ∈ rest, d.status ≠ .manual ∧ w.loose d = false

section Undoing

variable {outcome : OperationStatus} {error : Option String}

theorem Undoing.mem (h : Undoing site name old done (step :: rest) outcome w) :
    step ∈ w.journal.steps := by
  rw [h.steps]
  exact mem_append_right done mem_cons_self

theorem Undoing.not_loose (h : Undoing site name old done rest outcome w) :
    ∀ d ∈ w.journal.steps, w.loose d = false := by
  intro d hd
  rw [h.steps] at hd
  rcases mem_append.mp hd with hd | hd
  · refine World.loose_eq_false.mpr fun hpend => ?_
    rcases h.settled d hd with hs | hs <;> rw [hpend] at hs <;> cases hs
  · exact (h.waiting d hd).2

/-- The next step is marked. -/
theorem Undoing.mark (h : Undoing site name old done (step :: rest) outcome w)
    {outcome' : OperationStatus}
    (hstat : status = .compensated ∧ w.made step.grant = false ∧ outcome' = outcome
      ∨ status = .manual ∧ (∃ row ∈ w.grants, row.id = step.grant)
        ∧ outcome' = .manualInterventionRequired) :
    Undoing site name old (done ++ [{ step with status := status, error := error }]) rest outcome'
      (w.mark step.grant status error) := by
  have hbase : Base site name old (w.mark step.grant status error) := by
    refine h.base.mark (fun d hd _ => h.not_loose d hd) ?_ ?_ ?_ ?_
    · rcases hstat with ⟨-, hmade, -⟩ | ⟨rfl, -, -⟩
      · exact fun _ => hmade
      · rintro (hs | hs) <;> cases hs
    · rcases hstat with ⟨rfl, -, -⟩ | ⟨rfl, -, -⟩ <;> exact nofun
    · rcases hstat with ⟨rfl, -, -⟩ | ⟨rfl, -, -⟩ <;> exact nofun
    · rcases hstat with ⟨rfl, -, -⟩ | ⟨-, hrow, -⟩
      · exact fun hne => absurd rfl hne
      · exact fun _ => hrow
  refine ⟨hbase, ?_, ?_, fun d hd => ?_, fun d hd => h.waiting d (mem_cons_of_mem step hd)⟩
  · show w.journal.steps.map (marked step.grant status error) = _
    rw [h.steps, map_marked (h.steps ▸ h.base.nodup), append_assoc, singleton_append]
  · rcases hstat with ⟨rfl, -, rfl⟩ | ⟨-, -, rfl⟩
    · refine h.outcome.imp_left fun ⟨ho, hdone⟩ => ⟨ho, fun d hd => ?_⟩
      rcases mem_append.mp hd with hd | hd
      · exact hdone d hd
      · rw [mem_singleton.mp hd]
    · exact .inr rfl
  · rcases mem_append.mp hd with hd | hd
    · exact h.settled d hd
    · rw [mem_singleton.mp hd]
      exact hstat.imp (·.1) (·.1)

/-- An account is gone. -/
theorem Undoing.erase (h : Undoing site name old done rest outcome w) {a : Account}
    (hfree : a ∉ old) :
    Undoing site name old done rest outcome { w with accounts := erase w.accounts a } where
  base := h.base.erase hfree
  steps := h.steps
  outcome := h.outcome
  settled := h.settled
  waiting := by
    refine fun d hd => ⟨(h.waiting d hd).1, World.loose_eq_false.mpr fun hpend => ?_⟩
    have hmade := World.loose_eq_false.mp (h.waiting d hd).2 hpend
    exact Bool.eq_false_iff.mpr fun hd' => Bool.eq_false_iff.mp hmade (World.made_of_erase hd')

/-- The grants of compensated steps are purged. -/
theorem Undoing.purge (h : Undoing site name old done rest outcome w) {gs : List Nat}
    (hcomp : ∀ step ∈ w.journal.steps, step.grant ∈ gs → step.status = .compensated) :
    Undoing site name old done rest outcome (Transaction.perform.purge w gs) where
  base := h.base.purge hcomp
  steps := h.steps
  outcome := h.outcome
  settled := h.settled
  waiting := h.waiting

/-- Where the account of a step is deleted. -/
structure Removing (site : Site) (name : Nat → Account) (old : List Account) (done : List Step)
    (step : Step) (rest : List Step) (outcome : OperationStatus) (w : World) : Prop where
  undoing : Undoing site name old done (step :: rest) outcome w
  row : ∃ row ∈ w.grants, row.id = step.grant
  free : name step.grant ∉ old

theorem Removing.erase (h : Removing site name old done step rest outcome w) :
    Removing site name old done step rest outcome
      { w with accounts := erase w.accounts (name step.grant) } :=
  ⟨h.undoing.erase h.free, h.row, h.free⟩

theorem Removing.not_made (h : Removing site name old done step rest outcome w) :
    World.made { w with accounts := Table.erase w.accounts (name step.grant) } step.grant
      = false := by
  refine Bool.eq_false_iff.mpr fun hmade => ?_
  obtain ⟨a, hent⟩ := World.made_iff.mp hmade
  obtain ⟨hold, hne⟩ := mem_filter.mp hent
  rw [(h.undoing.base.owned a step.grant hold).1, decide_eq_true rfl] at hne
  cases hne

/-- An error of an adapter after which a person has to look, or where the run may end. -/
def Unremoved (w : World) (error : ClientsError) : Prop :=
  ∃ protocol adapterError, error = .adapter protocol adapterError
    ∧ (escapes adapterError = true → w.Stoppable)

variable (site name old done step rest outcome) in
/-- A program that deletes the account of the step. -/
abbrev Removes {α : Type} (p : Op α) (w : World) : Prop :=
  Careful site name old
    (fun _ w => Removing site name old done step rest outcome w ∧ w.made step.grant = false)
    (fun error w => Removing site name old done step rest outcome w ∧ Unremoved w error) p w

theorem careful_managerDelete {p : Protocol} (h : Removing site name old done step rest outcome w)
    (hnm : (p, grant.runtimeUsername) = name step.grant) :
    Removes site name old done step rest outcome (managerDelete p grant) w := by
  have hprepare : Careful site name old (fun _ => Removing site name old done step rest outcome)
      (fun error w => Removing site name old done step rest outcome w ∧ Unremoved w error)
      (prepareIf (p = .mieru) p grant.id) w := by
    unfold prepareIf
    split
    · refine careful_call h.undoing.base fun fate hclr => ?_
      show Careful site name old _ _ (Prog.orFail ((preparation p fate.preparation).mapError _)) w
      cases hprep : fate.preparation with
      | ready => exact h
      | unavailable | unusable => exact ⟨h, p, _, rfl, by rintro ⟨⟩⟩
      | unreadable => exact ⟨h, p, _, rfl, fun _ => hclr.2 hprep⟩
    · exact h
  refine hprepare.seq fun _ w h => ?_
  refine careful_call h.undoing.base fun fate _ => ?_
  have hresp : respond w fate (.delete p grant.id grant.runtimeUsername)
      = w.delete fate (name step.grant) := by
    rw [respond, hnm]
  rw [hresp]
  cases herr : fate.error with
  | none =>
    have hworld : (w.delete fate (name step.grant)).2
        = { w with accounts := erase w.accounts (name step.grant) } := by
      unfold World.delete
      rw [herr, Option.isNone_none, Bool.or_true, if_pos rfl]
    rw [hworld]
    cases (w.delete fate (name step.grant)).1 with
    | ok _ => exact ⟨h.erase, h.not_made⟩
    | error error => exact ⟨h.erase, p, _, rfl, by rintro ⟨⟩⟩
  | some error =>
    have hrep : (w.delete fate (name step.grant)).1 = .error error := by
      unfold World.delete
      rw [herr]
    have hworld : Removing site name old done step rest outcome
        (w.delete fate (name step.grant)).2 := by
      unfold World.delete
      dsimp only
      split
      · exact h.erase
      · exact h
    rw [hrep]
    exact ⟨hworld, p, _, rfl, by rintro ⟨⟩⟩

theorem careful_telemtDelete {u : String} (g : Nat)
    (h : Removing site name old done step rest outcome w)
    (hnm : (.mtproxy, u) = name step.grant) :
    Removes site name old done step rest outcome (throughTelemt g (Telemt.delete u)) w := by
  refine careful_throughTelemt (Safe.ask_bind h.undoing.base ?_)
  rintro r w' ⟨fate, -, hresp⟩
  have hrep : w.telemtDelete fate u = (r, w') := hresp
  unfold World.telemtDelete at hrep
  rw [hnm] at hrep
  obtain ⟨hr, hw'⟩ := Prod.mk.inj hrep
  have hworld : Removing site name old done step rest outcome w' := by
    rw [← hw']
    split
    · exact h.erase
    · exact h
  cases r with
  | error error =>
    refine ⟨hworld, .mtproxy, _, rfl, ?_⟩
    split <;> exact nofun
  | ok _ =>
    refine ⟨hworld, ?_⟩
    -- A success that is reported is one that took effect.
    have hdel : fate.delivery = .delivered := by
      cases hdelivery : fate.delivery with
      | delivered => rfl
      | failed msg statusCode | lost =>
        rw [hdelivery] at hr
        cases hr
    rw [decide_eq_true hdel, Bool.or_true, if_pos rfl] at hw'
    rw [← hw']
    exact h.not_made

theorem careful_deleteAccount (h : Removing site name old done step rest outcome w)
    (hacct : grant.account = name step.grant) :
    Removes site name old done step rest outcome (deleteAccount grant) w := by
  unfold deleteAccount
  split
  next hmtp =>
    refine careful_telemtDelete grant.id h ?_
    rw [← hacct, Grant.account, hmtp]
  · exact careful_managerDelete h hacct

/-- What a step of a compensation leaves. -/
def Undone (site : Site) (name : Nat → Account) (old : List Account) (rest : List Step)
    (outcome : OperationStatus) (w : World) : Prop :=
  ∃ done, Undoing site name old done rest outcome w

/-- A transaction that cannot be refused, where the run may end. -/
theorem careful_done (h : Base site name old w)
    (hok : ∀ fate, ∃ w', txn.perform w fate = .ok w' ∧ Q () w') :
    Careful site name old Q (fun _ => Idle site name old) (store txn) w :=
  careful_perform h hok fun _ hs => ⟨h, hs⟩

theorem careful_mark {g : Nat} (h : Base site name old w) (hQ : Q () (w.mark g status error)) :
    Careful site name old Q (fun _ => Idle site name old) (markStep g status error) w :=
  careful_done h fun _ => ⟨_, rfl, hQ⟩

theorem careful_markCompensated (h : Undoing site name old done (step :: rest) outcome w)
    (hmade : w.made step.grant = false) :
    Careful site name old (Undone site name old rest) (fun _ => Idle site name old)
      (markCompensated outcome step.grant) w :=
  Safe.bind (careful_mark h.base ⟨_, h.mark (.inl ⟨rfl, hmade, rfl⟩)⟩)

theorem careful_removeStep (h : Undoing site name old done (step :: rest) outcome w)
    (hcre : step.status.created = true) (hmem : grant ∈ w.grants) (hid : grant.id = step.grant)
    : Careful site name old (Undone site name old rest) (fun _ => Idle site name old)
      (removeStep site outcome grant) w := by
  obtain ⟨hacct, -, hadap⟩ := h.base.rows grant hmem
  have hreq : requireAdapter site grant.protocol = .ret () := by
    unfold requireAdapter
    rw [if_pos hadap]
    rfl
  have hrem : Removing site name old done step rest outcome w :=
    ⟨h, ⟨grant, hmem, hid⟩, h.base.free step h.mem hcre⟩
  unfold removeStep
  rw [hreq]
  show Careful site name old (Undone site name old rest) _ ((deleteAccount grant).attempt.bind _) w
  refine Safe.bind (Safe.attempt ((careful_deleteAccount hrem (hid ▸ hacct)).mono
    (fun _ w hw => ?_) fun error w hw => ?_))
  · obtain ⟨h, hmade⟩ := hw
    have hmark : Undoing site name old
        (done ++ [{ step with status := .compensated, error := none }]) rest outcome
        (w.mark step.grant .compensated none) := h.undoing.mark (.inl ⟨rfl, hmade, rfl⟩)
    rw [hid]
    refine Safe.bind (careful_mark h.undoing.base ?_)
    refine Safe.bind (careful_store hmark.base (fun fate w' hperf => ?_)
      (fun fate error hperf => ?_) fun _ hs => ⟨hmark.base, hs⟩)
    · rw [Transaction.perform] at hperf
      split at hperf
      · cases hperf
        refine ⟨_, hmark.purge fun d' hd' hg => ?_⟩
        obtain ⟨d, -, rfl⟩ := mem_map.mp hd'
        rw [marked_grant, mem_singleton] at hg
        rw [marked_of_eq hg]
      · cases hperf
    · rw [Transaction.perform] at hperf
      split at hperf
      · cases hperf
      next hn =>
        obtain ⟨row, hrow, hrowid⟩ := h.row
        exact absurd (any_eq_true.mpr ⟨row, hrow, decide_eq_true hrowid⟩) hn
  · obtain ⟨h, p, adapterError, rfl, hstop⟩ := hw
    show Careful site name old _ _ (if escapes adapterError then _ else _) w
    split
    next hesc => exact ⟨h.undoing.base, hstop hesc⟩
    · rw [hid]
      exact Safe.bind (careful_mark h.undoing.base ⟨_, h.undoing.mark (.inr ⟨rfl, h.row, rfl⟩)⟩)

theorem careful_findGrant {Q : Option Grant → World → Prop} {g : Nat}
    (h : Base site name old w) (hfnd : ∀ row ∈ w.grants, row.id = g → Q (some row) w)
    (hmiss : (∀ row ∈ w.grants, row.id ≠ g) → Q none w) :
    Careful site name old Q (fun _ => Idle site name old) (findGrant g) w :=
  Safe.bind (Safe.attempt (careful_readGrant h hfnd hmiss fun _ hs => ⟨h, hs⟩))

theorem careful_compensateStep (h : Undoing site name old done (step :: rest) outcome w) :
    Careful site name old (Undone site name old rest) (fun _ => Idle site name old)
      (compensateStep site outcome step) w := by
  have hmem := h.mem
  unfold compensateStep
  split
  next huncr =>
    refine careful_markCompensated h (Bool.eq_false_iff.mpr fun hmade => ?_)
    obtain ⟨hmanu, hloose⟩ := h.waiting step mem_cons_self
    cases hstat : step.status with
    | pending =>
      rw [World.loose_iff.mpr ⟨hstat, hmade⟩] at hloose
      cases hloose
    | compensated =>
      rw [h.base.not_made_of_compensated hmem hstat] at hmade
      cases hmade
    | remote => exact h.base.here step hmem hstat
    | manual => exact hmanu hstat
    | applied | escrowed | active => rw [hstat] at huncr; cases huncr
  next hcre =>
    rw [Bool.not_eq_true', Bool.not_eq_false] at hcre
    refine Safe.bind (careful_findGrant h.base (fun row hrow hid => ?_) fun hgone => ?_)
    · refine careful_call h.base fun fate hclr => ?_
      rw [respond, Fate.guarding]
      cases hfail : fate.failure with
      | some msg => exact ⟨h.base, hclr (by rw [hfail]; rfl)⟩
      | none =>
        rw [(h.base.rows row hrow).2.1]
        exact careful_removeStep h hcre hrow hid
    · have hcomp := (h.base.purged step hmem hgone).1
      rw [hcomp] at hcre
      cases hcre

/-- A step that can be compensated, or that waits: nothing is left of the others. -/
theorem Undoing.idle_of_terminal (h : Undoing site name old done [] outcome w)
    (hterm : w.journal.status.terminal = true) : Idle site name old w := by
  refine ⟨h.base, fun step hmem => ⟨fun hpend _ => ?_, fun _ => hterm⟩⟩
  exact World.loose_eq_false.mp (h.not_loose step hmem) hpend

theorem careful_readIdle (h : Idle site name old w) : Settles site name old readOperation w :=
  careful_readOperation h.base h fun _ _ => h

/-- Every step that is withdrawn is compensated. -/
theorem Base.withdrawn (h : Base site name old w) :
    ∀ step ∈ w.journal.steps, step.grant ∈ w.withdrawn → step.status = .compensated := by
  intro step hmem hg
  obtain ⟨row, hrow, hid⟩ := mem_map.mp hg
  obtain ⟨-, hwith⟩ := mem_filter.mp hrow
  rw [Bool.and_eq_true, any_eq_true] at hwith
  obtain ⟨step', hmem', hs'⟩ := hwith.2
  rw [Bool.and_eq_true, decide_eq_true_iff, decide_eq_true_iff] at hs'
  obtain rfl := h.eq_of_grant hmem' hmem (hs'.1.trans hid)
  exact hs'.2

/-- No row is left of a compensated step. -/
theorem Base.rows_withdrawn (h : Base site name old w)
    (hall : ∀ step ∈ w.journal.steps, step.status = .compensated) :
    ∀ step ∈ w.journal.steps, ∀ row ∈ (Transaction.perform.purge w w.withdrawn).grants,
      row.id ≠ step.grant := by
  intro step hmem row hrow hid
  obtain ⟨hrow, hnot⟩ := mem_filter.mp hrow
  rw [Bool.not_eq_true', decide_eq_false_iff_not] at hnot
  refine hnot (mem_map_of_mem (mem_filter.mpr ⟨hrow, ?_⟩))
  rw [(h.rows row hrow).2.1, Bool.not_false, Bool.true_and, any_eq_true]
  refine ⟨step, hmem, ?_⟩
  rw [Bool.and_eq_true, decide_eq_true_iff, decide_eq_true_iff]
  exact ⟨hid.symm, hall step hmem⟩

/-- **The end of a compensation**: the grants of the compensated steps go, and the
operation is marked. -/
theorem careful_settle (h : Undoing site name old done [] outcome w) (reason : String) :
    Settles site name old (do
      store .withdrawCompensated
      store (.audit outcome reason)
      markOperation outcome
      readOperation) w := by
  have hpurg := h.purge h.base.withdrawn
  refine Safe.bind (careful_done h.base fun _ => ⟨_, rfl, ?_⟩)
  refine Safe.bind (careful_done hpurg.base fun _ => ⟨_, rfl, ?_⟩)
  refine Safe.bind (careful_done hpurg.base fun _ => ⟨_, rfl, ?_⟩)
  have hend : outcome = .compensated → ∀ step ∈ w.journal.steps,
      ∀ row ∈ (Transaction.perform.purge w w.withdrawn).grants, row.id ≠ step.grant := by
    intro ho
    refine h.base.rows_withdrawn fun step hmem => ?_
    rw [h.steps, append_nil] at hmem
    rcases h.outcome with ⟨-, hdone⟩ | hmanu
    · exact hdone step hmem
    · rw [hmanu] at ho
      cases ho
  refine careful_readIdle (Undoing.idle_of_terminal ⟨hpurg.base.markOperation hend,
    hpurg.steps, hpurg.outcome, hpurg.settled, hpurg.waiting⟩ ?_)
  rcases h.outcome with ⟨ho, -⟩ | ho <;> rw [ho] <;> rfl

theorem careful_compensate (h : Undoing site name old [] w.journal.steps .compensated w)
    (reason : String) : Settles site name old (compensate site reason) w := by
  refine Safe.bind (careful_done h.base fun _ => ⟨_, rfl, ?_⟩)
  have hund (turned : Bool) : Undoing site name old [] w.journal.steps .compensated
      { w with journal := { w.journal with status := .compensating }, turned := turned } :=
    { h with base := h.base.markOperation nofun, steps := rfl }
  refine Safe.bind (careful_readOperation (hund _).base ?_ fun _ hs =>
    ⟨(hund _).base, hs⟩)
  exact Safe.bind (Safe.foldlM (I := Undone site name old)
    (fun step rest outcome w hw => hw.elim fun _ hw => careful_compensateStep hw)
    (fun outcome w hw => hw.elim fun _ hw => careful_settle hw reason) ⟨[], hund _⟩)

end Undoing

/-! ## Running -/

/-- A failed step is marked with what it has reached, and the operation is undone. -/
theorem careful_turnAround (h : Facing site name old done step rest w)
    (hstat : step.status = status)
    (hcre : step.status = .pending ∨ step.status.created = true)
    (hmade : step.status = .pending → w.made step.grant = false) :
    Settles site name old (do
      markStep step.grant status (some msg)
      compensate site msg) w := by
  have hidle := h.idle fun hpend _ => hmade hpend
  have hkept : status.created = true → name step.grant ∉ old := fun hc =>
    h.base.free step h.mem (hstat ▸ hc)
  have hoth : status ≠ .remote ∧ status ≠ .manual ∧ status ≠ .compensated := by
    rw [← hstat]
    rcases hcre with hs | hs
    · rw [hs]
      decide
    · refine ⟨?_, ?_, ?_⟩ <;> intro heq <;> rw [heq] at hs <;> cases hs
  have hmark : Facing site name old done { step with status := status, error := some msg }
      rest (w.mark step.grant status (some msg)) :=
    h.mark (fun hs => hmade (hstat.trans hs)) hkept hoth
  refine Safe.bind (careful_mark h.base ?_)
  refine careful_compensate ⟨hmark.base, rfl, .inl ⟨rfl, nofun⟩, nofun, fun d hd => ?_⟩ msg
  refine ⟨hmark.no_manual d hd, ?_⟩
  by_cases heq : d.grant = step.grant
  · obtain rfl := hmark.base.eq_of_grant hd hmark.mem heq
    exact World.loose_eq_false.mpr fun hpend => hmade (hstat.trans hpend)
  · exact hmark.others d hd heq

/-- A step that needs a person, and with it the operation. -/
theorem careful_handOver (h : Facing site name old done step rest w) : Settles site name old (do
      markStep step.grant .manual (some msg)
      markOperation .manualInterventionRequired
      readOperation) w := by
  have hbase : Base site name old (w.mark step.grant .manual (some msg)) := by
    refine h.base.mark h.others ?_ nofun nofun fun _ => h.row
    rintro (hs | hs) <;> cases hs
  have hmem : { step with status := .manual, error := some msg }
      ∈ (w.mark step.grant .manual (some msg)).journal.steps :=
    mem_map.mpr ⟨step, h.mem, marked_of_eq rfl⟩
  refine Safe.bind (careful_mark h.base ?_)
  refine Safe.bind (careful_store hbase (fun _ w' hperf => ?_)
    (fun _ _ hperf => nomatch hperf) fun _ hs => ?_)
  · cases hperf
    refine careful_readIdle ⟨hbase.markOperation nofun, fun d' hd' => ⟨fun hpend _ => ?_, fun _ => rfl⟩⟩
    obtain ⟨d, hd, -, -, ⟨-, hs⟩ | ⟨hne, rfl⟩⟩ := of_mem_map_marked hd'
    · rw [hpend] at hs
      cases hs
    · exact World.loose_eq_false.mp (h.others d hd hne) hpend
  · -- The database may not fail here.
    have hterm : w.journal.status.terminal = true := (hs _ hmem).2 rfl
    rw [h.going] at hterm
    cases hterm

theorem careful_stepFailed {failure : StepStatus × ClientsError}
    (h : FailedAt site name old done step rest failure w) :
    Settles site name old (stepFailed site step failure) w := by
  obtain ⟨status, error⟩ := failure
  rcases h with ⟨hidle, hoth⟩ | ⟨reached, hg, hstat, hcre, hfac, hfailed⟩
  · cases error with
    | adapter p error => exact absurd rfl (hoth p error)
    | notFound grant => exact hidle
    | conflict msg => exact hidle
    | database msg => exact hidle
  · cases error with
    | adapter p error =>
      show Careful site name old _ _ (if error.manualIntervention then _ else _) w
      split
      · rw [← hg]
        exact careful_handOver hfac
      next hperson =>
        split
        · refine hfac.idle fun hpend hprot => ?_
          rcases hfailed hpend with hm | ⟨-, hnot⟩ | hnot
          · exact absurd hm hperson
          · exact hnot hprot
          · exact hnot
        next hpln =>
          rw [← hg]
          refine careful_turnAround hfac hstat hcre fun hpend => ?_
          rcases hfailed hpend with hm | ⟨he, -⟩ | hnot
          · exact absurd hm hperson
          · exact absurd he hpln
          · exact hnot
    | notFound grant | conflict msg => exact hfac.idle fun hpend => hfailed hpend
    | database msg => exact hfac.idle fun hpend => hfailed hpend

/-- What the steps leave: the operation has ended, or every step is passed. -/
def Walked (site : Site) (name : Nat → Account) (old : List Account) :
    Option Operation → World → Prop
  | some _, w => Idle site name old w
  | none, w => ∃ done, Going site name old done [] w

theorem careful_forward (h : Going site name old done rest w) :
    Careful site name old (Walked site name old) (fun _ => Idle site name old)
      (forward site rest) w := by
  induction rest generalizing done w with
  | nil => exact ⟨done, h⟩
  | cons step rest ih =>
    unfold forward
    split
    next hsett =>
      refine ih (h.next ?_)
      cases hstat : step.status with
      | active => exact .inl rfl
      | remote =>
        refine absurd hstat (h.base.here step ?_)
        rw [h.steps]
        exact mem_append_right done mem_cons_self
      | _ => rw [hstat] at hsett; cases hsett
    next huns =>
      refine Safe.bind (Safe.attempt
        ((careful_advance h (Bool.eq_false_iff.mpr huns)).mono (fun _ w hw => ?_)
          fun failure w hw => ?_))
      · obtain ⟨passed, hgoing⟩ := hw
        exact ih hgoing
      · exact Safe.bind (careful_stepFailed hw)

/-- The operation is marked as anything but compensated. -/
theorem careful_markOperation {status : OperationStatus} (h : Going site name old done rest w)
    (hstat : status ≠ .compensated)
    (hQ : ∀ w', Base site name old w' → w'.journal = { w.journal with status := status } →
      w'.Stoppable → Q () w') :
    Careful site name old Q (fun _ => Idle site name old) (markOperation status) w := by
  refine careful_done h.base fun _ => ⟨_, rfl, ?_⟩
  refine hQ _ (h.base.markOperation fun heq => absurd heq hstat) rfl fun step hmem => ?_
  exact ⟨(h.stoppable step hmem).1, fun hmanu => absurd hmanu (h.no_manual step hmem)⟩

theorem careful_finish {r : Option Operation} (h : Walked site name old r w) :
    Settles site name old (finish r) w := by
  cases r with
  | some op => exact h
  | none =>
    obtain ⟨done, hgoing⟩ := h
    refine Safe.bind (careful_readOperation hgoing.base ?_ fun _ _ => hgoing.idle)
    refine Safe.bind (careful_markOperation hgoing ?_ fun w' hbase _ hs =>
      careful_readIdle ⟨hbase, hs⟩)
    split <;> decide

theorem careful_takeUp (h : Going site name old [] w.journal.steps w) :
    Careful site name old (fun _ w' => Going site name old [] w.journal.steps w')
      (fun _ => Idle site name old) (takeUp w.journal) w := by
  unfold takeUp
  split
  · refine careful_markOperation h (by decide) fun w' hbase hjrn hs => ?_
    refine ⟨hbase, ?_, h.passed, ?_, hs, ?_⟩
    · rw [hjrn]
      rfl
    · rw [hjrn]
      exact h.no_manual
    · rw [hjrn]
      rfl
  · exact h

/-- **A run loses track of no account.** -/
theorem careful_run (h : Idle site name old w) : Settles site name old (run site) w := by
  refine Safe.bind (careful_readOperation h.base ?_ fun _ _ => h)
  split
  · exact careful_readIdle h
  next hterm =>
    have hgoing : Going site name old [] w.journal.steps w :=
      { base := h.base, steps := rfl, passed := nofun, stoppable := h.stoppable
        no_manual := fun d hd hmanu => hterm ((h.stoppable d hd).2 hmanu)
        going := Bool.eq_false_iff.mpr hterm }
    refine (careful_takeUp hgoing).seq fun _ w hw => ?_
    exact (careful_forward hw).seq fun _ _ hw => careful_finish hw

/-! ## Every run -/

/-- What holds of every state. -/
def Tracked (site : Site) (name : Nat → Account) (old : List Account) (s : State) : Prop :=
  match s.running with
  | none => Idle site name old s.world
  | some (.call c k) =>
    Settles site name old (.call c k) s.world
  | some _ => False

theorem Tracked.of_careful {p : Op Operation} (h : Settles site name old p w) :
    Tracked site name old ⟨w, unfinished p⟩ := by
  cases p with
  | ret a => exact h
  | fail e => exact h
  | call c k => exact h

theorem Tracked.base {s : State} (h : Tracked site name old s) : Base site name old s.world := by
  obtain ⟨w, running⟩ := s
  cases running with
  | none => exact Idle.base h
  | some p =>
    cases p with
    | call c k => exact h.1
    | ret a => exact h.elim
    | fail e => exact h.elim

/-- A node has nothing to report to a step that is here. -/
theorem remote_here (h : Base site name old w) {f : Step → Step}
    (hf : ∀ step, step.status ≠ .remote → f step = step) :
    (if w.journal.status.waiting then w.rewrite (w.journal.steps.map f) else w) = w := by
  have hmap : w.journal.steps.map f = w.journal.steps :=
    (map_congr_left fun step hmem => hf step (h.here step hmem)).trans (map_id _)
  split
  · rw [hmap, World.rewrite, if_pos rfl]
  · rfl

theorem tracked_step {s s' : State} {e : Event} (h : Tracked site name old s)
    (hok : Unclouded s e) (hstep : Saga.step site s e = some s') : Tracked site name old s' := by
  obtain ⟨w, running⟩ := s
  cases e with
  | run =>
    cases running with
    | some p => cases hstep
    | none =>
      cases hstep
      exact Tracked.of_careful (careful_run ⟨h.base.lost [], h.stoppable⟩)
  | go fate =>
    cases running with
    | none => cases hstep
    | some p =>
      cases p with
      | ret a => cases hstep
      | fail e => cases hstep
      | call c k =>
        cases hstep
        exact Tracked.of_careful (h.2 _ _ ⟨fate, hok, rfl⟩)
  | crash =>
    cases running with
    | none => cases hstep
    | some p =>
      cases hstep
      exact ⟨h.base, hok⟩
  | remoteApplied reported withheld withheldError =>
    cases hstep
    have hsm : remoteApplied w reported withheld withheldError = w := by
      refine remote_here h.base fun step hs => ?_
      unfold reportedStep
      split
      · rfl
      · rw [if_pos hs]
    rw [hsm]
    exact h
  | withdrawRemote grant reason =>
    cases hstep
    have hsm : withdrawRemote w grant reason = w :=
      remote_here h.base fun step hs => if_neg fun hboth => hs hboth.2
    rw [hsm]
    exact h

/-! ## The start of an operation -/

/-- The accounts that the intents ask for. -/
def accountOf (intents : List Intent) (grant : Nat) : Account :=
  match intents[grant]? with
  | some intent => (intent.protocol, intent.runtimeUsername)
  | none => (.naive, "")

theorem accountOf_getElem {i : Nat} (hi : i < intents.length) :
    accountOf intents i = (intents[i].protocol, intents[i].runtimeUsername) := by
  unfold accountOf
  rw [getElem?_eq_getElem hi]

theorem idle_reserve {accs : List Account} (hloc : ∀ intent ∈ intents, intent.node = none)
    (h : reserve site accs intents = .ok w) : Idle site (accountOf intents) accs w := by
  unfold reserve at h
  split at h
  · cases h
  · split at h
    · cases h
    next href =>
      cases h
      have hnever : ∀ acc grant,
          (acc, Maker.step grant) ∉ accs.map fun acc => (acc, Maker.another) := by
        intro acc grant hmem
        obtain ⟨_, -, heq⟩ := mem_map.mp hmem
        cases heq
      have hpend : ∀ step ∈ intents.mapIdx fun grant intent => stepOf intent grant,
          step.status = .pending := by
        intro step hmem
        obtain ⟨i, hi, rfl⟩ := mem_mapIdx.mp hmem
        unfold stepOf
        rw [hloc _ (getElem_mem hi)]
        rfl
      refine ⟨?_, fun step hmem => ⟨fun _ _ => ?_, fun hmanu => ?_⟩⟩
      · refine
          { nodup := ?_, protocols := ?_, rows := ?_, kept := ?_
            owned := fun acc grant hent => absurd hent (hnever acc grant)
            remembered := fun acc grant hent => absurd hent (hnever acc grant)
            free_remembered := nofun, free := ?_, purged := ?_, ended := ?_, here := ?_, order := ?_ }
        · have hgrs : (intents.mapIdx fun grant intent => stepOf intent grant).map (·.grant)
              = range intents.length := by
            refine ext_getElem (by simp) fun i h₁ h₂ => ?_
            simp [stepOf]
          rw [hgrs]
          exact nodup_range
        · intro step hmem
          obtain ⟨i, hi, rfl⟩ := mem_mapIdx.mp hmem
          exact (congrArg Prod.fst (accountOf_getElem hi)).symm
        · intro row hmem
          obtain ⟨i, hi, rfl⟩ := mem_mapIdx.mp hmem
          have hnode := hloc _ (getElem_mem hi)
          refine ⟨(accountOf_getElem hi).symm, ?_, ?_⟩
          · unfold grantOf
            rw [hnode]
            rfl
          · refine (equipped_of_refusal href _ (getElem_mem hi)).resolve_left ?_
            rw [hnode]
            exact nofun
        · intro acc hmem
          have hfnd := isSome_find_of_mem
            (mem_map_of_mem (f := fun acc => (acc, Maker.another)) hmem)
          obtain ⟨maker, hmk⟩ := Option.isSome_iff_exists.mp hfnd
          obtain ⟨_, -, heq⟩ := mem_map.mp (mem_of_find hmk)
          cases heq
          exact hmk
        · intro step hmem hcre
          rw [hpend step hmem] at hcre
          cases hcre
        · intro step hmem hgone
          obtain ⟨i, hi, rfl⟩ := mem_mapIdx.mp hmem
          exact absurd rfl (hgone _ (mem_mapIdx.mpr ⟨i, hi, rfl⟩))
        · intro hend
          split at hend <;> cases hend
        · intro step hmem
          rw [hpend step hmem]
          decide
        · refine pairwise_of_forall_mem_list fun a _ b _ hloose => ?_
          obtain ⟨acc, hent⟩ := World.made_iff.mp (World.loose_iff.mp hloose).2
          exact absurd hent (hnever acc b.grant)
      · refine Bool.eq_false_iff.mpr fun hmade => ?_
        obtain ⟨acc, hent⟩ := World.made_iff.mp hmade
        exact hnever acc step.grant hent
      · rw [hpend step hmem] at hmanu
        cases hmanu

/-- **A compensated operation leaves nothing behind**, in every run in which what happens is
`Unclouded`: no account that one of its requests made exists, no version of a credential of
its grants is left but revoked, and every account that was there before is there. -/
theorem nothing_left (site : Site) (accounts : List Account) (intents : List Intent) (w : World)
    (events : List Event) (s : State) (hlocal : ∀ intent ∈ intents, intent.node = none)
    (hstart : reserve site accounts intents = .ok w)
    (hrun : Run.exec (Saga.step site) ⟨w, none⟩ events = some s)
    (hok : Run.Meets (Saga.step site) Unclouded ⟨w, none⟩ events) :
    (s.world.journal.status = .compensated →
      (∀ account grant, (account, Maker.step grant) ∉ s.world.accounts)
      ∧ ∀ step ∈ s.world.journal.steps, ∀ version state,
        ((step.grant, version), state) ∈ s.world.secrets → state = .revoked)
    ∧ ∀ account ∈ accounts, Table.find s.world.accounts account = some .another := by
  have htracked : Tracked site (accountOf intents) accounts s :=
    Run.invariant_of_meets (fun _ _ _ => tracked_step) hrun hok (idle_reserve hlocal hstart)
  have hbase := htracked.base
  refine ⟨fun hended => ⟨fun account grant hentry => ?_, fun step hmem version state => ?_⟩,
    hbase.kept⟩
  · obtain ⟨-, ⟨row, hrow, hid⟩, step, hmem, hgrant, -⟩ := hbase.owned account grant hentry
    exact hbase.ended hended step hmem row hrow (hid.trans hgrant.symm)
  · exact (hbase.purged step hmem (hbase.ended hended step hmem)).2 version state

/-- **No account is orphaned** in such a run: one that a request made is what its grant asks
for, the grant is there, and its step is not compensated. -/
theorem no_account_orphaned (accs : List Account) (intents : List Intent)
    {events : List Event} {s : State} (hlocal : ∀ intent ∈ intents, intent.node = none)
    (hstart : reserve site accs intents = .ok w)
    (hrun : Run.exec (Saga.step site) ⟨w, none⟩ events = some s)
    (hok : Run.Meets (Saga.step site) Unclouded ⟨w, none⟩ events) :
    ∀ account grant, (account, Maker.step grant) ∈ s.world.accounts →
      account = accountOf intents grant ∧ (∃ row ∈ s.world.grants, row.id = grant)
      ∧ ∃ step ∈ s.world.journal.steps, step.grant = grant ∧ step.status ≠ .compensated := by
  have htr : Tracked site (accountOf intents) accs s :=
    Run.invariant_of_meets (fun _ _ _ => tracked_step) hrun hok (idle_reserve hlocal hstart)
  exact htr.base.owned

end Cleanup

namespace Sample

/-- Telemt has created the account and says so, and the process stops. -/
def cutOff : List Event := .run :: List.replicate 4 (.go smooth) ++ [.crash]

/-- The operation is resumed, and Telemt answers with a conflict. -/
def conflicting : List Event := cutOff ++ .run :: List.replicate 11 (.go smooth)

/-- Telemt's conflict with an account that is there is lost. The account is read back, and
the runtime does not show it as wanted. -/
def adopting : List Event :=
  .run :: List.replicate 3 (.go smooth) ++ .go { smooth with delivery := .lost } ::
    List.replicate 5 (.go smooth) ++ .go { smooth with unconfirmed := [0] } ::
    List.replicate 13 (.go smooth)

/-- The process stops after NaiveProxy has created the account. The resumed run gets the
same answer again, but the runtime does not show the account. -/
def undoing : List Event :=
  .run :: List.replicate 5 (.go smooth) ++ .crash :: .run :: List.replicate 8 (.go smooth) ++
    .go { smooth with unconfirmed := [0] } :: List.replicate 13 (.go smooth)

/-- **An account is left at Telemt**: the process stopped between its creation and the
journal. **And an account that was there before is deleted**, whose conflict was lost. -/
theorem account_left_at_telemt :
    (∃ w s, reserve site [] telemtIntents = .ok w
      ∧ Run.exec (Saga.step site) ⟨w, none⟩ conflicting = some s
      ∧ s.world.journal.status = .compensated
      ∧ ((.mtproxy, "alice"), Maker.step 0) ∈ s.world.accounts)
    ∧ ∃ w s, reserve site [(.mtproxy, "alice")] telemtIntents = .ok w
      ∧ Run.exec (Saga.step site) ⟨w, none⟩ adopting = some s
      ∧ Table.find s.world.accounts (.mtproxy, "alice") = none := by
  constructor
  · obtain ⟨s, hs⟩ : ∃ s, Run.exec (Saga.step site) ⟨reserved .mtproxy [] [], none⟩ conflicting = some s
        ∧ s.world.journal.status = .compensated
        ∧ ((.mtproxy, "alice"), Maker.step 0) ∈ s.world.accounts := by
      decide +kernel
    exact ⟨_, s, rfl, hs⟩
  · obtain ⟨s, hs⟩ : ∃ s, Run.exec (Saga.step site)
          ⟨reserved .mtproxy [] [(.mtproxy, "alice")], none⟩ adopting = some s
        ∧ Table.find s.world.accounts (.mtproxy, "alice") = none := by
      decide +kernel
    exact ⟨_, s, rfl, hs⟩

/-- A NaiveProxy account whose creation was not recorded is deleted all the same. -/
theorem nothing_left_at_naive :
    ∃ s, Run.exec (Saga.step site) ⟨naiveReserved [(.naive, "bob")], none⟩ undoing = some s
      ∧ s.world.journal.status = .compensated
      ∧ (∀ account grant, (account, Maker.step grant) ∉ s.world.accounts)
      ∧ Table.find s.world.accounts (.naive, "bob") = some .another := by
  refine Run.end_and (by decide +kernel) fun s hs hstatus => ?_
  have hleft := nothing_left site [(.naive, "bob")] naiveIntents (naiveReserved _) undoing s
    (by decide) rfl hs (by decide +kernel)
  exact ⟨(hleft.1 hstatus).1, hleft.2 _ List.mem_cons_self⟩

theorem not_orphaned_at_naive :
    ∃ s, Run.exec (Saga.step site) ⟨naiveReserved [(.naive, "bob")], none⟩ (undoing.take 6) = some s
      ∧ ((.naive, "alice"), Maker.step 0) ∈ s.world.accounts ∧ ∃ row ∈ s.world.grants, row.id = 0 :=
  Run.end_and (by decide +kernel) fun _ hs hmade => (no_account_orphaned [(.naive, "bob")]
    naiveIntents (by decide) rfl hs (by decide +kernel) _ _ hmade).2.1

end Sample

end Saga
