import ProxyControl.Saga

/-!
# The accounts of the steps

A step's account is made by a request to a manager, and the journal is written after the
manager has answered. In between the step is *loose*: its account exists and the journal
says `pending`. What can be known of the account then depends on the manager. Four of them
remember a request to create, so that it can be sent again; Telemt does not, and its
adapter reads the account back.

`Fate.clear` says what a command may meet so that a run never loses track of an account.
One assertion is carried through every command (`Base`): the account of a step belongs to
a grant that is there, under its own name, and no step before a loose one has anything
left to do. A run that faces a step (`Facing`) asks the manager for the account, and this
module ends with what it then knows (`careful_createAccount`): the account is there and
was not there before, or the request has `Failed` in a way that does not hide one.
-/

namespace Saga

open List
open Table
open Reconciler (Protocol)
open Keyrings (SecretState)

/-! ## What may happen -/

/-- An account that was made for the grant exists. -/
def World.made (w : World) (grant : Nat) : Bool :=
  w.accounts.any fun entry => entry.2 = .step grant

/-- **A run may end here**: Telemt has no account of a pending step, and no step waits for
a person while the operation goes on. -/
def World.Stoppable (w : World) : Prop :=
  ∀ step ∈ w.journal.steps,
    (step.status = .pending → step.protocol = .mtproxy → w.made step.grant = false)
    ∧ (step.status = .manual → w.journal.status.terminal = true)

instance (w : World) : Decidable w.Stoppable :=
  inferInstanceAs (Decidable (∀ _ ∈ _, _))

/-- The account of the step exists, and the journal does not say so. -/
def World.loose (w : World) (step : Step) : Bool :=
  decide (step.status = .pending) && w.made step.grant

/-- An error after which the adapter asks for a person. -/
def asksPerson (protocol : Protocol) (error : ManagerError) : Bool :=
  decide (protocol = .naive ∨ protocol = .mieru)
    && decide (error.code = some "result_unrecoverable" ∨ error.code = some "operation_conflict")

def showsLink (fate : Fate) : Bool :=
  decide (fate.delivery = .delivered) && fate.access.any Telemt.TelemtAccess.hasSecret

/-- **What a command may meet.** -/
def Fate.clear (w : World) (fate : Fate) : Cmd → Prop
  -- Where Mieru's or TrustTunnel's state is read for a loose step, it is there.
  | .prepare _ grant =>
    (fate.preparation ≠ .ready → ∀ step ∈ w.journal.steps, step.grant = grant → w.loose step = false)
    ∧ (fate.preparation = .unreadable → w.Stoppable)
  -- A request that took effect fails only where it is sent again, or a person asked for.
  | .create protocol grant username again =>
    grant ∈ w.remembered ∨ find w.accounts (protocol, username) = none ∧ fate.lands = true →
      (fate.error.all (if again then asksPerson protocol else sendsAgain protocol)) = true
  | .delete _ _ _ => True
  | .telemt grant (.mutate .create username _) =>
    -- The conflict with an account that was there before arrives.
    (find w.accounts (.mtproxy, username) = some .another → fate.delivery ≠ .lost)
    -- A request that took effect is answered with the link, or once with nothing.
    ∧ (find w.accounts (.mtproxy, username) = none →
      fate.lands = true ∨ fate.delivery = .delivered →
      showsLink fate = true ∨ (fate.delivery = .lost ∧ grant ∉ w.lost))
  -- The account that is read back is shown.
  | .telemt grant (.currentAccess _) => w.made grant = true → showsLink fate = true
  | .telemt _ _ => True
  | .store _ | .readOperation | .readGrant _ | .isRemoteNode _ =>
    fate.failure.isSome = true → w.Stoppable

instance Fate.clear.decidable (w : World) (fate : Fate) : (c : Cmd) → Decidable (fate.clear w c)
  | .prepare _ _ => inferInstanceAs (Decidable (_ ∧ _))
  | .create _ _ _ _ => inferInstanceAs (Decidable (_ → _))
  | .delete _ _ _ => inferInstanceAs (Decidable True)
  | .telemt _ (.mutate .create _ _) => inferInstanceAs (Decidable (_ ∧ _))
  | .telemt _ (.mutate .rotate _ _) => inferInstanceAs (Decidable True)
  | .telemt _ (.deleteUser _) => inferInstanceAs (Decidable True)
  | .telemt _ (.currentAccess _) => inferInstanceAs (Decidable (_ → _))
  | .store _ => inferInstanceAs (Decidable (_ → _))
  | .readOperation => inferInstanceAs (Decidable (_ → _))
  | .readGrant _ => inferInstanceAs (Decidable (_ → _))
  | .isRemoteNode _ => inferInstanceAs (Decidable (_ → _))

/-! ## The assertion that is carried through -/

/-- Steps that a run passes over. -/
def StepStatus.passed (status : StepStatus) : Prop := status = .active ∨ status = .compensated

/-- **What holds at every moment.** `name` says which account a grant stands for, and the
accounts in `old` were there before. -/
structure Base (site : Site) (name : Nat → Account) (old : List Account) (w : World) : Prop where
  nodup : (w.journal.steps.map (·.grant)).Nodup
  protocols : ∀ step ∈ w.journal.steps, step.protocol = (name step.grant).1
  rows : ∀ row ∈ w.grants,
    row.account = name row.id ∧ row.remote = false ∧ site.adapters row.protocol = true
  kept : ∀ account ∈ old, find w.accounts account = some .another
  owned : ∀ account grant, (account, Maker.step grant) ∈ w.accounts →
    account = name grant ∧ (∃ row ∈ w.grants, row.id = grant)
      ∧ ∃ step ∈ w.journal.steps, step.grant = grant ∧ step.status ≠ .compensated
  remembered : ∀ account grant, (account, Maker.step grant) ∈ w.accounts →
    account.1 ≠ .mtproxy → grant ∈ w.remembered
  free_remembered : ∀ grant ∈ w.remembered, name grant ∉ old
  free : ∀ step ∈ w.journal.steps, step.status.created = true → name step.grant ∉ old
  purged : ∀ step ∈ w.journal.steps, (∀ row ∈ w.grants, row.id ≠ step.grant) →
    step.status = .compensated
      ∧ ∀ version state, ((step.grant, version), state) ∈ w.secrets → state = .revoked
  ended : w.journal.status = .compensated → ∀ step ∈ w.journal.steps,
    ∀ row ∈ w.grants, row.id ≠ step.grant
  here : ∀ step ∈ w.journal.steps, step.status ≠ .remote
  order : w.journal.steps.Pairwise fun a b => w.loose b = true → a.status.passed

section Cleanup

variable {site : Site} {name : Nat → Account} {old : List Account} {w w' : World} {g : Nat}
  {step : Step} {remembered : List Nat} {account : Account}

theorem World.made_iff : w.made g = true ↔ ∃ account, (account, Maker.step g) ∈ w.accounts := by
  unfold World.made
  rw [any_eq_true]
  constructor
  · rintro ⟨⟨account, maker⟩, hmem, hmk⟩
    obtain rfl := of_decide_eq_true hmk
    exact ⟨account, hmem⟩
  · rintro ⟨account, hmem⟩
    exact ⟨_, hmem, decide_eq_true rfl⟩

theorem World.loose_iff :
    w.loose step = true ↔ step.status = .pending ∧ w.made step.grant = true := by
  unfold World.loose
  rw [Bool.and_eq_true, decide_eq_true_iff]

theorem World.loose_eq_false :
    w.loose step = false ↔ (step.status = .pending → w.made step.grant = false) := by
  unfold World.loose
  rw [Bool.and_eq_false_imp, decide_eq_true_iff]

/-- Two steps of a grant are one. -/
theorem Base.eq_of_grant (h : Base site name old w) {a b : Step} (ha : a ∈ w.journal.steps)
    (hb : b ∈ w.journal.steps) (hab : a.grant = b.grant) : a = b :=
  inj_on_of_nodup_map h.nodup ha hb hab

theorem Base.not_made_of_compensated (h : Base site name old w) (hmem : step ∈ w.journal.steps)
    (hs : step.status = .compensated) : w.made step.grant = false := by
  refine Bool.eq_false_iff.mpr fun hmade => ?_
  obtain ⟨account, hacct⟩ := World.made_iff.mp hmade
  obtain ⟨-, -, step', hmem', hg, hstat⟩ := h.owned account step.grant hacct
  exact hstat (h.eq_of_grant hmem' hmem hg ▸ hs)

/-! ### Accounts come and go -/

/-- A request makes an account for a pending step whose forerunners are passed. -/
theorem Base.put (h : Base site name old w) (hmem : step ∈ w.journal.steps)
    (hpend : step.status = .pending) (hrow : ∃ row ∈ w.grants, row.id = step.grant)
    (hbef : w.journal.steps.Pairwise fun a b => b.grant = step.grant → a.status.passed)
    (hf : find w.accounts (name step.grant) = none) {lost : List Nat}
    (hkept : ∀ g ∈ w.remembered, g ∈ remembered)
    (hnew : ∀ g ∈ remembered, g = step.grant ∨ g ∈ w.remembered)
    (hs : (name step.grant).1 ≠ .mtproxy → step.grant ∈ remembered) :
    Base site name old
      { w with
        accounts := put w.accounts (name step.grant) (.step step.grant)
        remembered := remembered
        lost := lost } := by
  have hfree : name step.grant ∉ old := by
    intro htaken
    rw [h.kept _ htaken] at hf
    cases hf
  refine { h with
    kept := ?_, owned := ?_, remembered := ?_, free_remembered := ?_, order := ?_ }
  · intro account hacct
    have hne : account ≠ name step.grant := fun heq => hfree (heq ▸ hacct)
    exact (find_put_of_ne hne _ _).trans (h.kept account hacct)
  · intro account g hent
    rcases mem_put hent with heq | hold
    · cases heq
      exact ⟨rfl, hrow, step, hmem, rfl, by rw [hpend]; decide⟩
    · exact h.owned account g hold
  · intro account g hent hprot
    rcases mem_put hent with heq | hold
    · cases heq
      exact hs hprot
    · exact hkept g (h.remembered account g hold hprot)
  · intro g hg
    rcases hnew g hg with rfl | hold
    · exact hfree
    · exact h.free_remembered g hold
  · refine (h.order.and hbef).imp fun {a b} hab hloose => ?_
    obtain ⟨hb, hmade⟩ := World.loose_iff.mp hloose
    by_cases hg : b.grant = step.grant
    · exact hab.2 hg
    · refine hab.1 (World.loose_iff.mpr ⟨hb, ?_⟩)
      obtain ⟨account, hent⟩ := World.made_iff.mp hmade
      rcases mem_put hent with heq | hold
      · injection heq with _ hmk
        injection hmk with hb
        exact absurd hb hg
      · exact World.made_iff.mpr ⟨account, hold⟩

theorem World.made_of_erase
    (h : World.made { w with accounts := erase w.accounts account } g = true) :
    w.made g = true := by
  obtain ⟨account', hent⟩ := World.made_iff.mp h
  exact World.made_iff.mpr ⟨account', mem_of_mem_filter hent⟩

theorem Base.erase (h : Base site name old w) (hfree : account ∉ old) :
    Base site name old { w with accounts := erase w.accounts account } := by
  refine { h with kept := ?_, owned := ?_, remembered := ?_, order := ?_ }
  · intro account' hacct
    have hne : account' ≠ account := fun heq => hfree (heq ▸ hacct)
    rw [find_erase, if_neg hne]
    exact h.kept account' hacct
  · exact fun account' g hent => h.owned account' g (mem_of_mem_filter hent)
  · exact fun account' g hent => h.remembered account' g (mem_of_mem_filter hent)
  · refine h.order.imp fun hab hloose => hab ?_
    obtain ⟨hb, hmade⟩ := World.loose_iff.mp hloose
    exact World.loose_iff.mpr ⟨hb, World.made_of_erase hmade⟩

theorem Base.lost (h : Base site name old w) (lost : List Nat) :
    Base site name old { w with lost := lost } :=
  { h with }

/-! ### The journal and the tables of the panel -/

section Marked

variable {g : Nat} {status : StepStatus} {error : Option String} {done rest : List Step}

@[simp] theorem marked_grant (step : Step) : (marked g status error step).grant = step.grant := by
  unfold marked
  split <;> rfl

@[simp] theorem marked_protocol (step : Step) :
    (marked g status error step).protocol = step.protocol := by
  unfold marked
  split <;> rfl

theorem marked_of_eq (h : step.grant = g) :
    marked g status error step = { step with status := status, error := error } :=
  if_pos h

theorem marked_of_ne (h : step.grant ≠ g) : marked g status error step = step :=
  if_neg h

/-- A step of the marked journal is the one that is marked, or it is as it was. -/
theorem of_mem_map_marked {steps : List Step} (h : step ∈ steps.map (marked g status error)) :
    ∃ d ∈ steps, d.grant = step.grant ∧ d.protocol = step.protocol
      ∧ (d.grant = g ∧ status = step.status ∨ d.grant ≠ g ∧ d = step) := by
  obtain ⟨d, hd, rfl⟩ := mem_map.mp h
  refine ⟨d, hd, (marked_grant d).symm, (marked_protocol d).symm, ?_⟩
  by_cases heq : d.grant = g
  · exact .inl ⟨heq, by rw [marked_of_eq heq]⟩
  · exact .inr ⟨heq, (marked_of_ne heq).symm⟩

/-- The grants of the steps before and after one are others. -/
theorem grant_ne_of_nodup (h : ((done ++ step :: rest).map (·.grant)).Nodup) :
    (∀ d ∈ done, d.grant ≠ step.grant) ∧ ∀ d ∈ rest, d.grant ≠ step.grant := by
  rw [map_append, map_cons, nodup_append, nodup_cons] at h
  obtain ⟨-, ⟨hs, -⟩, hdisj⟩ := h
  refine ⟨fun d hd => ?_, fun d hd heq => ?_⟩
  · exact hdisj _ (mem_map_of_mem hd) _ mem_cons_self
  · exact hs (heq ▸ mem_map_of_mem hd)

/-- Marking a step leaves the others alone. -/
theorem map_marked (h : ((done ++ step :: rest).map (·.grant)).Nodup) :
    (done ++ step :: rest).map (marked step.grant status error)
      = done ++ { step with status := status, error := error } :: rest := by
  obtain ⟨hdone, hr⟩ := grant_ne_of_nodup h
  rw [map_append, map_cons, marked_of_eq rfl]
  congr 1
  · exact (map_congr_left fun d hd => marked_of_ne (hdone d hd)).trans (map_id done)
  · congr 1
    exact (map_congr_left fun d hd => marked_of_ne (hr d hd)).trans (map_id rest)

/-- The journal with a step marked. -/
abbrev World.mark (w : World) (grant : Nat) (status : StepStatus) (error : Option String) : World :=
  { w with
    journal := { w.journal with steps := w.journal.steps.map (marked grant status error) } }

/-- **A step is marked** while no other one is loose. -/
theorem Base.mark (h : Base site name old w)
    (hoth : ∀ step ∈ w.journal.steps, step.grant ≠ g → w.loose step = false)
    (hmade : status = .pending ∨ status = .compensated → w.made g = false)
    (hcre : status.created = true → name g ∉ old) (hrem : status ≠ .remote)
    (hrow : status ≠ .compensated → ∃ row ∈ w.grants, row.id = g) :
    Base site name old (w.mark g status error) := by
  refine
    { rows := h.rows, kept := h.kept, remembered := h.remembered
      free_remembered := h.free_remembered
      nodup := ?_, protocols := ?_, owned := ?_, free := ?_, purged := ?_, ended := ?_
      here := ?_, order := ?_ }
  · rw [map_map]
    simpa only [Function.comp_def, marked_grant] using h.nodup
  · intro step hmem
    obtain ⟨d, hd, hg, hprot, -⟩ := of_mem_map_marked hmem
    rw [← hg, ← hprot]
    exact h.protocols d hd
  · intro account g' hent
    obtain ⟨hacct, hg, step, hs, rfl, hstat⟩ := h.owned account g' hent
    refine ⟨hacct, hg, marked g status error step, mem_map_of_mem hs,
      marked_grant step, ?_⟩
    by_cases heq : step.grant = g
    · rw [marked_of_eq heq]
      intro hcomp
      have hnot := hmade (.inr hcomp)
      have hmade' : w.made step.grant = true := World.made_iff.mpr ⟨account, hent⟩
      rw [← heq, hmade'] at hnot
      cases hnot
    · rw [marked_of_ne heq]
      exact hstat
  · intro step hmem hcre'
    obtain ⟨d, hd, hg, -, ⟨rfl, rfl⟩ | ⟨-, rfl⟩⟩ := of_mem_map_marked hmem
    · exact hg ▸ hcre hcre'
    · exact h.free d hd hcre'
  · intro step hmem hgone
    obtain ⟨d, hd, hg, -, hmark⟩ := of_mem_map_marked hmem
    rw [← hg] at hgone ⊢
    obtain ⟨hstat, hrev⟩ := h.purged d hd hgone
    refine ⟨?_, hrev⟩
    rcases hmark with ⟨rfl, rfl⟩ | ⟨-, rfl⟩
    · by_contra hne
      obtain ⟨row, hmemrow, hid⟩ := hrow hne
      exact hgone row hmemrow hid
    · exact hstat
  · intro hend step hmem row hmemrow
    obtain ⟨d, hd, hg, -⟩ := of_mem_map_marked hmem
    rw [← hg]
    exact h.ended hend d hd row hmemrow
  · intro step hmem
    obtain ⟨d, hd, -, -, ⟨-, rfl⟩ | ⟨-, rfl⟩⟩ := of_mem_map_marked hmem
    · exact hrem
    · exact h.here d hd
  · -- No step is loose any more.
    refine pairwise_of_forall_mem_list fun a _ b hb hloose => ?_
    obtain ⟨hpend, hmade' : w.made b.grant = true⟩ := World.loose_iff.mp hloose
    obtain ⟨d, hd, hg, -, ⟨rfl, rfl⟩ | ⟨hne, rfl⟩⟩ := of_mem_map_marked hb
    · rw [← hg, hmade (.inl hpend)] at hmade'
      cases hmade'
    · rw [World.loose_eq_false.mp (hoth d hd hne) hpend] at hmade'
      cases hmade'

end Marked

theorem Base.markOperation (h : Base site name old w) {status : OperationStatus} {turned : Bool}
    (hend : status = .compensated → ∀ step ∈ w.journal.steps, ∀ row ∈ w.grants,
      row.id ≠ step.grant) :
    Base site name old
      { w with journal := { w.journal with status := status }, turned := turned } :=
  { h with ended := hend }

theorem Base.putSecret (h : Base site name old w) {state : SecretState}
    (hrow : ∃ row ∈ w.grants, row.id = g) :
    Base site name old { w with secrets := Table.put w.secrets (g, 1) state } := by
  refine { h with purged := ?_ }
  intro step hmem hgone
  obtain ⟨hstat, hrev⟩ := h.purged step hmem hgone
  refine ⟨hstat, fun v state' hent => ?_⟩
  rcases Table.mem_put hent with heq | hold
  · cases heq
    obtain ⟨row, hmemrow, hid⟩ := hrow
    exact absurd hid (hgone row hmemrow)
  · exact hrev v state' hold

theorem Base.reconcile (h : Base site name old w) (unconfirmed : List Nat) : Base site name old
      { w with
        grants := w.grants.map fun g =>
          { g with observedPending := decide (g.id ∈ unconfirmed) } } := by
  refine { h with rows := ?_, owned := ?_, purged := ?_, ended := ?_ }
  · intro row' hmem
    obtain ⟨row, hrow, rfl⟩ := mem_map.mp hmem
    exact h.rows row hrow
  · intro account g hent
    obtain ⟨hacct, ⟨row, hmem, hid⟩, hs⟩ := h.owned account g hent
    exact ⟨hacct, ⟨_, mem_map_of_mem hmem, hid⟩, hs⟩
  · refine fun step hmem hgone => h.purged step hmem fun row hrow => ?_
    exact hgone { row with observedPending := decide (row.id ∈ unconfirmed) }
      (mem_map.mpr ⟨row, hrow, rfl⟩)
  · intro hend step hmem row' hmem'
    obtain ⟨row, hrow, rfl⟩ := mem_map.mp hmem'
    exact h.ended hend step hmem row hrow

/-- The grants of compensated steps are purged. -/
theorem Base.purge (h : Base site name old w) {grants : List Nat}
    (hcomp : ∀ step ∈ w.journal.steps, step.grant ∈ grants → step.status = .compensated) :
    Base site name old (Transaction.perform.purge w grants) := by
  have hrows : ∀ {row : Grant}, row ∈ (Transaction.perform.purge w grants).grants ↔
      row ∈ w.grants ∧ row.id ∉ grants := by
    intro row
    unfold Transaction.perform.purge
    rw [mem_filter, Bool.not_eq_true', decide_eq_false_iff_not]
  refine { h with rows := ?_, owned := ?_, purged := ?_, ended := ?_ }
  · exact fun row hmem => h.rows row (hrows.mp hmem).1
  · intro account g hent
    obtain ⟨hacct, ⟨row, hmem, hid⟩, step, hs, hg, hstat⟩ := h.owned account g hent
    refine ⟨hacct, ⟨row, hrows.mpr ⟨hmem, fun hin => hstat ?_⟩, hid⟩, step, hs, hg, hstat⟩
    exact hcomp step hs (by rw [hg, ← hid]; exact hin)
  · intro step hs hgone
    have hbef : step.grant ∉ grants → step.status = .compensated
        ∧ ∀ v state, ((step.grant, v), state) ∈ w.secrets → state = .revoked := fun hin =>
      h.purged step hs fun row hrow hid => hgone row (hrows.mpr ⟨hrow, by rw [hid]; exact hin⟩) hid
    refine ⟨?_, fun v state hent => ?_⟩
    · by_cases hin : step.grant ∈ grants
      · exact hcomp step hs hin
      · exact (hbef hin).1
    · obtain ⟨⟨key, state'⟩, hold, heq⟩ := mem_map.mp hent
      split at heq
      · injection heq with _ hsta
        exact hsta.symm
      next hnot =>
        cases heq
        exact (hbef hnot).2 v state hold
  · exact fun hend step hs row hmem => h.ended hend step hs row (hrows.mp hmem).1

/-! ## The discipline of a run -/

/-- Where a run may begin and end. -/
structure Idle (site : Site) (name : Nat → Account) (old : List Account) (w : World) : Prop where
  base : Base site name old w
  stoppable : w.Stoppable

def cleanup (site : Site) (name : Nat → Account) (old : List Account) :
    Prog.Discipline Cmd Reply World where
  guard w _ := Base site name old w
  next w c r w' := ∃ fate : Fate, fate.clear w c ∧ respond w fate c = (r, w')

abbrev Careful (site : Site) (name : Nat → Account) (old : List Account) {ε α : Type}
    (Q : α → World → Prop) (E : ε → World → Prop) (p : Prog Cmd Reply ε α) (w : World) : Prop :=
  Prog.Safe (cleanup site name old) Q E p w

theorem careful_call {ε α : Type} {Q : α → World → Prop} {E : ε → World → Prop} {c : Cmd}
    {k : Reply c → Prog Cmd Reply ε α} (h : Base site name old w)
    (hk : ∀ fate : Fate, fate.clear w c →
      Careful site name old Q E (k (respond w fate c).1) (respond w fate c).2) :
    Careful site name old Q E (.call c k) w := by
  refine ⟨h, ?_⟩
  rintro r w' ⟨fate, hclr, hresp⟩
  have haft := hk fate hclr
  rwa [hresp] at haft

section Panel

variable {E : ClientsError → World → Prop} {Q : Unit → World → Prop} {txn : Transaction}

/-- A transaction: where the database fails, the run may end. -/
theorem careful_store (h : Base site name old w)
    (hok : ∀ fate w', txn.perform w fate = .ok w' → Q () w')
    (herr : ∀ fate error, txn.perform w fate = .error error → E error w)
    (hfail : ∀ msg, w.Stoppable → E (.database msg) w) :
    Careful site name old Q E (store txn) w := by
  refine careful_call h fun fate hclr => ?_
  rw [respond, Fate.guarding]
  cases hfailure : fate.failure with
  | some msg => exact hfail msg (hclr (by rw [hfailure]; rfl))
  | none =>
    cases hperf : txn.perform w fate with
    | ok w' => exact hok fate w' hperf
    | error error => exact herr fate error hperf

/-- A transaction that cannot be refused. -/
theorem careful_perform (h : Base site name old w)
    (hok : ∀ fate, ∃ w', txn.perform w fate = .ok w' ∧ Q () w')
    (hfail : ∀ msg, w.Stoppable → E (.database msg) w) :
    Careful site name old Q E (store txn) w := by
  refine careful_store h (fun fate w' hperf => ?_) (fun fate error hperf => ?_) hfail
  · obtain ⟨w'', hperf', hQ⟩ := hok fate
    rw [hperf] at hperf'
    exact Except.ok.inj hperf' ▸ hQ
  · obtain ⟨w'', hperf', -⟩ := hok fate
    rw [hperf] at hperf'
    cases hperf'

theorem careful_readOperation {Q : Operation → World → Prop} (h : Base site name old w)
    (hok : Q w.journal w) (hfail : ∀ msg, w.Stoppable → E (.database msg) w) :
    Careful site name old Q E readOperation w := by
  refine careful_call h fun fate hclr => ?_
  rw [respond, Fate.guarding]
  cases hfailure : fate.failure with
  | some msg => exact hfail msg (hclr (by rw [hfailure]; rfl))
  | none => exact hok

theorem careful_readGrant {Q : Grant → World → Prop} (h : Base site name old w)
    (hok : ∀ row ∈ w.grants, row.id = g → Q row w)
    (hmiss : (∀ row ∈ w.grants, row.id ≠ g) → E (.notFound g) w)
    (hfail : ∀ msg, w.Stoppable → E (.database msg) w) :
    Careful site name old Q E (readGrant g) w := by
  refine careful_call h fun fate hclr => ?_
  rw [respond, Fate.guarding]
  cases hfailure : fate.failure with
  | some msg => exact hfail msg (hclr (by rw [hfailure]; rfl))
  | none =>
    cases hf : w.grants.find? fun row => row.id = g with
    | some row =>
      have hid := find?_some hf
      exact hok row (mem_of_find?_eq_some hf) (of_decide_eq_true hid)
    | none =>
      exact hmiss fun row hmem hid =>
        find?_eq_none.mp hf row hmem (decide_eq_true hid)

end Panel

/-! ## One step at a time -/

/-- **A run faces a step**: those before it are passed, and none after it is loose. -/
structure Facing (site : Site) (name : Nat → Account) (old : List Account) (done : List Step)
    (step : Step) (rest : List Step) (w : World) : Prop where
  base : Base site name old w
  steps : w.journal.steps = done ++ step :: rest
  passed : ∀ d ∈ done, d.status.passed
  no_manual : ∀ d ∈ w.journal.steps, d.status ≠ .manual
  tight : ∀ d ∈ rest, w.loose d = false
  row : ∃ row ∈ w.grants, row.id = step.grant
  going : w.journal.status.terminal = false

section Facing

variable {done : List Step} {step : Step} {rest : List Step} {fate : Fate} {error : ManagerError}

section

variable (h : Facing site name old done step rest w)

include h

theorem Facing.mem : step ∈ w.journal.steps := by
  rw [h.steps]
  exact mem_append_right done mem_cons_self

theorem Facing.grant_nodup :
    (∀ d ∈ done, d.grant ≠ step.grant) ∧ ∀ d ∈ rest, d.grant ≠ step.grant :=
  grant_ne_of_nodup (h.steps ▸ h.base.nodup)

/-- Only the step that is faced can be loose. -/
theorem Facing.others : ∀ d ∈ w.journal.steps, d.grant ≠ step.grant → w.loose d = false := by
  intro d hd hne
  rw [h.steps] at hd
  rcases mem_append.mp hd with hdone | hd
  · refine World.loose_eq_false.mpr fun hpend => ?_
    rcases h.passed d hdone with hs | hs <;> rw [hpend] at hs <;> cases hs
  · rcases mem_cons.mp hd with rfl | hr
    · exact absurd rfl hne
    · exact h.tight d hr

theorem Facing.before :
    w.journal.steps.Pairwise fun a b => b.grant = step.grant → a.status.passed := by
  obtain ⟨-, hr⟩ := h.grant_nodup
  rw [h.steps, pairwise_append]
  refine ⟨?_, ?_, fun a ha b _ _ => h.passed a ha⟩
  · exact pairwise_of_forall_mem_list fun a ha b _ _ => h.passed a ha
  · refine pairwise_cons.mpr ⟨fun b hb hg => absurd hg (hr b hb), ?_⟩
    exact pairwise_of_forall_mem_list fun a _ b hb hg => absurd hg (hr b hb)

theorem Facing.stoppable
    (hs : step.status = .pending → step.protocol = .mtproxy → w.made step.grant = false) :
    w.Stoppable := by
  intro d hd
  refine ⟨fun hpend hprot => ?_, fun hmanu => absurd hmanu (h.no_manual d hd)⟩
  by_cases heq : d.grant = step.grant
  · obtain rfl := h.base.eq_of_grant hd h.mem heq
    exact hs hpend hprot
  · exact World.loose_eq_false.mp (h.others d hd heq) hpend

theorem Facing.idle
    (hs : step.status = .pending → step.protocol = .mtproxy → w.made step.grant = false) :
    Idle site name old w :=
  ⟨h.base, h.stoppable hs⟩

/-- The step is marked. -/
theorem Facing.mark {status : StepStatus}
    {error : Option String} (hmade : status = .pending → w.made step.grant = false)
    (hcre : status.created = true → name step.grant ∉ old)
    (hstat : status ≠ .remote ∧ status ≠ .manual ∧ status ≠ .compensated) :
    Facing site name old done { step with status := status, error := error } rest
      (w.mark step.grant status error) := by
  refine
    { base := h.base.mark h.others ?_ hcre hstat.1 fun _ => h.row
      steps := ?_, passed := h.passed, no_manual := ?_, tight := h.tight, row := h.row
      going := h.going }
  · rintro (hpend | hcomp)
    · exact hmade hpend
    · exact absurd hcomp hstat.2.2
  · show w.journal.steps.map (marked step.grant status error) = _
    rw [h.steps, map_marked (h.steps ▸ h.base.nodup)]
  · intro d' hmem
    obtain ⟨d, hd, -, -, ⟨-, rfl⟩ | ⟨-, rfl⟩⟩ := of_mem_map_marked hmem
    · exact hstat.2.1
    · exact h.no_manual d hd

/-- What does not touch the journal or the rows leaves the run facing the step. -/
theorem Facing.of_base (hbase : Base site name old w')
    (hjrn : w'.journal = w.journal) (hgrs : w'.grants = w.grants)
    (hmade : ∀ g, g ≠ step.grant → w'.made g = true → w.made g = true) :
    Facing site name old done step rest w' where
  base := hbase
  steps := by rw [hjrn, h.steps]
  passed := h.passed
  no_manual := by
    rw [hjrn]
    exact h.no_manual
  tight := by
    refine fun d hd => World.loose_eq_false.mpr fun hpend => Bool.eq_false_iff.mpr fun hd' => ?_
    have hmade' := hmade d.grant (h.grant_nodup.2 d hd) hd'
    rw [World.loose_eq_false.mp (h.tight d hd) hpend] at hmade'
    cases hmade'
  row := by
    rw [hgrs]
    exact h.row
  going := by
    rw [hjrn]
    exact h.going

/-- A request makes the account of the step. -/
theorem Facing.put (hpend : step.status = .pending)
    (hf : find w.accounts (name step.grant) = none) {lost : List Nat}
    (hkept : ∀ g ∈ w.remembered, g ∈ remembered)
    (hnew : ∀ g ∈ remembered, g = step.grant ∨ g ∈ w.remembered)
    (hs : (name step.grant).1 ≠ .mtproxy → step.grant ∈ remembered) :
    Facing site name old done step rest { w with
        accounts := put w.accounts (name step.grant) (.step step.grant)
        remembered := remembered
        lost := lost } := by
  refine h.of_base (h.base.put h.mem hpend h.row h.before hf hkept hnew hs) rfl rfl ?_
  intro g hne hmade
  obtain ⟨account, hent⟩ := World.made_iff.mp hmade
  rcases mem_put hent with heq | hold
  · injection heq with _ hmk
    injection hmk with hg
    exact absurd hg hne
  · exact World.made_iff.mpr ⟨account, hold⟩

end

/-! ### A manager that remembers -/

/-- What a request to create comes to in the world. -/
theorem create_cases (w : World) (fate : Fate) (a : Account) (g : Nat) : (w.create fate a g).2 = w
    ∨ find w.accounts a = none ∧ (w.create fate a g).2 = { w with
            accounts := put w.accounts a (.step g)
            remembered := g :: w.remembered } := by
  unfold World.create
  dsimp only
  split
  next hmade =>
    rw [Bool.and_eq_true, Bool.and_eq_true] at hmade
    exact .inr ⟨Option.isNone_iff_eq_none.mp hmade.1.2, rfl⟩
  · exact .inl rfl

theorem Facing.create (h : Facing site name old done step rest w) (hpend : step.status = .pending)
    (fate : Fate) :
    Facing site name old done step rest (w.create fate (name step.grant) step.grant).2 := by
  rcases create_cases w fate (name step.grant) step.grant with hsm | ⟨hf, hput⟩
  · rw [hsm]
    exact h
  · rw [hput]
    exact h.put hpend hf (fun _ => mem_cons_of_mem _)
      (fun _ hmem => mem_cons.mp hmem) fun _ => mem_cons_self

/-- A request that succeeds has found the name free, now or before. -/
theorem Base.free_of_create (h : Base site name old w) {readable : Bool}
    (hok : (w.create fate (name g) g).1 = .ok readable) : name g ∉ old := by
  unfold World.create at hok
  dsimp only at hok
  split at hok
  · cases hok
  · split at hok
    next hrem => exact h.free_remembered g hrem
    · split at hok
      · cases hok
      next hf =>
        intro hold
        rw [h.kept _ hold] at hf
        exact hf rfl

theorem Base.not_made_of_forgotten (h : Base site name old w)
    (hprot : (name g).1 ≠ .mtproxy) (hforg : g ∉ w.remembered) :
    w.made g = false := by
  refine Bool.eq_false_iff.mpr fun hmade => ?_
  obtain ⟨account, hent⟩ := World.made_iff.mp hmade
  have hacct := (h.owned account g hent).1
  exact hforg (h.remembered account g hent (hacct ▸ hprot))

/-- A request that fails has not made the account, or fails as one may that has. -/
theorem Base.create_error (h : Base site name old w) (hprot : (name g).1 ≠ .mtproxy)
    {good : ManagerError → Bool} (hclr : g ∈ w.remembered
      ∨ find w.accounts (name g) = none ∧ fate.lands = true → fate.error.all good = true)
    (herr : (w.create fate (name g) g).1 = .error error) :
    good error = true ∨ (w.create fate (name g) g).2.made g = false := by
  have hgood : ∀ error, fate.error = some error → g ∈ w.remembered
      ∨ find w.accounts (name g) = none ∧ fate.lands = true → good error = true := by
    intro error' herr' hcond
    have hall := hclr hcond
    rw [herr', Option.all_some] at hall
    exact hall
  by_cases hrem : g ∈ w.remembered
  · unfold World.create at herr
    rw [if_pos hrem] at herr
    split at herr
    next error' herr' =>
      cases herr
      exact .inl (hgood _ herr' (.inl hrem))
    · cases herr
  · have hnot := h.not_made_of_forgotten hprot hrem
    cases hf : find w.accounts (name g) with
    | some maker =>
      refine .inr ?_
      rcases create_cases w fate (name g) g with hsm | ⟨hn, -⟩
      · rw [hsm]
        exact hnot
      · rw [hf] at hn
        cases hn
    | none =>
      unfold World.create at herr
      dsimp only at herr
      rw [if_neg hrem, hf] at herr
      split at herr
      next error' herr' =>
        cases herr
        by_cases hld : fate.lands = true
        · exact .inl (hgood _ herr' (.inr ⟨hf, hld⟩))
        · refine .inr ?_
          unfold World.create
          dsimp only
          rw [herr', Bool.eq_false_iff.mpr hld, Option.isNone_some, Bool.or_false,
            Bool.and_false, if_neg Bool.false_ne_true]
          exact hnot
      · cases herr

/-- **What a pending step leaves that failed**: a person is asked for, or the run may end,
or there is no account. -/
def Failed (step : Step) (error : ClientsError) (w : World) : Prop :=
  step.status = .pending → match error with
    | .adapter _ e => e.manualIntervention = true
        ∨ (escapes e = true ∧ (step.protocol = .mtproxy → w.made step.grant = false))
        ∨ w.made step.grant = false
    | _ => step.protocol = .mtproxy → w.made step.grant = false

/-- What a request leaves that succeeded. -/
def Granted (site : Site) (name : Nat → Account) (old : List Account) (done : List Step)
    (step : Step) (rest : List Step) (w : World) : Prop :=
  Facing site name old done step rest w ∧ name step.grant ∉ old

variable (site name old done step rest) in
/-- Where the run still faces the step that has failed. -/
abbrev FailedFacing (error : ClientsError) (w : World) : Prop :=
  Facing site name old done step rest w ∧ Failed step error w

variable (site name old done step rest) in
/-- A program that asks for the account of the step. -/
abbrev Obtains {α : Type} (p : Op α) (w : World) : Prop :=
  Careful site name old (fun _ => Granted site name old done step rest)
    (FailedFacing site name old done step rest) p w

section Managers

variable {g : Grant} {p : Protocol}

theorem careful_prepareIf (h : Facing site name old done step rest w)
    (hpend : step.status = .pending) (hid : g.id = step.grant) (needed : Bool) :
    Careful site name old (fun _ => Facing site name old done step rest)
      (FailedFacing site name old done step rest) (prepareIf needed p g.id) w := by
  unfold prepareIf
  split
  · refine careful_call h.base fun fate hclr => ?_
    show Careful site name old _ _ (Prog.orFail ((preparation p fate.preparation).mapError _)) w
    have hnot : fate.preparation ≠ .ready → w.made step.grant = false := fun hprep =>
      World.loose_eq_false.mp (hclr.1 hprep step h.mem hid.symm) hpend
    cases hprep : fate.preparation with
    | ready => exact h
    | unavailable | unusable | unreadable =>
      exact ⟨h, fun _ => .inr (.inr (hnot (by rw [hprep]; decide)))⟩
  · exact h

theorem careful_readAnswer (h : Granted site name old done step rest w)
    (hprot : step.protocol ≠ .mtproxy) (readable : Bool) :
    Obtains site name old done step rest (readAnswer p readable) w := by
  unfold readAnswer
  split
  · exact h
  · exact ⟨h.1, fun _ => .inr (.inl ⟨rfl, fun heq => absurd heq hprot⟩)⟩

theorem unrecoverable_asksPerson (h : asksPerson p error = true) :
    (unrecoverable p error).manualIntervention = true := by
  unfold asksPerson at h
  rw [Bool.and_eq_true, decide_eq_true_iff, decide_eq_true_iff] at h
  obtain ⟨rfl | rfl, hcode⟩ := h
  all_goals
    unfold unrecoverable
    dsimp only
    rw [if_pos hcode]

section Create

variable (h : Facing site name old done step rest w) (hpend : step.status = .pending)
  (hid : g.id = step.grant) (hname : (p, g.runtimeUsername) = name step.grant)
  (hprot : step.protocol ≠ .mtproxy)

include h hpend hid hname hprot

/-- A request for the account of the step, and what the adapter does where it fails. -/
theorem careful_create {again : Bool} {onError : ManagerError → Op (Option String)}
    (herr : ∀ error w, Facing site name old done step rest w →
      (if again then asksPerson p else sendsAgain p) error = true ∨ w.made step.grant = false →
      Obtains site name old done step rest (onError error) w) :
    Obtains site name old done step rest (do
      match ← requestAccount p g again with
      | .ok readable => readAnswer p readable
      | .error error => onError error) w := by
  have hmtp : (name step.grant).1 ≠ .mtproxy := h.base.protocols step h.mem ▸ hprot
  refine careful_call h.base fun fate hclr => ?_
  have hresp : respond w fate (.create p g.id g.runtimeUsername again)
      = w.create fate (name step.grant) step.grant := by
    rw [respond, hname, hid]
  rw [Fate.clear, hid, hname] at hclr
  rw [hresp]
  cases hrep : (w.create fate (name step.grant) step.grant).1 with
  | ok readable =>
    exact careful_readAnswer ⟨h.create hpend fate, h.base.free_of_create hrep⟩ hprot readable
  | error error =>
    exact herr error _ (h.create hpend fate) (h.base.create_error hmtp hclr hrep)

theorem careful_createAgain : Obtains site name old done step rest (createAgain p g) w := by
  refine (careful_prepareIf h hpend hid _).seq fun _ w h => ?_
  refine careful_create h hpend hid hname hprot fun error w hw hleft => ⟨hw, fun _ => ?_⟩
  rcases hleft with hasks | hnot
  · exact .inl (unrecoverable_asksPerson hasks)
  · exact .inr (.inr hnot)

theorem careful_managerCreate : Obtains site name old done step rest (managerCreate p g) w := by
  refine (careful_prepareIf h hpend hid _).seq fun _ w h => ?_
  refine careful_create h hpend hid hname hprot fun error w hw hleft => ?_
  split
  · exact careful_createAgain hw hpend hid hname hprot
  next hends => exact ⟨hw, fun _ => .inr (.inr (hleft.resolve_left hends))⟩

end Create

end Managers

/-! ### Telemt -/

/-- The discipline as Telemt's adapter sees it. -/
def telemtCleanup (site : Site) (name : Nat → Account) (old : List Account) (grant : Nat) :
    Prog.Discipline Telemt.Cmd Telemt.Reply World where
  guard w _ := Base site name old w
  next w c r w' := (cleanup site name old).next w (.telemt grant c) r w'

theorem careful_throughTelemt {α : Type} {Q : α → World → Prop} {E : ClientsError → World → Prop}
    {op : Telemt.Op Telemt.AdapterError α} (h : Prog.Safe (telemtCleanup site name old g) Q
      (fun error => E (.adapter .mtproxy error)) op w) :
    Careful site name old Q E (throughTelemt g op) w := by
  refine Prog.Safe.mapError (Prog.Safe.through (D := telemtCleanup site name old g) ?_ h)
  exact fun c t hgd => ⟨hgd, fun r u hnext => hnext⟩

section TelemtCreate

variable {u : String}

/-- What a request to create comes to in the world. -/
theorem telemtCreate_cases (w : World) (fate : Fate) (g : Nat) (u : String) :
    ∃ lost, (fate.delivery = .lost → g ∈ lost) ∧
      ((w.telemtCreate fate g u).2 = { w with lost := lost }
      ∨ find w.accounts (.mtproxy, u) = none ∧ (fate.lands = true ∨ fate.delivery = .delivered)
        ∧ (w.telemtCreate fate g u).2 = { w with
              accounts := put w.accounts (.mtproxy, u) (.step g)
              lost := lost }) := by
  unfold World.telemtCreate
  refine ⟨if fate.delivery = .lost then g :: w.lost else w.lost, fun hlost => ?_, ?_⟩
  · rw [if_pos hlost]
    exact mem_cons_self
  · dsimp only
    split
    next hmade =>
      rw [Bool.and_eq_true, Bool.not_eq_true', Option.isSome_eq_false_iff,
        Option.isNone_iff_eq_none, Bool.or_eq_true, decide_eq_true_iff] at hmade
      exact .inr ⟨hmade.1, hmade.2, rfl⟩
    · exact .inl rfl

theorem Facing.telemtCreate (h : Facing site name old done step rest w)
    (hpend : step.status = .pending) (hname : (.mtproxy, u) = name step.grant)
    (fate : Fate) :
    Facing site name old done step rest (w.telemtCreate fate step.grant u).2 := by
  obtain ⟨lost, -, hlost | ⟨hf, -, hput⟩⟩ := telemtCreate_cases w fate step.grant u
  · rw [hlost]
    exact h.of_base (h.base.lost lost) rfl rfl fun _ _ hmade => hmade
  · rw [hput, hname]
    refine h.put hpend (hname ▸ hf) (fun _ hmem => hmem) (fun _ hmem => .inr hmem) ?_
    rw [← hname]
    exact fun hne => absurd rfl hne

/-- A request that made the account has shown the link, or its reply was the first to be
lost. -/
theorem telemtCreate_made {sec : Option String}
    (hclr : fate.clear w (.telemt g (.mutate .create u sec)))
    (hnot : w.made g = false) (hmade : (w.telemtCreate fate g u).2.made g = true)
    : showsLink fate = true ∨ (fate.delivery = .lost ∧ g ∉ w.lost) := by
  obtain ⟨lost, -, hlost | ⟨hf, heff, -⟩⟩ := telemtCreate_cases w fate g u
  · rw [hlost] at hmade
    have hmade' : w.made g = true := hmade
    rw [hnot] at hmade'
    cases hmade'
  · exact hclr.2 hf heff

/-- **What Telemt's reply says** of the account and of the name. -/
theorem Facing.telemt_reply (h : Facing site name old done step rest w)
    (hname : (.mtproxy, u) = name step.grant) (hnot : w.made step.grant = false)
    (hclr : fate.clear w (.telemt step.grant (.mutate .create u none))) :
    match (w.telemtCreate fate step.grant u).1 with
    | .ok user => name step.grant ∉ old ∧ user.any Telemt.TelemtAccess.hasSecret = true
    | .error error =>
      (error.indeterminate = false ∨ step.grant ∈ w.lost →
        (w.telemtCreate fate step.grant u).2.made step.grant = false)
      ∧ (error.indeterminate = true → name step.grant ∉ old
        ∧ step.grant ∈ (w.telemtCreate fate step.grant u).2.lost) := by
  have hmade := telemtCreate_made hclr hnot
  have hold : name step.grant ∈ old → find w.accounts (.mtproxy, u) = some .another := fun hmem =>
    hname ▸ h.base.kept _ hmem
  have hshows : fate.delivery ≠ .delivered → showsLink fate = false := fun hne => by
    unfold showsLink
    rw [decide_eq_false hne, Bool.false_and]
  cases hdel : fate.delivery with
  | delivered =>
    have hrep : (w.telemtCreate fate step.grant u).1
        = if (find w.accounts (.mtproxy, u)).isSome then .error (Telemt.apiError 409)
          else .ok fate.access := by
      unfold World.telemtCreate
      rw [hdel]
      rfl
    rw [hrep]
    cases hf : find w.accounts (.mtproxy, u) with
    | some maker =>
      refine ⟨fun _ => ?_, nofun⟩
      obtain ⟨lost, -, hlost | ⟨hn, -⟩⟩ := telemtCreate_cases w fate step.grant u
      · rw [hlost]
        exact hnot
      · rw [hf] at hn
        cases hn
    | none =>
      refine ⟨fun hmem => ?_, ?_⟩
      · rw [hold hmem] at hf
        cases hf
      · rcases hclr.2 hf (.inr hdel) with hlink | ⟨hlost, -⟩
        · unfold showsLink at hlink
          rw [Bool.and_eq_true] at hlink
          exact hlink.2
        · rw [hdel] at hlost
          cases hlost
  | failed msg statusCode =>
    have hrep : (w.telemtCreate fate step.grant u).1 = .error ⟨msg, statusCode, false⟩ := by
      unfold World.telemtCreate
      rw [hdel]
      rfl
    rw [hrep]
    refine ⟨fun _ => Bool.eq_false_iff.mpr fun hm => ?_, nofun⟩
    rcases hmade hm with hlink | ⟨hlost, -⟩
    · rw [hshows (by rw [hdel]; exact nofun)] at hlink
      cases hlink
    · rw [hdel] at hlost
      cases hlost
  | lost =>
    have hrep : (w.telemtCreate fate step.grant u).1 = .error Telemt.lostReply := by
      unfold World.telemtCreate
      rw [hdel]
      rfl
    rw [hrep]
    refine ⟨fun hlater => Bool.eq_false_iff.mpr fun hm => ?_, fun _ => ⟨fun hmem => ?_, ?_⟩⟩
    · rcases hmade hm with hlink | ⟨-, hfst⟩
      · rw [hshows (by rw [hdel]; decide)] at hlink
        cases hlink
      · rcases hlater with hfalse | hin
        · cases hfalse
        · exact hfst hin
    · exact hclr.1 (hold hmem) hdel
    · obtain ⟨lost, hin, hlost | ⟨-, -, hput⟩⟩ := telemtCreate_cases w fate step.grant u
      · rw [hlost]
        exact hin hdel
      · rw [hput]
        exact hin hdel

/-- An outcome that shows a link. -/
def Shown (site : Site) (username : String) (outcome : Telemt.Attempt) : Prop :=
  ∃ applied, Telemt.grantOf site.telemt username (outcome, .manager) = .ok applied

theorem shown_answer {user : Option Telemt.TelemtAccess}
    (h : user.any Telemt.TelemtAccess.hasSecret = true) : Shown site u (.answer user) := by
  cases user with
  | none => cases h
  | some access =>
    have hsec : access.hasSecret = true := h
    unfold Shown Telemt.grantOf
    dsimp only
    rw [Option.filter_some, if_pos hsec]
    exact ⟨_, rfl⟩

section

variable (h : Facing site name old done step rest w)

include h

/-- An account that is there is read back. -/
theorem safe_recover (hname : (.mtproxy, u) = name step.grant) :
    Prog.Safe (telemtCleanup site name old step.grant)
      (fun applied w' => w' = w ∧ (applied = none → w.made step.grant = false))
      (fun _ w' => w' = w ∧ w.made step.grant = false)
      (Telemt.recover site.telemt u) w := by
  refine Prog.Safe.ask_bind h.base ?_
  rintro r w' ⟨fate, hclr, hresp⟩
  obtain ⟨hrep, rfl⟩ : w.telemtAccess fate u (.ok none) = r ∧ w = w' :=
    Prod.mk.inj hresp
  have hrd : w.made step.grant = true →
      r = .ok fate.access ∧ fate.access.any Telemt.TelemtAccess.hasSecret = true := by
    intro hmade
    obtain ⟨account, hent⟩ := World.made_iff.mp hmade
    have hacct := (h.base.owned account step.grant hent).1
    have hlink := hclr hmade
    unfold showsLink at hlink
    rw [Bool.and_eq_true, decide_eq_true_iff] at hlink
    refine ⟨?_, hlink.2⟩
    rw [← hrep, World.telemtAccess, hlink.1, hname, ← hacct, if_pos (isSome_find_of_mem hent)]
    rfl
  cases r with
  | error error =>
    refine ⟨rfl, Bool.eq_false_iff.mpr fun hmade => ?_⟩
    cases (hrd hmade).1
  | ok access =>
    refine ⟨rfl, fun hn => Bool.eq_false_iff.mpr fun hmade => ?_⟩
    obtain ⟨hacs, hlink⟩ := hrd hmade
    cases hacs
    rw [Option.map_eq_none_iff] at hn
    cases hsh : fate.access with
    | none =>
      rw [hsh] at hlink
      cases hlink
    | some shown =>
      rw [hsh] at hlink hn
      have hsec : shown.hasSecret = true := hlink
      rw [Option.filter_some, if_pos hsec] at hn
      cases hn

/-- **Telemt's adapter creates the account**, and knows whether it has. -/
theorem safe_attempt (hpend : step.status = .pending)
    (hname : (.mtproxy, u) = name step.grant) (hnot : w.made step.grant = false) :
    Prog.Safe (telemtCleanup site name old step.grant)
      (fun out w => Granted site name old done step rest w ∧ Shown site u out)
      (fun _ w => Facing site name old done step rest w ∧ w.made step.grant = false)
      (Telemt.attempt site.telemt .create u none) w := by
  refine Prog.Safe.ask_bind h.base ?_
  rintro r w₁ ⟨fate, hclr, hresp⟩
  have hrep := h.telemt_reply hname hnot hclr
  have hfac := h.telemtCreate hpend hname fate
  have heq : w.telemtCreate fate step.grant u = (r, w₁) := hresp
  rw [heq] at hrep hfac
  cases r with
  | ok user => exact ⟨⟨hfac, hrep.1⟩, shown_answer hrep.2⟩
  | error error =>
    show Prog.Safe _ _ _ (if error.indeterminate = true then _ else _) w₁
    split
    next hindet =>
      obtain ⟨hfree, hlost⟩ := hrep.2 hindet
      refine Prog.Safe.bind ((safe_recover hfac hname).mono (fun applied w hw => ?_)
        fun _ w hw => ?_)
      · obtain ⟨rfl, hn⟩ := hw
        cases applied with
        | some applied => exact ⟨⟨hfac, hfree⟩, applied, rfl⟩
        | none =>
          -- Nothing was created, and the request is sent once more.
          have hnot₁ := hn rfl
          refine Prog.Safe.ask_bind hfac.base ?_
          rintro r w₂ ⟨fate, hclr, hresp⟩
          have hrep := hfac.telemt_reply hname hnot₁ hclr
          have hagain := hfac.telemtCreate hpend hname fate
          have heq : w.telemtCreate fate step.grant u = (r, w₂) := hresp
          rw [heq] at hrep hagain
          cases r with
          | ok user => exact ⟨⟨hagain, hrep.1⟩, shown_answer hrep.2⟩
          | error error => exact ⟨hagain, hrep.1 (.inr hlost)⟩
      · obtain ⟨rfl, hnot₁⟩ := hw
        exact ⟨hfac, hnot₁⟩
    next hdet => exact ⟨hfac, hrep.1 (.inl (Bool.eq_false_iff.mpr hdet))⟩

theorem careful_telemtCreate
    (hpend : step.status = .pending) (hname : (.mtproxy, u) = name step.grant)
    (hnot : w.made step.grant = false) :
    Obtains site name old done step rest
      (throughTelemt step.grant (Telemt.create site.telemt "" u .manager)) w := by
  refine careful_throughTelemt ?_
  show Prog.Safe _ _ _ ((Telemt.withCallerFallback site.telemt .create u none).bind _) w
  refine Prog.Safe.bind ?_
  refine Prog.Safe.bind (Prog.Safe.attempt
    ((safe_attempt h hpend hname hnot).mono (fun out w hw => ?_) fun error w hw => ?_))
  · obtain ⟨hgr, applied, happ⟩ := hw
    show Prog.Safe _ _ _ (Prog.orFail (Telemt.grantOf site.telemt u (out, .manager))) w
    rw [happ]
    exact hgr
  · show Prog.Safe _ _ _ (if error.indeterminate = true then _ else _) w
    split
    · exact ⟨hw.1, fun _ => .inr (.inr hw.2)⟩
    · rw [if_pos (.inl Option.isNone_none)]
      exact ⟨hw.1, fun _ => .inr (.inr hw.2)⟩

theorem careful_createAccount {g : Grant} (hpend : step.status = .pending) (hid : g.id = step.grant)
    (hacct : g.account = name step.grant)
    (hnot : step.protocol = .mtproxy → w.made step.grant = false) :
    Obtains site name old done step rest (createAccount site g) w := by
  have hprot : g.protocol = step.protocol := by
    rw [h.base.protocols step h.mem, ← hacct]
    rfl
  unfold createAccount
  split
  next hmtp =>
    have hname : (.mtproxy, g.runtimeUsername) = name step.grant := by
      rw [← hacct, Grant.account, hmtp]
    rw [hid]
    exact Prog.Safe.bind (careful_telemtCreate h hpend hname (hnot (hprot ▸ hmtp)))
  next hoth => exact careful_managerCreate h hpend hid hacct fun heq => hoth (hprot.trans heq)

end

end TelemtCreate

end Facing

end Cleanup

end Saga
