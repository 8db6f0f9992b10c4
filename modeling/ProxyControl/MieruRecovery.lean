import ProxyControl.MieruTransaction

/-!
# What a stopped Mieru transaction recovers to

Wherever the process stops, the files and `mita` are in one of few positions:
no journal and a state that fits the configuration; a journal, the old state
and one of the two configurations; a journal, the new state and the new
configuration (`Position`). That is an invariant of every run, with every
failure a step can have (`position_of_run`).

From the first and the last position recovery leads to a matching pair. From
the second it does unless it refuses, and it refuses in two cases that a
transaction can leave behind. It makes the next revision again from the state
file, whose disabled users and tombstones are the old ones, so it does not
find the revision of a transaction that changes them – disabling, enabling and
deleting a user. And it does not accept the old configuration once the journal
says `applied`, which is what a rollback leaves that stopped after it had
applied the old configuration, and what a recovery leaves that did.

`Recoverable` says that neither is the case, and recovery succeeds exactly
then (`recovers_iff_recoverable`).
-/

namespace Mieru

open Table
open Run (Outcome)

variable {Digest Section Rest Doc : Type}

/-! ## Transactions -/

/-- The operations that change the disabled users or the tombstones. -/
def movesRows : List Operation := [.userDisable, .userEnable, .userDelete]

/-- **What a prepared transaction is**: its journal names the two
configurations and the two states. -/
structure TxOk (site : Site Digest Section Rest Doc) (tx : Tx Digest Section Rest Doc) : Prop where
  phase : tx.journal.phase = .prepared
  previousHash : tx.journal.previousConfigHash = site.hash (.config tx.before)
  desiredHash : tx.journal.desiredConfigHash = site.hash (.config (tx.expected site))
  oldHash : tx.old.configHash = tx.journal.previousConfigHash
  oldGeneration : tx.journal.stateGeneration = tx.old.generation
  oldRevision : tx.journal.stateRevision = tx.old.revision
  nextGeneration : tx.journal.nextGeneration = tx.old.generation + 1
  nextRevision : tx.journal.nextRevision = site.hash
    (.revision (tx.expected site) tx.next.disabled tx.next.tombstones (tx.old.generation + 1))
  newHash : tx.next.configHash = tx.journal.desiredConfigHash
  newGeneration : tx.next.generation = tx.journal.nextGeneration
  newRevision : tx.next.revision = tx.journal.nextRevision
  backup : tx.journal.backup = (tx.old.generation, tx.old.revision)
  backupSha256 : tx.journal.backupSha256 = site.hash (.backup tx.before)
  mode : tx.journal.mode = modeFor tx.journal.operation tx.before (tx.expected site)
  valid : (validateConfig site tx.before).isOk = true
  held : tx.before.readback site.sha256 = tx.before
  rows : tx.journal.operation ∉ movesRows →
    tx.next.disabled = tx.old.disabled ∧ tx.next.tombstones = tx.old.tombstones

variable {site : Site Digest Section Rest Doc}

/-! ## Where the files can be -/

variable [DecidableEq Digest]

/-- A transaction that is not committed: a journal, the old state, and one of
the two configurations – the old one, where the journal says so. -/
structure Started (w : World site) (tx : Tx Digest Section Rest Doc) : Prop where
  ok : TxOk site tx
  state : w.state = tx.old
  backup : find w.backups tx.journal.backup = some tx.before
  mita : w.mita.1 = tx.before ∨ w.mita.1 = tx.expected site
  journal : ∃ phase, w.journal = some { tx.journal with phase }
    ∧ (phase = .rollbackApplied → w.mita.1 = tx.before)

/-- A transaction that is committed, and whose journal is left. -/
structure Committed (w : World site) (tx : Tx Digest Section Rest Doc) : Prop where
  ok : TxOk site tx
  state : w.state = tx.next
  mita : w.mita.1 = tx.expected site
  journal : ∃ phase, w.journal = some { tx.journal with phase }

/-- The state fits the configuration. -/
def Matches (w : World site) : Prop := w.state.configHash = site.hash (.config w.mita.1)

/-- **Where the files and `mita` can be.** -/
def Position (w : World site) (last : Option (Tx Digest Section Rest Doc)) : Prop :=
  (w.journal = none ∧ Matches w) ∨ ∃ tx, last = some tx ∧ (Started w tx ∨ Committed w tx)

/-- What holds of the files at each step of the process. -/
def Inside (w : World site) (last : Option (Tx Digest Section Rest Doc)) :
    Control Digest Section Rest Doc → Prop
  | .down | .up => Position w last
  | .backup tx => Position w last ∧ TxOk site tx ∧ w.state = tx.old ∧ w.mita.1 = tx.before
  | .journal tx =>
    (Position w last ∧ TxOk site tx ∧ w.state = tx.old ∧ w.mita.1 = tx.before)
      ∧ find w.backups tx.journal.backup = some tx.before
  | .apply tx => last = some tx ∧ Started w tx ∧ w.journal = some tx.journal
  | .phase tx | .serve tx | .undo tx | .undoPhase tx => last = some tx ∧ Started w tx
  | .commit tx => last = some tx ∧ Started w tx ∧ w.mita.1 = tx.expected site
  | .finish tx => last = some tx ∧ Committed w tx
  | .sync tx => w.journal = none ∧ w.state = tx.next ∧ Matches w
  | .undoServe tx | .undoFinish tx => last = some tx ∧ Started w tx ∧ w.mita.1 = tx.before
  | .restore config previousHash =>
    ∃ tx, last = some tx ∧ Started w tx ∧ config = tx.before
      ∧ previousHash = tx.journal.previousConfigHash
  | .restart previousHash =>
    ∃ tx, last = some tx ∧ Started w tx ∧ previousHash = tx.journal.previousConfigHash
  | .remove =>
    ∃ tx, last = some tx ∧ ((Started w tx ∧ w.mita.1 = tx.before) ∨ Committed w tx)

variable {w : World site} {last : Option (Tx Digest Section Rest Doc)}
  {tx : Tx Digest Section Rest Doc} {phase : Phase} {m : Machine site}
  {ch : Change Digest Section Rest Doc} {r : Request Digest Doc} {env : Env Section Doc}
  {o : Outcome}

theorem Started.position (h : Started w tx) (hl : last = some tx) : Position w last :=
  .inr ⟨tx, hl, .inl h⟩

theorem Committed.position (h : Committed w tx) (hl : last = some tx) : Position w last :=
  .inr ⟨tx, hl, .inr h⟩

/-- Wherever the process is, the files are in one of the positions. -/
theorem Inside.position {c : Control Digest Section Rest Doc} (h : Inside w last c) :
    Position w last := by
  cases c with
  | down => exact h
  | up => exact h
  | backup tx => exact h.1
  | journal tx => exact h.1.1
  | apply tx => exact h.2.1.position h.1
  | phase tx => exact h.2.position h.1
  | serve tx => exact h.2.position h.1
  | commit tx => exact h.2.1.position h.1
  | finish tx => exact h.2.position h.1
  | sync tx => exact .inl ⟨h.1, h.2.2⟩
  | undo tx => exact h.2.position h.1
  | undoPhase tx => exact h.2.position h.1
  | undoServe tx | undoFinish tx => exact h.2.1.position h.1
  | restore cfg previousHash | restart previousHash =>
    obtain ⟨tx, hl, hst, _⟩ := h
    exact hst.position hl
  | remove =>
    obtain ⟨tx, hl, ⟨hst, _⟩ | hcomm⟩ := h
    · exact hst.position hl
    · exact hcomm.position hl

/-- A started transaction whose configuration is the old one fits the state. -/
theorem Started.matches (h : Started w tx) (hmita : w.mita.1 = tx.before) : Matches w := by
  unfold Matches
  rw [h.state, hmita, h.ok.oldHash, h.ok.previousHash]

omit [DecidableEq Digest] in
theorem Committed.matches (h : Committed w tx) : Matches w := by
  unfold Matches
  rw [h.state, h.mita, h.ok.newHash, h.ok.desiredHash]

/-- Applying the old configuration keeps a transaction started. -/
theorem Started.applyBefore (h : Started w tx) :
    Started { w with mita := .ofConfig site tx.before } tx := by
  obtain ⟨phase, hjrn, _⟩ := h.journal
  exact ⟨h.ok, h.state, h.backup, .inl h.ok.held, phase, hjrn, fun _ => h.ok.held⟩

/-- Applying the new configuration does, under the journal as it was first
written. -/
theorem Started.applyDesired (h : Started w tx) (hjrn : w.journal = some tx.journal) :
    Started { w with mita := .ofConfig site tx.desired } tx := by
  refine ⟨h.ok, h.state, h.backup, .inr rfl, tx.journal.phase, hjrn, fun hph => ?_⟩
  rw [h.ok.phase] at hph
  cases hph

/-- Noting a phase keeps a transaction started. -/
theorem Started.setPhase (h : Started w tx)
    (hph : phase = .rollbackApplied → w.mita.1 = tx.before) :
    Started (w.setPhase site tx phase) tx :=
  ⟨h.ok, h.state, h.backup, h.mita, phase, rfl, hph⟩

/-- Writing the state commits. -/
theorem Started.commit (h : Started w tx) (hmita : w.mita.1 = tx.expected site) :
    Committed { w with state := tx.next } tx := by
  obtain ⟨phase, hjrn, _⟩ := h.journal
  exact ⟨h.ok, rfl, hmita, phase, hjrn⟩

/-! ## Steps -/

/-- What a change may do to the state file: leave what the transaction itself is
going to set, and all but three operations leave the rows. -/
structure Follows (s : State Digest Section Doc) (ch : Change Digest Section Rest Doc) : Prop where
  generation : ch.state.generation = s.generation
  revision : ch.state.revision = s.revision
  configHash : ch.state.configHash = s.configHash
  rows : ch.operation ∉ movesRows →
    ch.state.disabled = s.disabled ∧ ch.state.tombstones = s.tombstones

theorem plan_follows [DecidableEq Doc] {s : State Digest Section Doc} {c : Config Section Rest}
    (h : plan site env s c r = .ok (.change ch)) : Follows s ch := by
  cases r <;>
    simp only [plan, createUser, disableUser, enableUser, rotateUser, deleteUser, setQuotas,
      egressApply, egressRollback, egressRefresh, bind, Except.bind, pure, Except.pure, throw,
      throwThe, MonadExceptOf.throw] at h <;>
    repeat' split at h
  all_goals first
    | cases h; exact ⟨rfl, rfl, rfl, fun _ => ⟨rfl, rfl⟩⟩
    | cases h; exact ⟨rfl, rfl, rfl, fun hop => (hop (by simp [movesRows])).elim⟩
    | cases h

/-- A transaction that is prepared is in order, and starts from the files. -/
theorem prepare_ok {file : State Digest Section Doc} {before : Config Section Rest}
    {tx : Tx Digest Section Rest Doc} (hfol : Follows file ch)
    (hheld : before.readback site.sha256 = before) (h : prepare site file before ch = .ok tx) :
    TxOk site tx ∧ tx.old = file ∧ tx.before = before := by
  simp only [prepare, bind, Except.bind, pure, Except.pure, throw, throwThe,
    MonadExceptOf.throw] at h
  split at h
  · cases h
  · split at h
    · cases h
    next hval =>
      split at h
      · cases h
      next hmode =>
        split at h
        · cases h
        next hhash =>
          cases h
          obtain ⟨hgen, hrev, hcfg, hrows⟩ := hfol
          refine ⟨?_, rfl, rfl⟩
          exact
            { phase := rfl
              previousHash := rfl
              desiredHash := rfl
              oldHash := hcfg.symm.trans (not_not.mp hhash).symm
              oldGeneration := hgen
              oldRevision := hrev
              nextGeneration := congrArg (· + 1) hgen
              nextRevision := by
                rw [hgen]
                rfl
              newHash := rfl
              newGeneration := rfl
              newRevision := rfl
              backup := by rw [← hgen, ← hrev]
              backupSha256 := rfl
              mode := not_not.mp hmode
              valid := by rw [hval]; rfl
              held := hheld
              rows := hrows }

/-- Writing the backup of a transaction keeps the position: a journal that is
left names the same backup only where it is of the same configuration. -/
theorem Position.putBackup (hinj : Function.Injective site.hash) (h : Position w last)
    (hok : TxOk site tx) (hsta : w.state = tx.old) :
    Position { w with backups := put w.backups tx.journal.backup tx.before } last := by
  rcases h with ⟨hjrn, hmat⟩ | ⟨tx₀, hl, hst | hcomm⟩
  · exact .inl ⟨hjrn, hmat⟩
  · refine .inr ⟨tx₀, hl, .inl ?_⟩
    have hold : tx.old = tx₀.old := hsta.symm.trans hst.state
    have hnm : tx₀.journal.backup = tx.journal.backup := by
      rw [hst.ok.backup, hok.backup, hold]
    have hbef : tx.before = tx₀.before := by
      have hhash : site.hash (.config tx.before) = site.hash (.config tx₀.before) := by
        rw [← hok.previousHash, ← hok.oldHash, hold, hst.ok.oldHash, hst.ok.previousHash]
      injection hinj hhash
    refine ⟨hst.ok, hst.state, ?_, hst.mita, hst.journal⟩
    rw [hnm, find_put_self, hbef]
  · exact .inr ⟨tx₀, hl, .inr ⟨hcomm.ok, hcomm.state, hcomm.mita, hcomm.journal⟩⟩

/-- What a step with an effect leads to: both ways it can have had it, and the
way it did not. -/
theorem inside_effect {f : World site → World site} {done failed : Control Digest Section Rest Doc}
    (hdone : Inside (f m.world) m.last done) (hlate : Inside (f m.world) m.last failed)
    (hlost : Inside m.world m.last failed) :
    Inside (m.effect o f done failed).world (m.effect o f done failed).last
      (m.effect o f done failed).control := by
  cases o with
  | done => exact hdone
  | lost => exact hlost
  | late => exact hlate

/-! ## Recovery -/

/-- A committed transaction is found committed. -/
theorem recovery_committed (h : Committed w tx) (phase : Phase) :
    recovery site w { tx.journal with phase } = .ok .committed := by
  have hok := h.ok
  have hjrn : ¬ (tx.journal.backup ≠ (tx.journal.stateGeneration, tx.journal.stateRevision)
      ∨ tx.journal.nextGeneration ≠ tx.journal.stateGeneration + 1) := by
    rw [hok.backup, hok.oldGeneration, hok.oldRevision, hok.nextGeneration]
    simp
  have hcomm : w.state.generation = tx.journal.nextGeneration
      ∧ w.state.revision = tx.journal.nextRevision
      ∧ w.state.configHash = tx.journal.desiredConfigHash
      ∧ site.hash (.config w.mita.1) = tx.journal.desiredConfigHash := by
    rw [h.state, h.mita]
    exact ⟨hok.newGeneration, hok.newRevision, hok.newHash, hok.desiredHash.symm⟩
  unfold recovery
  simp only [if_neg hjrn, if_pos hcomm]

/-- **What recovery asks of a transaction that was not committed**: where `mita`
holds the new configuration, the transaction leaves the disabled users and the
tombstones as they are; where the journal says `applied`, `mita` does hold
it. -/
def Accepted (w : World site) (tx : Tx Digest Section Rest Doc) (phase : Phase) : Prop :=
  (w.mita.1 = tx.expected site →
    tx.next.disabled = tx.old.disabled ∧ tx.next.tombstones = tx.old.tombstones)
  ∧ (phase = .applied → w.mita.1 = tx.expected site)

section

variable (hinj : Function.Injective site.hash)

include hinj

/-- The configuration `mita` holds, by its digest. -/
theorem Started.hash_eq_desired_iff (h : Started w tx) :
    site.hash (.config w.mita.1) = tx.journal.desiredConfigHash ↔ w.mita.1 = tx.expected site := by
  rw [h.ok.desiredHash]
  refine ⟨fun heq => ?_, fun heq => by rw [heq]⟩
  injection hinj heq

theorem Started.hash_eq_previous_iff (h : Started w tx) :
    site.hash (.config w.mita.1) = tx.journal.previousConfigHash ↔ w.mita.1 = tx.before := by
  rw [h.ok.previousHash]
  refine ⟨fun heq => ?_, fun heq => by rw [heq]⟩
  injection hinj heq

/-- The phase allows the configuration exactly where the second condition
holds. -/
theorem Started.allowed_iff (h : Started w tx) (hjrn : w.journal = some { tx.journal with phase }) :
    site.hash (.config w.mita.1)
        ∈ phase.allowed tx.journal.previousConfigHash tx.journal.desiredConfigHash
      ↔ (phase = .applied → w.mita.1 = tx.expected site) := by
  cases phase with
  | prepared =>
    refine ⟨fun _ hp => (by cases hp), fun _ => ?_⟩
    rcases h.mita with hbef | hexp
    · exact List.mem_cons.mpr (.inl ((h.hash_eq_previous_iff hinj).mpr hbef))
    · exact List.mem_cons_of_mem _ (List.mem_singleton.mpr ((h.hash_eq_desired_iff hinj).mpr hexp))
  | applied =>
    rw [Phase.allowed, List.mem_singleton, h.hash_eq_desired_iff hinj]
    exact ⟨fun heq _ => heq, fun himp => himp rfl⟩
  | rollbackApplied =>
    refine ⟨fun _ hp => (by cases hp), fun _ => ?_⟩
    obtain ⟨phase, hj, hph⟩ := h.journal
    rw [hjrn] at hj
    have hp : phase = .rollbackApplied := by
      injection hj with hj
      exact (congrArg Journal.phase hj).symm
    exact List.mem_singleton.mpr ((h.hash_eq_previous_iff hinj).mpr (hph hp))

/-- The next revision is found exactly where the first condition holds. -/
theorem Started.nextRevision_iff (h : Started w tx) (hmita : w.mita.1 = tx.expected site) :
    tx.journal.nextRevision = site.hash
        (.revision w.mita.1 w.state.disabled w.state.tombstones tx.journal.nextGeneration)
      ↔ tx.next.disabled = tx.old.disabled ∧ tx.next.tombstones = tx.old.tombstones := by
  rw [h.ok.nextRevision, h.ok.nextGeneration, h.state, hmita]
  refine ⟨fun heq => ?_, fun ⟨hdis, htombs⟩ => by rw [hdis, htombs]⟩
  injection hinj heq with _ hdis htombs
  exact ⟨hdis, htombs⟩

/-- Of all the checks of recovery, a transaction that was not committed can
fail two. -/
theorem recovery_started_eq (h : Started w tx) (phase : Phase) :
    recovery site w { tx.journal with phase } = if site.hash (.config w.mita.1)
          ∉ phase.allowed tx.journal.previousConfigHash tx.journal.desiredConfigHash then
        .error "observed config does not match journal phase"
      else if site.hash (.config w.mita.1) = tx.journal.desiredConfigHash
          ∧ tx.journal.nextRevision ≠ site.hash
            (.revision w.mita.1 w.state.disabled w.state.tombstones tx.journal.nextGeneration) then
        .error "journal next revision mismatch"
      else .ok (.restore tx.before
        (decide (site.hash (.config w.mita.1) ≠ tx.journal.previousConfigHash))) := by
  have hok := h.ok
  have hshape : ¬ (tx.journal.backup ≠ (tx.journal.stateGeneration, tx.journal.stateRevision)
      ∨ tx.journal.nextGeneration ≠ tx.journal.stateGeneration + 1) := by
    rw [hok.backup, hok.oldGeneration, hok.oldRevision, hok.nextGeneration]
    simp
  have hnew : ¬ (w.state.generation = tx.journal.nextGeneration
      ∧ w.state.revision = tx.journal.nextRevision
      ∧ w.state.configHash = tx.journal.desiredConfigHash
      ∧ site.hash (.config w.mita.1) = tx.journal.desiredConfigHash) := by
    rw [h.state, hok.nextGeneration]
    exact fun hall => absurd hall.1 (Nat.ne_of_lt (Nat.lt_succ_self _))
  have hold : ¬ (w.state.generation ≠ tx.journal.stateGeneration
      ∨ w.state.revision ≠ tx.journal.stateRevision
      ∨ w.state.configHash ≠ tx.journal.previousConfigHash) := by
    rw [h.state, hok.oldGeneration, hok.oldRevision, hok.oldHash]
    simp
  have hval : ¬ (validateConfig site tx.before).isOk = false := by
    rw [hok.valid]
    exact Bool.true_eq_false_eq_False
  have hmode : ¬ (site.hash (.config w.mita.1) = tx.journal.desiredConfigHash
      ∧ tx.journal.mode ≠ modeFor tx.journal.operation tx.before w.mita.1) := by
    rintro ⟨hdes, hne⟩
    rw [(h.hash_eq_desired_iff hinj).mp hdes] at hne
    exact hne hok.mode
  unfold recovery
  rw [if_neg hshape, if_neg hnew, if_neg hold, h.backup]
  dsimp only
  rw [if_neg (not_not.mpr hok.backupSha256.symm), if_neg hval,
    if_neg (not_not.mpr hok.previousHash.symm), if_neg hmode]

/-- **Recovery of a transaction that was not committed**: it restores the old
configuration where it is accepted, and refuses otherwise. -/
theorem recovery_of_accepted (h : Started w tx)
    (hjrn : w.journal = some { tx.journal with phase }) (hacc : Accepted w tx phase) :
    recovery site w { tx.journal with phase } = .ok (.restore tx.before
      (decide (site.hash (.config w.mita.1) ≠ tx.journal.previousConfigHash))) := by
  rw [recovery_started_eq hinj h, if_neg (not_not.mpr ((h.allowed_iff hinj hjrn).mpr hacc.2)),
    if_neg]
  rintro ⟨hdes, hne⟩
  have hmita := (h.hash_eq_desired_iff hinj).mp hdes
  exact hne ((h.nextRevision_iff hinj hmita).mpr (hacc.1 hmita))

theorem recovery_of_not_accepted (h : Started w tx)
    (hjrn : w.journal = some { tx.journal with phase }) (hacc : ¬ Accepted w tx phase) :
    ∃ e, recovery site w { tx.journal with phase } = .error e := by
  rw [recovery_started_eq hinj h]
  by_cases hall : phase = .applied → w.mita.1 = tx.expected site
  · -- the phase allows it, so the revision is the one that is not found
    have hrows : ¬ (w.mita.1 = tx.expected site →
        tx.next.disabled = tx.old.disabled ∧ tx.next.tombstones = tx.old.tombstones) :=
      fun himp => hacc ⟨himp, hall⟩
    obtain ⟨hmita, hchg⟩ := Classical.not_imp.mp hrows
    rw [if_neg (not_not.mpr ((h.allowed_iff hinj hjrn).mpr hall)),
      if_pos ⟨(h.hash_eq_desired_iff hinj).mpr hmita,
        fun heq => hchg ((h.nextRevision_iff hinj hmita).mp heq)⟩]
    exact ⟨_, rfl⟩
  · rw [if_pos (fun hmem => hall ((h.allowed_iff hinj hjrn).mp hmem))]
    exact ⟨_, rfl⟩

end

/-! ## Every run -/

section EveryRun

variable [DecidableEq Doc] {m' : Machine site}

/-- The files of a request that is prepared. -/
theorem inside_request (h : Inside m.world m.last m.control)
    (hs : step site m (.request env r) = some m') : Inside m'.world m'.last m'.control := by
  simp only [step] at hs
  split at hs
  · split at hs
    next ch hp =>
      split at hs
      next tx hprep =>
        cases hs
        obtain ⟨hok, hold, hbef⟩ := prepare_ok (plan_follows hp) m.world.mita.2 hprep
        exact ⟨h.position, hok, hold.symm, hbef.symm⟩
      · cases hs
        exact h
    · cases hs
      exact h
  · cases hs

/-- The files of a process that starts. -/
theorem inside_start (hinj : Function.Injective site.hash) (h : Inside m.world m.last m.control)
    (hs : step site m .start = some m') : Inside m'.world m'.last m'.control := by
  simp only [step] at hs
  split at hs
  next hdown =>
    rw [hdown] at h
    split at hs
    · cases hs
      exact h
    next j hjrn =>
      rcases h with ⟨hn, _⟩ | ⟨tx, hl, hst | hcomm⟩
      · rw [hn] at hjrn
        cases hjrn
      · obtain ⟨phase, hj, hph⟩ := hst.journal
        obtain rfl : j = { tx.journal with phase } := Option.some.inj (hjrn.symm.trans hj)
        by_cases hacc : Accepted m.world tx phase
        · rw [recovery_of_accepted hinj hst hj hacc] at hs
          by_cases hhash : site.hash (.config m.world.mita.1) = tx.journal.previousConfigHash
          · simp only [hhash, ne_eq, not_true_eq_false, decide_false] at hs
            cases hs
            exact ⟨tx, hl, hst, rfl⟩
          · simp only [hhash, ne_eq, not_false_eq_true, decide_true] at hs
            cases hs
            exact ⟨tx, hl, hst, rfl, rfl⟩
        · obtain ⟨e, he⟩ := recovery_of_not_accepted hinj hst hj hacc
          rw [he] at hs
          cases hs
          rw [hdown]
          exact hst.position hl
      · obtain ⟨phase, hj⟩ := hcomm.journal
        obtain rfl : j = { tx.journal with phase } := Option.some.inj (hjrn.symm.trans hj)
        rw [recovery_committed hcomm phase] at hs
        cases hs
        exact ⟨tx, hl, .inr hcomm⟩
  · cases hs

/-- The files after the next step, however it ends. -/
theorem inside_next (hinj : Function.Injective site.hash) (h : Inside m.world m.last m.control)
    (hs : step site m (.next o) = some m') : Inside m'.world m'.last m'.control := by
  obtain ⟨w, control, last⟩ := m
  cases control with
  | down => cases hs
  | up => cases hs
  | backup tx =>
    cases hs
    obtain ⟨hpos, hok, hsta, hmita⟩ := h
    have hput := hpos.putBackup hinj hok hsta
    exact inside_effect ⟨⟨hput, hok, hsta, hmita⟩, find_put_self _ _ _⟩ hput hpos
  | journal tx =>
    cases hs
    obtain ⟨⟨hpos, hok, hsta, hmita⟩, hbackup⟩ := h
    have hst : Started { w with journal := some tx.journal } tx :=
      ⟨hok, hsta, hbackup, .inl hmita, tx.journal.phase, rfl, fun _ => hmita⟩
    cases o with
    | done => exact ⟨rfl, hst, rfl⟩
    | lost => exact hpos
    | late => exact hst.position rfl
  | apply tx =>
    cases hs
    obtain ⟨hl, hst, hjrn⟩ := h
    have happ := hst.applyDesired hjrn
    exact inside_effect ⟨hl, happ⟩ ⟨hl, happ⟩ ⟨hl, hst⟩
  | phase tx =>
    cases hs
    obtain ⟨hl, hst⟩ := h
    have hph : Started (w.setPhase site tx .applied) tx :=
      hst.setPhase fun hp => (by cases hp)
    exact inside_effect ⟨hl, hph⟩ ⟨hl, hph⟩ ⟨hl, hst⟩
  | serve tx =>
    obtain ⟨hl, hst⟩ := h
    simp only [step] at hs
    split at hs
    · cases hs
      exact ⟨hl, hst⟩
    next hrd =>
      cases hs
      have hmita := (hst.hash_eq_desired_iff hinj).mp (not_not.mp hrd)
      exact inside_effect ⟨hl, hst, hmita⟩ ⟨hl, hst⟩ ⟨hl, hst⟩
  | commit tx =>
    cases hs
    obtain ⟨hl, hst, hmita⟩ := h
    have hcomm := hst.commit hmita
    exact inside_effect ⟨hl, hcomm⟩ (hcomm.position hl) (hst.position hl)
  | finish tx =>
    cases hs
    obtain ⟨hl, hcomm⟩ := h
    have hgone : Position { w with journal := none } last := .inl ⟨rfl, hcomm.matches⟩
    refine inside_effect ?_ hgone (hcomm.position hl)
    split
    · exact hgone
    · exact ⟨rfl, hcomm.state, hcomm.matches⟩
  | sync tx =>
    cases hs
    obtain ⟨hn, hsta, hmat⟩ := h
    have hpos : Position w last := .inl ⟨hn, hmat⟩
    cases o with
    | done => exact hpos
    | lost => exact hpos
    | late =>
      refine .inl ⟨hn, ?_⟩
      rw [← hsta]
      exact hmat
  | undo tx =>
    cases hs
    obtain ⟨hl, hst⟩ := h
    have hund := hst.applyBefore
    exact inside_effect ⟨hl, hund⟩ (hund.position hl) (hst.position hl)
  | undoPhase tx =>
    obtain ⟨hl, hst⟩ := h
    simp only [step] at hs
    split at hs
    · cases hs
      exact hst.position hl
    next hrd =>
      cases hs
      have hmita := (hst.hash_eq_previous_iff hinj).mp (not_not.mp hrd)
      have hph : Started (w.setPhase site tx .rollbackApplied) tx :=
        hst.setPhase fun _ => hmita
      exact inside_effect ⟨hl, hph, hmita⟩ (hph.position hl) (hst.position hl)
  | undoServe tx =>
    cases hs
    exact inside_effect h (h.2.1.position h.1) (h.2.1.position h.1)
  | undoFinish tx =>
    cases hs
    obtain ⟨hl, hst, hmita⟩ := h
    have hgone : Position { w with journal := none } last := .inl ⟨rfl, hst.matches hmita⟩
    exact inside_effect hgone hgone (hst.position hl)
  | restore cfg previousHash =>
    cases hs
    obtain ⟨tx, hl, hst, rfl, hprev⟩ := h
    have hund := hst.applyBefore
    exact inside_effect ⟨tx, hl, hund, hprev⟩ (hund.position hl) (hst.position hl)
  | restart previousHash =>
    obtain ⟨tx, hl, hst, rfl⟩ := h
    simp only [step] at hs
    split at hs
    · cases hs
      exact hst.position hl
    next hrd =>
      cases hs
      have hmita := (hst.hash_eq_previous_iff hinj).mp (not_not.mp hrd)
      exact inside_effect ⟨tx, hl, .inl ⟨hst, hmita⟩⟩ (hst.position hl) (hst.position hl)
  | remove =>
    cases hs
    have hpos := h.position
    obtain ⟨tx, hl, ⟨hst, hmita⟩ | hcomm⟩ := h
    · have hgone : Position { w with journal := none } last := .inl ⟨rfl, hst.matches hmita⟩
      exact inside_effect hgone hgone hpos
    · have hgone : Position { w with journal := none } last := .inl ⟨rfl, hcomm.matches⟩
      exact inside_effect hgone hgone hpos

/-- **Every step leads to a position.** -/
theorem inside_step (hinj : Function.Injective site.hash) {m m' : Machine site}
    {e : Event Digest Section Doc} (h : Inside m.world m.last m.control)
    (hs : step site m e = some m') : Inside m'.world m'.last m'.control := by
  cases e with
  | request env r => exact inside_request h hs
  | next o => exact inside_next hinj h hs
  | stop =>
    cases hs
    exact h.position
  | start => exact inside_start hinj h hs

/-- **Wherever a run stops, the files are in one of the positions.** -/
theorem position_of_run (hinj : Function.Injective site.hash) {w₀ : World site}
    (hjrn : w₀.journal = none) (hmat : Matches w₀) {es : List (Event Digest Section Doc)}
    (hrun : Run.exec (step site) ⟨w₀, .down, none⟩ es = some m) : Position m.world m.last := by
  have hst : Inside w₀ none (.down : Control Digest Section Rest Doc) :=
    .inl ⟨hjrn, hmat⟩
  have hins := Run.invariant (I := fun m : Machine site => Inside m.world m.last m.control)
    (fun _ _ _ h hs => inside_step hinj h hs) hrun hst
  exact hins.position

/-- The steps of a process that starts and meets no failure are those of
`recover`. -/
theorem exec_recover {w w' : World site} (last : Option (Tx Digest Section Rest Doc))
    (h : recover site w = .ok w') :
    ∃ n, Run.exec (step site) ⟨w, .down, last⟩ (.start :: List.replicate n (.next .done))
      = some ⟨w', .up, last⟩ := by
  unfold recover at h
  split at h
  next hjrn =>
    cases h
    refine ⟨0, ?_⟩
    simp [Run.exec, step, hjrn]
  next j hjrn =>
    split at h
    · cases h
    next hrec =>
      cases h
      refine ⟨1, ?_⟩
      simp [Run.exec, step, hjrn, hrec, Machine.effect, Outcome.lands]
    next cfg apply hrec =>
      cases apply with
      | true =>
        simp only [if_true] at h
        split at h
        · cases h
        next hrd =>
          cases h
          refine ⟨3, ?_⟩
          simp [Run.exec, step, hjrn, hrec, Machine.effect, Outcome.lands,
            not_not.mp hrd, List.replicate]
      | false =>
        simp only [Bool.false_eq_true, if_false] at h
        split at h
        · cases h
        next hrd =>
          cases h
          refine ⟨2, ?_⟩
          simp [Run.exec, step, hjrn, hrec, Machine.effect, Outcome.lands,
            not_not.mp hrd, List.replicate]

end EveryRun

/-! ## The guarantee -/

/-- **Recovery succeeds**: the journal is gone, the state fits the
configuration, and where there was a journal the two are those its transaction
started from, or those it leads to. -/
def Recovers (m : Machine site) : Prop :=
  ∃ w, recover site m.world = .ok w ∧ w.journal = none ∧ Matches w
    ∧ ∀ tx, m.world.journal.isSome → m.last = some tx →
      (w.state = tx.old ∧ w.mita.1 = tx.before)
        ∨ (w.state = tx.next ∧ w.mita.1 = tx.expected site)

/-- **No refused position**: where a journal is left and the state is the old
one, the transaction is accepted. -/
def Recoverable (m : Machine site) : Prop :=
  ∀ j tx, m.world.journal = some j → m.last = some tx → m.world.state = tx.old →
    Accepted m.world tx j.phase

instance [DecidableEq Section] [DecidableEq Rest] (w : World site)
    (tx : Tx Digest Section Rest Doc) (phase : Phase) : Decidable (Accepted w tx phase) :=
  inferInstanceAs (Decidable ((_ → _) ∧ (_ → _)))

instance [DecidableEq Section] [DecidableEq Rest] [DecidableEq Doc] (m : Machine site) :
    Decidable (Recoverable m) :=
  match hj : m.world.journal, hl : m.last with
  | some j, some tx =>
    decidable_of_iff (m.world.state = tx.old → Accepted m.world tx j.phase) (by
      simp [Recoverable, hj, hl])
  | none, _ => .isTrue (by simp [Recoverable, hj])
  | _, none => .isTrue (by simp [Recoverable, hl])

omit [DecidableEq Digest] in
/-- The old and the new state differ. -/
theorem TxOk.next_ne_old (h : TxOk site tx) : tx.next ≠ tx.old := by
  intro heq
  have hgen := h.newGeneration.trans h.nextGeneration
  rw [heq] at hgen
  exact absurd hgen (Nat.ne_of_lt (Nat.lt_succ_self _))

/-- What recovery leads to where it restores the old configuration. -/
theorem recover_of_accepted (hinj : Function.Injective site.hash) (h : Started w tx)
    (hjrn : w.journal = some { tx.journal with phase }) (hacc : Accepted w tx phase) :
    ∃ w', recover site w = .ok w' ∧ w'.journal = none ∧ w'.state = tx.old
      ∧ w'.mita.1 = tx.before := by
  unfold recover
  rw [hjrn]
  simp only [recovery_of_accepted hinj h hjrn hacc]
  by_cases hhash : site.hash (.config w.mita.1) = tx.journal.previousConfigHash
  · simp only [hhash, ne_eq, not_true_eq_false, decide_false, Bool.false_eq_true, if_false]
    exact ⟨_, rfl, rfl, h.state, (h.hash_eq_previous_iff hinj).mp hhash⟩
  · have hback : site.hash (.config (Held.ofConfig site tx.before).1)
        = tx.journal.previousConfigHash := by
      rw [h.ok.previousHash]
      exact congrArg (fun c => site.hash (.config c)) h.ok.held
    simp only [hhash, ne_eq, not_false_eq_true, decide_true, if_true, hback, not_true_eq_false,
      if_false]
    exact ⟨_, rfl, rfl, h.state, h.ok.held⟩

/-- From a position recovery succeeds exactly where it is not refused. -/
theorem recovers_iff_of_position (hinj : Function.Injective site.hash) (h : Position m.world m.last)
    : Recovers m ↔ Recoverable m := by
  rcases h with ⟨hn, hmat⟩ | ⟨tx, hl, hst | hcomm⟩
  · refine ⟨fun _ j tx hj => ?_, fun _ => ⟨m.world, ?_, hn, hmat, fun tx hsm => ?_⟩⟩
    · rw [hn] at hj
      cases hj
    · unfold recover
      rw [hn]
    · rw [hn] at hsm
      cases hsm
  · obtain ⟨phase, hjrn, _⟩ := hst.journal
    constructor
    · rintro ⟨w, hrecover, _⟩ j tx' hj hl' _
      obtain rfl : tx = tx' := Option.some.inj (hl.symm.trans hl')
      obtain rfl : j = { tx.journal with phase } := Option.some.inj (hj.symm.trans hjrn)
      by_contra href
      obtain ⟨e, he⟩ := recovery_of_not_accepted hinj hst hjrn href
      unfold recover at hrecover
      rw [hjrn] at hrecover
      simp only [he] at hrecover
      cases hrecover
    · intro hrec
      have hacc : Accepted m.world tx phase := hrec _ tx hjrn hl hst.state
      obtain ⟨w, hrecover, hgone, hsta, hmita⟩ :=
        recover_of_accepted hinj hst hjrn hacc
      refine ⟨w, hrecover, hgone, ?_, fun tx' _ hl' => .inl ?_⟩
      · unfold Matches
        rw [hsta, hmita, hst.ok.oldHash, hst.ok.previousHash]
      · obtain rfl : tx = tx' := Option.some.inj (hl.symm.trans hl')
        exact ⟨hsta, hmita⟩
  · obtain ⟨phase, hjrn⟩ := hcomm.journal
    refine ⟨fun _ j tx' _ hl' hold => ?_, fun _ => ?_⟩
    · obtain rfl : tx = tx' := Option.some.inj (hl.symm.trans hl')
      exact absurd (hcomm.state.symm.trans hold) hcomm.ok.next_ne_old
    · refine ⟨{ m.world with journal := none }, ?_, rfl, hcomm.matches, fun tx' _ hl' =>
        .inr ?_⟩
      · unfold recover
        rw [hjrn]
        simp only [recovery_committed hcomm phase]
      · obtain rfl : tx = tx' := Option.some.inj (hl.symm.trans hl')
        exact ⟨hcomm.state, hcomm.mita⟩

/-- **Recovery after a stop at any point**, in every run of requests, failures,
stops and recoveries: it succeeds, and leaves a matching pair, exactly where
no refused position was left. -/
theorem recovers_iff_recoverable [DecidableEq Doc] (hinj : Function.Injective site.hash)
    {w₀ : World site} (hjournal : w₀.journal = none) (hmatches : Matches w₀)
    {es : List (Event Digest Section Doc)} {m : Machine site}
    (hrun : Run.exec (step site) ⟨w₀, .down, none⟩ es = some m) : Recovers m ↔ Recoverable m :=
  recovers_iff_of_position hinj (position_of_run hinj hjournal hmatches hrun)

end Mieru

namespace Mieru.Sample

def alice : User := ⟨"alice", some "", some (String.ofList (List.replicate 64 'a')), none, none, none⟩

def createBob : Request (Hashed Unit Unit) Unit :=
  .create ⟨"bob", [], revision id [alice], false, false, false, some "correct-horse-battery", none⟩

def disableAlice : Request (Hashed Unit Unit) Unit := .disable "alice" (revision id [alice])

/-- A run where a digest is what it was taken of. -/
def run (es : List (Event (Hashed Unit Unit) Unit Unit)) : Option (Machine (site id)) :=
  Run.exec (step (site id)) ⟨world id [alice], .down, none⟩ es

/-- A stop after `bob` was applied is recovered from. -/
theorem recovers_createBob :
    ∃ m, run [.start, .request env createBob, .next .done, .next .done, .next .done,
      .stop] = some m ∧ Recovers m := by
  have hmap : (run [.start, .request env createBob, .next .done, .next .done,
      .next .done, .stop]).map (fun m => decide (Recoverable m)) = some true := by
    decide +kernel
  obtain ⟨m, hrun, hrec⟩ := Option.map_eq_some_iff.mp hmap
  have hinj : Function.Injective (site id).hash := Function.injective_id
  have hmatches : Matches (world id [alice]) := rfl
  exact ⟨m, hrun, (recovers_iff_recoverable hinj rfl hmatches hrun).mpr (of_decide_eq_true hrec)⟩

/-- **Two stops that are not recovered from.** One after the configuration
without `alice` was applied, to disable it; one in the rollback of a creation
that failed, after the old configuration was applied. -/
theorem stopped_not_recovered :
    (∃ m, run [.start, .request env disableAlice, .next .done, .next .done,
        .next .done, .stop] = some m ∧ ¬ Recovers m)
      ∧ ∃ m, run [.start, .request env createBob, .next .done, .next .done, .next .done,
        .next .done, .next .lost, .next .done, .stop] = some m ∧ ¬ Recovers m := by
  have hmap : ∀ es, (run es).map (fun m => (recover (site id) m.world).isOk) = some false →
      ∃ m, run es = some m ∧ ¬ Recovers m := by
    intro es hes
    obtain ⟨m, hrun, hrefused⟩ := Option.map_eq_some_iff.mp hes
    refine ⟨m, hrun, fun ⟨w, hok, _⟩ => ?_⟩
    rw [hok] at hrefused
    cases hrefused
  exact ⟨hmap _ (by decide +kernel), hmap _ (by decide +kernel)⟩

end Mieru.Sample
