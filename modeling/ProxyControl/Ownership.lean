import ProxyControl.Reconciler

/-!
# Whose users the reconcile touches

The reconcile asks its own rows whether a runtime user is the central's. This
module proves the two halves of what that is worth.

The first half needs no assumption. A pass reads the rows once, at its
beginning, and goes by that copy to its end; nothing but the pass itself writes
rows meanwhile, it comes to every name once, and what it does under one name
leaves the rows of the others alone. So at the moment it rotates, enables,
disables, updates or deletes a user, the row of that name is there and is not
`missing` (`managed_of_touching`) – whatever the inventories say, whatever fails,
and whoever moves in between.

The second half is that a held name is the central's user, and it is where the
code falls short. Every write that makes a name held would have to know that no
local user has the name, and five of them do not: the marks `failed` that follow
an unread inventory, for the resources and for the orphans, among them the ones
left `missing`; those of a generation that names one user twice; the placeholder
before `create`, for a user that came after the inventory was read; the mark after
a readback that does not match; and the one after an adoption that was not
written. While no such write meets a local user (`Clear`) no local user is touched
(`touches_own_of_clear`).
-/

namespace Reconciler

open List
open Prog (Safe All)
open Table

variable {Value : Type} {ε α : Type} {update : ResourceUpdate Value} {key : Key} {gen : Int}
  {P : Key → Prop} {resources : List (Resource Value)} {known : Rows Value}
  {s s' : State Value} {e : Event Value} {site : Site Value} {node : Node Value}
  {rows rows' t : Rows Value} {p : Op Value ε α} {res : Resource Value} {ad : Adapter}

/-! ## What a command does to the rows -/

section Rows

variable (node : Node Value)

@[simp] theorem rows_upsert (update : ResourceUpdate Value) :
    (node.upsert update).rows = upsertResource node.rows update := rfl

@[simp] theorem rows_adopt (key : Key) : (node.adopt key).rows = node.rows := by
  unfold Node.adopt
  split <;> rfl

@[simp] theorem rows_addUser (key : Key) (maker : Maker) :
    (node.addUser key maker).rows = node.rows := by
  unfold Node.addUser
  split <;> rfl

@[simp] theorem rows_dropUser (key : Key) : (node.dropUser key).rows = node.rows := rfl

end Rows

theorem accept_frame {d : GenerationDocument Value} {dig : String} {node' : Node Value}
    (h : accept site d dig node = .ok node') :
    node'.rows = node.rows ∧ node'.users = node.users := by
  obtain ⟨-, -, h⟩ := Checks.bind_eq_ok.mp h
  obtain ⟨new, -, h⟩ := Checks.bind_eq_ok.mp h
  rw [← Checks.pure_eq_ok.mp h]
  split <;> exact ⟨rfl, rfl⟩

/-- The command leaves the rows alone. -/
def Cmd.quiet : Cmd Value → Bool
  | .upsertResource _ | .adopt _ | .start .. | .removeResource _ => false
  | _ => true

variable {c : Cmd Value}

theorem rows_respond_of_quiet (h : c.quiet = true) (node : Node Value) (rep : Reply Value) :
    (respond node rep c).2.rows = node.rows := by
  cases c with
  | upsertResource _ | adopt _ | start _ _ | removeResource _ => cases h
  | create _ res _ | delete _ =>
    unfold respond Reply.effect
    split
    · simp
    · rfl
  | finish gen failed =>
    simp only [respond]
    split
    · unfold Reply.effect
      split <;> rfl
    · rfl
  | _ => rfl

/-- A transaction has its effect or has none, and has it where it says so. -/
theorem effect_cases (rep : Reply Value) (node : Node Value) (f : Node Value → Node Value) :
    (rep.effect node f = node ∨ rep.effect node f = f node)
      ∧ ∀ (a b : α), rep.store a = .ok b → rep.effect node f = f node ∧ b = a := by
  unfold Reply.effect Reply.store
  refine ⟨?_, fun a b h => ?_⟩
  · split
    · exact .inr rfl
    · exact .inl rfl
  · split at h
    next hdone =>
      cases h
      rw [hdone]
      exact ⟨rfl, rfl⟩
    · cases h

/-! ## The discipline

A command that changes or deletes a user is in turn while the node holds the
user. The rows are what only the pass writes. -/

/-- **Held before touched.** -/
def heldFirst : Prog.Discipline (Cmd Value) Res (Rows Value) where
  guard rows c := ∀ key, c.touches = some key → isManaged rows key = true
  next rows c answer rows' := ∃ (node : Node Value) (reply : Reply Value),
    node.rows = rows ∧ (respond node reply c).1 = answer ∧ (respond node reply c).2.rows = rows'

theorem next_of_quiet (h : c.quiet = true) {r : Res c} (hnext : heldFirst.next rows c r rows') :
    rows' = rows := by
  obtain ⟨node, rep, rfl, -, rfl⟩ := hnext
  exact rows_respond_of_quiet h node rep

/-- Every name but those of `P` has the row it had. -/
def SameOff (P : Key → Prop) (rows rows' : Rows Value) : Prop :=
  ∀ key, ¬ P key → find rows' key = find rows key

namespace SameOff

variable {P P' : Key → Prop} {rows rows' rows'' : Rows Value}

theorem refl (P : Key → Prop) (rows : Rows Value) : SameOff P rows rows := fun _ _ => rfl

theorem trans (h : SameOff P rows rows') (h' : SameOff P rows' rows'') :
    SameOff P rows rows'' := fun key hkey => (h' key hkey).trans (h key hkey)

theorem mono (hP : ∀ key, P key → P' key) (h : SameOff P rows rows') : SameOff P' rows rows' :=
  fun key hkey => h key fun hin => hkey (hP key hin)

theorem upsert (rows : Rows Value) (h : P update.key) :
    SameOff P rows (upsertResource rows update) := by
  intro key hkey
  have hne : key ≠ update.key := fun heq => hkey (heq ▸ h)
  exact find_put_of_ne hne _ _

theorem erase (rows : Rows Value) (h : P key) : SameOff P rows (erase rows key) := by
  intro key' hkey'
  have hne : key' ≠ key := fun heq => hkey' (heq ▸ h)
  rw [find_erase, if_neg hne]

end SameOff

/-- In turn, with every name but those of `P` left as it was. -/
abbrev Stays (P : Key → Prop) (rows : Rows Value) (p : Op Value ε α) (t : Rows Value) : Prop :=
  Prog.Safe heldFirst (fun _ => SameOff P rows) (fun _ => SameOff P rows) p t

/-- What stays after a part that kept more. -/
theorem Stays.after {P P' : Key → Prop} (hP : ∀ key, P key → P' key) (hoff : SameOff P' rows t)
    (h : Stays P t p t) : Stays P' rows p t :=
  Safe.mono (fun _ _ h => hoff.trans (h.mono hP)) (fun _ _ h => hoff.trans (h.mono hP)) h

/-- In turn, whatever it does to the rows. -/
abbrev InTurn (p : Op Value ε α) (rows : Rows Value) : Prop :=
  Prog.Safe heldFirst (fun _ _ => True) (fun _ _ => True) p rows

theorem isManaged_upsert_self (rows : Rows Value) (upd : ResourceUpdate Value) :
    isManaged (upsertResource rows upd) upd.key = decide (upd.state ≠ .missing) := by
  unfold isManaged upsertResource
  rw [find_put_self]
  rfl

theorem isManaged_congr (h : find rows' key = find rows key) :
    isManaged rows' key = isManaged rows key := by
  unfold isManaged
  rw [h]

/-! ## The transactions -/

section Transactions

variable {rows rows' : Rows Value} {r : Except ReconcileError Unit}

theorem next_upsertResource (h : heldFirst.next rows (.upsertResource update) r rows') :
    (rows' = rows ∨ rows' = upsertResource rows update)
      ∧ (r = .ok () → rows' = upsertResource rows update) := by
  obtain ⟨node, rep, rfl, rfl, rfl⟩ := h
  obtain ⟨hcs, hok⟩ := effect_cases (α := Unit) rep node (·.upsert update)
  exact ⟨hcs.imp (congrArg Node.rows) (congrArg Node.rows),
    fun h => congrArg Node.rows (hok () () h).1⟩

theorem next_adopt (h : heldFirst.next rows (.adopt update) r rows') :
    (rows' = rows ∨ rows' = upsertResource rows update)
      ∧ (r = .ok () → rows' = upsertResource rows update) := by
  obtain ⟨node, rep, rfl, rfl, rfl⟩ := h
  have hrows : ((node.upsert update).adopt update.key).rows = upsertResource node.rows update :=
    rows_adopt _ _
  obtain ⟨hcs, hok⟩ := effect_cases (α := Unit) rep node
    fun node => (node.upsert update).adopt update.key
  exact ⟨hcs.imp (congrArg Node.rows) fun h => (congrArg Node.rows h).trans hrows,
    fun h => (congrArg Node.rows (hok () () h).1).trans hrows⟩

theorem next_removeResource (h : heldFirst.next rows (.removeResource key) r rows') :
    rows' = rows ∨ rows' = erase rows key := by
  obtain ⟨node, rep, rfl, -, rfl⟩ := h
  exact (effect_cases (α := Unit) rep node (·.remove key)).1.imp
    (congrArg Node.rows) (congrArg Node.rows)

/-- The pass goes by the rows as its first transaction left them. -/
theorem next_start {refs : List (Key × String)}
    (h : heldFirst.next rows (.start gen refs) (.ok known) rows') :
    rows' = known ∧ (known.map Prod.fst).Nodup := by
  obtain ⟨node, rep, rfl, hr, rfl⟩ := h
  obtain ⟨heff, rfl⟩ := (effect_cases rep node fun _ =>
    (node.setState gen .applying).retire refs).2 _ _ hr
  exact ⟨congrArg Node.rows heff, Node.keyed _⟩

end Transactions

/-- A write of a row of `P`. -/
theorem safe_upsert (hP : P update.key) :
    Prog.Safe heldFirst (fun _ t => t = upsertResource rows update)
      (fun (_ : ReconcileError) => SameOff P rows)
      ((perform (.upsertResource update)).bind Prog.orFail) rows := by
  refine ⟨nofun, fun r t hnext => ?_⟩
  obtain ⟨hcs, hok⟩ := next_upsertResource hnext
  refine Prog.Safe.orFail (fun _ h => hok h) fun _ _ => ?_
  rcases hcs with h | h
  · rw [h]
    exact SameOff.refl P rows
  · rw [h]
    exact SameOff.upsert rows hP

theorem safe_record (hP : P res.key) (gen : Int) (state : ObservedState)
    (e rev credentialRef : Option String) (learned : Option (Options Value)) :
    Stays P rows (record gen res state e rev credentialRef learned) rows := by
  refine Safe.mono (fun _ t ht => ?_) (fun _ _ ht => ht) (safe_upsert hP)
  rw [ht]
  exact SameOff.upsert rows hP

/-! ## One resource

Most of what is done about a user writes no row and touches that user only. -/

/-- The command leaves the rows alone and touches no user but one. -/
def Cmd.OnlyAt (key : Key) (c : Cmd Value) : Prop :=
  c.quiet = true ∧ ∀ key', c.touches = some key' → key' = key

theorem Cmd.OnlyAt.of_touches (hq : c.quiet = true) (htou : c.touches = some key) : c.OnlyAt key :=
  ⟨hq, fun _ h => Option.some.inj (h.symm.trans htou)⟩

/-- While the node holds the user, a stretch of such commands is in turn. -/
theorem safe_of_onlyAt (hp : p.All (Cmd.OnlyAt key)) {I : Rows Value → Prop}
    (hI : ∀ t, I t → isManaged t key = true) (hrows : I rows) :
    Safe heldFirst (fun _ => I) (fun _ => I) p rows := by
  refine Safe.of_all (hp.mono fun c hc t ht => ⟨fun key' hkey' => ?_, fun r t' hnext => ?_⟩) hrows
  · rw [hc.2 key' hkey']
    exact hI t ht
  · rw [next_of_quiet hc.1 hnext]
    exact ht

section OnlyAt

variable (site : Site Value) (res : Resource Value) {key : Key}

theorem all_orStep (x : Except String α) : (orStep x : Op Value Step α).All (Cmd.OnlyAt key) :=
  All.orFail _

theorem all_wanted : (wanted res : Op Value ε Bool).All (Cmd.OnlyAt key) :=
  ⟨⟨rfl, nofun⟩, fun _ => trivial⟩

theorem all_plan : (plan res).All (Cmd.OnlyAt key) := by
  unfold plan
  split
  · trivial
  · refine All.ask_bind ⟨rfl, nofun⟩ fun r => All.bind (All.orFail _) fun a => ?_
    split <;> trivial

theorem all_collect (applied : AppliedGrant Value) (plan : CredentialPlan) :
    (collect site res applied plan).All (Cmd.OnlyAt key) := by
  unfold collect
  dsimp only
  split
  · trivial
  · split
    · exact All.bind (all_orStep _) fun _ => ⟨⟨rfl, nofun⟩, fun _ => trivial⟩
    · trivial

theorem all_keepUser (ad : Adapter) (item : ObservedGrant Value) (stored : Option String)
    (learned : Option (Options Value)) (operationId : String) :
    (keepUser site ad res item stored learned operationId).All (Cmd.OnlyAt res.key) := by
  unfold keepUser
  dsimp only
  split
  · refine All.bind (all_plan res) fun plan => ?_
    refine All.ask_bind (.of_touches rfl rfl) fun r => ?_
    refine All.bind (all_orStep _) fun applied => ?_
    exact All.bind (all_collect site res applied plan) fun _ => trivial
  · split
    · refine All.ask_bind ⟨rfl, nofun⟩ fun r => ?_
      refine All.bind (all_orStep _) fun captured => ?_
      split
      · trivial
      · refine All.bind (all_orStep _) fun text => ?_
        exact All.ask_bind ⟨rfl, nofun⟩ fun _ => trivial
    · trivial

theorem all_setAccess (standing : Standing Value) :
    (setAccess res standing).All (Cmd.OnlyAt res.key) := by
  refine All.bind (all_wanted res) fun wanted => ?_
  split
  · split
    · refine All.ask_bind (.of_touches rfl rfl) fun r => ?_
      exact All.bind (all_orStep _) fun _ => trivial
    · refine All.ask_bind (.of_touches rfl rfl) fun r => ?_
      exact All.bind (all_orStep _) fun _ => trivial
  · trivial

theorem all_syncOptions (current : Options Value) (standing : Standing Value) :
    (syncOptions site res current standing).All (Cmd.OnlyAt res.key) := by
  unfold syncOptions
  dsimp only
  split
  · refine All.ask_bind (.of_touches rfl rfl) fun r => ?_
    refine All.bind (all_orStep _) fun applied => ?_
    split <;> trivial
  · trivial

end OnlyAt

section Resource

variable (site : Site Value) {rows : Rows Value} {res : Resource Value}
  {item : Option (ObservedGrant Value)}

/-- After the claim of a running user the node holds it. -/
theorem safe_claim {stored : Option (Option String)}
    (hsto : stored.isSome = true → isManaged rows res.key = true) :
    Safe heldFirst (fun _ t => SameOff (· = res.key) rows t
        ∧ (item.isSome = true → isManaged t res.key = true))
      (fun _ => SameOff (· = res.key) rows)
      (claim site res item stored gen) rows := by
  unfold claim
  split
  · split
    · exact SameOff.refl _ rows
    · refine Safe.ask_bind nofun fun r t hnext => ?_
      obtain ⟨hcs, hok⟩ := next_adopt hnext
      have hoff : SameOff (· = res.key) rows t := by
        rcases hcs with h | h
        · rw [h]
          exact SameOff.refl _ rows
        · rw [h]
          exact SameOff.upsert rows rfl
      refine Safe.bind (Safe.orFail (fun a ha => ?_) fun _ _ => hoff)
      refine ⟨hoff, fun _ => ?_⟩
      have hr : r = .ok () := by
        cases r with
        | ok _ => rfl
        | error _ => cases ha
      rw [hok hr]
      refine (isManaged_upsert_self rows _).trans (decide_eq_true ?_)
      unfold stateOf
      split <;> nofun
  next hne =>
    refine ⟨SameOff.refl _ rows, fun hitem => hsto ?_⟩
    cases stored with
    | some _ => rfl
    | none =>
      obtain ⟨item, rfl⟩ := Option.isSome_iff_exists.mp hitem
      exact absurd rfl (hne item rfl)

/-- The node holds a user before it creates it. -/
theorem safe_createUser {operationId : String} : Safe heldFirst
      (fun _ t => SameOff (· = res.key) rows t ∧ isManaged t res.key = true)
      (fun _ => SameOff (· = res.key) rows)
      (createUser site res operationId gen) rows := by
  refine Safe.bind (Safe.mapError ((safe_upsert (P := (· = res.key)) rfl).imp fun _ t ht => ?_))
  have hmgd : isManaged t res.key = true := by
    rw [ht]
    exact isManaged_upsert_self rows _
  have hoff : SameOff (· = res.key) rows t := by
    rw [ht]
    exact SameOff.upsert rows rfl
  refine (safe_of_onlyAt (I := fun t => SameOff (· = res.key) rows t
    ∧ isManaged t res.key = true) ?_ (fun _ h => h.2) ⟨hoff, hmgd⟩).mono
    (fun _ _ h => h) fun _ _ h => h.1
  refine All.bind (all_plan res) fun plan => ?_
  refine All.bind (all_orStep _) fun _ => ?_
  refine All.ask_bind ⟨rfl, nofun⟩ fun r => ?_
  refine All.bind (all_orStep _) fun applied => ?_
  exact All.bind (all_collect site res applied plan) fun _ => trivial

/-- **One resource.** Whatever is done about it is done about a user the node
holds, and under the resource's own name. -/
theorem safe_applyResource {known : Option (Row Value)} (hkn : find rows res.key = known) :
    Stays (· = res.key) rows (applyResource site ad res item known gen) rows := by
  have hsto : (storedOf known).isSome = true → isManaged rows res.key = true := by
    intro h
    unfold isManaged
    rw [hkn]
    cases known with
    | none => cases h
    | some row => simpa [storedOf, Option.filter] using h
  refine (safe_claim site hsto).seq fun claimed t ht => ?_
  obtain ⟨hoff, hmgd⟩ := ht
  obtain ⟨stored, learned⟩ := claimed
  -- From here on only commands at the name, while it is held.
  have hat {p : Op Value Step (Standing Value)} {t : Rows Value} (hp : p.All (Cmd.OnlyAt res.key))
      (ht : SameOff (· = res.key) rows t ∧ isManaged t res.key = true) :
      Stays (· = res.key) rows p t :=
    (safe_of_onlyAt (I := fun t => SameOff (· = res.key) rows t
      ∧ isManaged t res.key = true) hp (fun _ h => h.2) ht).mono (fun _ _ h => h.1)
      fun _ _ h => h.1
  dsimp only
  split
  · split
    next hitem =>
      refine hat ?_ ⟨hoff, hmgd hitem⟩
      refine All.ask_bind (.of_touches rfl rfl) fun r => ?_
      exact All.bind (all_orStep _) fun _ => trivial
    · exact hoff
  · split
    · refine Safe.bind ((safe_createUser site).mono (fun standing t' ht' => ?_)
        fun _ _ h => hoff.trans h)
      exact hat (all_setAccess res standing) ⟨hoff.trans ht'.1, ht'.2⟩
    next item =>
      refine hat ?_ ⟨hoff, hmgd rfl⟩
      refine All.bind (all_keepUser site res _ item _ _ _) fun standing => ?_
      refine All.bind (all_setAccess res standing) fun standing => ?_
      exact all_syncOptions site res _ standing

end Resource

/-! ## One protocol

The names a pass still has to come to have the rows the pass found when it
began. -/

/-- The names still to come have the rows of the pass's copy. -/
def Fresh (known : Rows Value) (todo : List Key) (rows : Rows Value) : Prop :=
  ∀ key ∈ todo, find rows key = find known key

theorem Fresh.sameOff {known : Rows Value} {todo : List Key} (h : Fresh known todo rows)
    (hoff : SameOff P rows rows') (hP : ∀ key ∈ todo, ¬ P key) :
    Fresh known todo rows' := fun key hkey => (hoff key (hP key hkey)).trans (h key hkey)

section Protocol

variable (site : Site Value) {protocol : Protocol} {known rows : Rows Value} {gen : Int}
  {items : List (ObservedGrant Value)} {orphans : List String} {progress : Progress Value}
  {failed : Bool}

theorem safe_applyAndRecord (hkn : find rows res.key = find known res.key) : Safe heldFirst
      (fun progress' t => SameOff (· = res.key) rows t
        ∧ ∀ r ∈ progress'.applied, r ∈ progress.applied ∨ r = res)
      (fun _ => SameOff (· = res.key) rows)
      (applyAndRecord site ad items known gen progress res) rows := by
  have hrec (t : Rows Value) (ht : SameOff (· = res.key) rows t) (state : ObservedState)
      (e rev credentialRef : Option String) (learned : Option (Options Value))
      (progress' : Progress Value)
      (happ : ∀ r ∈ progress'.applied, r ∈ progress.applied ∨ r = res) :
      Safe heldFirst (fun progress' t => SameOff (· = res.key) rows t
          ∧ ∀ r ∈ progress'.applied, r ∈ progress.applied ∨ r = res)
        (fun _ => SameOff (· = res.key) rows)
        ((record gen res state e rev credentialRef learned).bind fun _ => .ret progress') t :=
    Safe.bind ((safe_record (P := (· = res.key)) rfl _ _ _ _ _ _).mono
      (fun _ _ h => ⟨ht.trans h, happ⟩) fun _ _ h => ht.trans h)
  refine Safe.bind (Safe.attempt ((safe_applyResource site hkn).mono
    (fun standing t ht => ?_) fun stepError t ht => ?_))
  · refine hrec t ht _ _ _ _ _ _ fun r hr => ?_
    rcases mem_append.mp hr with h | h
    · exact .inl h
    · exact .inr (mem_singleton.mp h)
  · cases stepError with
    | collision => exact ⟨ht, fun r hr => .inl hr⟩
    | failed msg => exact hrec t ht _ _ _ _ _ _ fun r hr => .inl hr

/-- Confirming writes nothing but the rows of the resources applied, and touches
no user. -/
theorem safe_confirmApplied (hP : ∀ r ∈ progress.applied, P r.key) :
    Stays P rows (confirmApplied protocol gen progress) rows := by
  unfold confirmApplied
  split
  · exact SameOff.refl P rows
  · refine Safe.ask_bind nofun fun ans t hnext => ?_
    rw [next_of_quiet rfl hnext]
    refine Safe.foldlM (I := fun l (_ : Bool) t => (∀ r ∈ l, P r.key) ∧ SameOff P rows t)
      (fun res l failed t ht => ?_) (fun _ _ h => h.2) ⟨hP, SameOff.refl P rows⟩
    obtain ⟨hl, hoff⟩ := ht
    have hq : (confirmed (Except.toOption ans) res).All fun c =>
        c.quiet = true ∧ c.touches = none := by
      unfold confirmed
      split
      · trivial
      · dsimp only
        split
        · trivial
        · split
          · trivial
          · exact ⟨⟨rfl, rfl⟩, fun _ => trivial⟩
    refine (Safe.of_all (I := SameOff P rows) (hq.mono fun c hc t ht =>
      ⟨fun key hkey => ?_, fun r t' hnext => ?_⟩) hoff).seq fun ok t' ht' => ?_
    · rw [hc.2] at hkey
      cases hkey
    · rw [next_of_quiet hc.1 hnext]
      exact ht
    · have hrest : ∀ r ∈ l, P r.key := fun r hr => hl r (mem_cons_of_mem _ hr)
      split
      · exact ⟨hrest, ht'⟩
      · exact Safe.bind ((safe_record (hl res mem_cons_self) _ _ _ _ _ _).mono
          (fun _ _ h => ⟨hrest, ht'.trans h⟩) fun _ _ h => ht'.trans h)

/-- An orphan is deleted while the node holds it. -/
theorem safe_removeOrphan {u : String} (hkey : find rows (protocol, u) = find known (protocol, u))
    (hmem : (find known (protocol, u)).isSome = true) :
    Stays (· = (protocol, u)) rows (removeOrphan protocol items known failed u) rows := by
  have hrem : Stays (· = (protocol, u)) rows
      ((perform (.removeResource (protocol, u))).bind fun ans =>
        (Prog.orFail (Except.mapError Step.ofReconcile ans) : Op Value Step Unit)) rows := by
    refine Prog.Safe.ask_bind nofun fun r t hnext => ?_
    have hoff : SameOff (· = (protocol, u)) rows t := by
      rcases next_removeResource hnext with h | h
      · rw [h]
        exact SameOff.refl _ rows
      · rw [h]
        exact SameOff.erase rows rfl
    exact Prog.Safe.orFail (fun _ _ => hoff) fun _ _ => hoff
  have hmgd : ¬ ((find known (protocol, u)).any fun row =>
      decide (row.state = .missing)) = true → isManaged rows (protocol, u) = true := by
    intro h
    obtain ⟨row, hrow⟩ := Option.isSome_iff_exists.mp hmem
    unfold isManaged
    rw [hkey, hrow]
    rw [hrow] at h
    simpa using h
  refine Prog.Safe.bind (Prog.Safe.attempt ?_)
  split
  next h =>
    refine Prog.Safe.ask_bind (fun key hk => ?_) fun r t hnext => ?_
    · cases hk
      exact hmgd (by simpa using h.2)
    · rw [next_of_quiet rfl hnext]
      exact Prog.Safe.bind (Prog.Safe.orFail (fun _ _ => hrem) fun _ _ => SameOff.refl _ rows)
  · exact hrem

/-- The orphans are all different, and have the rows of the pass's copy. -/
theorem safe_removeOrphans (horph : ∀ user ∈ orphans, (find known (protocol, user)).isSome = true)
    (hnd : (orphans.map (Prod.mk protocol)).Nodup)
    (hfr : Fresh known (orphans.map (Prod.mk protocol)) rows) :
    Stays (·.1 = protocol) rows (orphans.foldlM (removeOrphan protocol items known) failed)
      rows := by
  refine Safe.foldlM (I := fun l (_ : Bool) t => (∀ user ∈ l, user ∈ orphans)
      ∧ (l.map (Prod.mk protocol)).Nodup ∧ Fresh known (l.map (Prod.mk protocol)) t
      ∧ SameOff (·.1 = protocol) rows t)
    (fun user l failed t ht => ?_) (fun _ _ h => h.2.2.2)
    ⟨fun _ h => h, hnd, hfr, SameOff.refl _ rows⟩
  obtain ⟨hl, hlnod, hlfr, hoff⟩ := ht
  obtain ⟨huser, hlnod'⟩ := nodup_cons.mp hlnod
  have hat : ∀ key : Key, key = (protocol, user) → key.1 = protocol := fun _ h => h ▸ rfl
  refine (safe_removeOrphan (hlfr _ mem_cons_self)
    (horph user (hl user mem_cons_self))).mono (fun _ t' ht' => ?_)
    fun _ _ h => hoff.trans (h.mono hat)
  refine ⟨fun u hu => hl u (mem_cons_of_mem _ hu), hlnod', ?_, hoff.trans (ht'.mono hat)⟩
  refine Fresh.sameOff (fun key hkey => hlfr key (mem_cons_of_mem _ hkey)) ht'
    fun key hkey heq => huser (heq ▸ hkey)

/-- Marking everything failed writes the rows of the protocol, and touches no
user. -/
theorem safe_markFailed {e : String} (hres : ∀ r ∈ resources, r.protocol = protocol) :
    Stays (·.1 = protocol) rows (markFailed protocol resources orphans known gen e) rows := by
  refine Safe.bind (Safe.forM
    (I := fun l t => (∀ r ∈ l, r.protocol = protocol) ∧ SameOff (·.1 = protocol) rows t)
    (fun r l t ht => ?_) (fun t ht => ?_) ⟨hres, SameOff.refl _ rows⟩)
  · refine (safe_record (P := (·.1 = protocol)) (ht.1 r mem_cons_self) _ _ _ _ _ _).mono
      (fun _ _ h => ⟨fun r' hr' => ht.1 r' (mem_cons_of_mem _ hr'), ht.2.trans h⟩)
      fun _ _ h => ht.2.trans h
  · refine Safe.forM (I := fun (_ : List String) t => SameOff (·.1 = protocol) rows t)
      (fun u l t ht => ?_) (fun _ h => h) ht.2
    refine (safe_upsert (P := (·.1 = protocol)) rfl).mono (fun _ t' h => ?_) fun _ _ h => ht.trans h
    rw [h]
    exact ht.trans (SameOff.upsert t rfl)

/-- **One protocol.** Its resources and orphans have the rows of the pass's copy
and are all different: then every user touched is held, and the rows of the other
protocols stay as they are. -/
theorem safe_applyProtocol (hprot : ∀ r ∈ resources, r.protocol = protocol)
    (horphans : ∀ u ∈ orphans, (find known (protocol, u)).isSome = true)
    (hnd : (resources.map Resource.key ++ orphans.map (Prod.mk protocol)).Nodup)
    (hfr : Fresh known (resources.map Resource.key ++ orphans.map (Prod.mk protocol)) rows) :
    Stays (·.1 = protocol) rows (applyProtocol site protocol resources orphans known gen) rows := by
  have hmark (error : String) : Stays (·.1 = protocol) rows
      ((markFailed protocol resources orphans known gen error).bind fun _ =>
        (.ret (true, []) : Op Value ReconcileError (Bool × List (ObservedResource Value)))) rows :=
    (safe_markFailed hprot).seq fun _ _ h => h
  refine Safe.ask_bind nofun fun ad t hnext => ?_
  rw [next_of_quiet rfl hnext]
  cases ad with
  | none => exact hmark _
  | some ad =>
    refine Safe.ask_bind nofun fun discovered t hnext => ?_
    rw [next_of_quiet rfl hnext]
    cases discovered with
    | error msg => exact hmark _
    | ok items =>
      obtain ⟨hres, horph, hdisj⟩ := nodup_append.mp hnd
      have hin : ∀ key ∈ resources.map Resource.key, key.1 = protocol := by
        intro key hkey
        obtain ⟨r, hr, rfl⟩ := mem_map.mp hkey
        exact hprot r hr
      -- First the resources: those still to come, and the orphans, are as they were.
      refine Safe.bind (Safe.foldlM
        (I := fun l progress t => (∀ r ∈ l, r ∈ resources) ∧ (l.map Resource.key).Nodup
          ∧ (∀ r ∈ progress.applied, r ∈ resources)
          ∧ Fresh known (l.map Resource.key ++ orphans.map (Prod.mk protocol)) t
          ∧ SameOff (·.1 = protocol) rows t)
        (fun r l progress t ht => ?_) (fun progress t ht => ?_)
        ⟨fun _ h => h, hres, nofun, hfr, SameOff.refl _ rows⟩)
      · obtain ⟨hl, hlnod, happ, hlfr, hoff⟩ := ht
        obtain ⟨hr, hlnod'⟩ := nodup_cons.mp hlnod
        have hmem : r ∈ resources := hl r mem_cons_self
        have hat : ∀ key : Key, key = r.key → key.1 = protocol :=
          fun key hkey => hkey ▸ hprot r hmem
        refine (safe_applyAndRecord site (hlfr r.key (by simp))).mono
          (fun progress' t' ht' => ?_) fun _ _ h => hoff.trans (h.mono hat)
        refine ⟨fun r' hr' => hl r' (mem_cons_of_mem _ hr'), hlnod', fun r' hr' => ?_, ?_,
          hoff.trans (ht'.1.mono hat)⟩
        · rcases ht'.2 r' hr' with h | h
          · exact happ r' h
          · exact h ▸ hmem
        · refine Fresh.sameOff (fun key hkey => hlfr key (mem_cons_of_mem _ hkey)) ht'.1
            fun key hkey heq => ?_
          rcases mem_append.mp hkey with h | h
          · exact hr (heq ▸ h)
          · exact hdisj r.key (mem_map_of_mem hmem) key h heq.symm
      · obtain ⟨-, -, happ, hfr', hoff⟩ := ht
        -- Confirming writes resources that were applied; the orphans stay.
        refine Safe.bind ((safe_confirmApplied (P := fun key => key ∈ resources.map Resource.key)
          fun r hr => mem_map_of_mem (happ r hr)).mono (fun failed t' ht' => ?_)
          fun _ _ h => hoff.trans (h.mono hin))
        have hfr'' : Fresh known (orphans.map (Prod.mk protocol)) t' := by
          refine Fresh.sameOff hfr' ht' fun key hkey hin => ?_
          exact hdisj key hin key hkey rfl
        have hoff' : SameOff (·.1 = protocol) rows t' := hoff.trans (ht'.mono hin)
        exact Safe.bind ((safe_removeOrphans horphans horph hfr'').after (fun _ h => h) hoff')

end Protocol

/-! ## The whole generation -/

section Generation

variable (site : Site Value) {rows : Rows Value}

theorem find_refsOf {r : Resource Value} (h : r ∈ resources) :
    (find (refsOf resources) r.key).isSome = true := by
  have hkeep (l : List (Resource Value)) (refs : List (Key × String)) (key : Key)
      (hkey : (find refs key).isSome = true) :
      (find (l.foldl (fun refs res =>
        put refs res.key res.reference) refs) key).isSome = true := by
    induction l generalizing refs with
    | nil => exact hkey
    | cons a l ih =>
      refine ih _ ?_
      rw [find_put]
      split
      · rfl
      · exact hkey
  unfold refsOf
  generalize ([] : List (Key × String)) = refs
  induction resources generalizing refs with
  | nil => cases h
  | cons a l ih =>
    rcases mem_cons.mp h with rfl | h
    · refine hkeep l _ _ ?_
      rw [find_put_self]
      rfl
    · exact ih h _

/-- The resources a pass applies are of different users. -/
theorem nodup_applicable (rs : List (Resource Value)) (p : Resource Value → Bool) :
    (((rs.filter fun r => ! decide (1 < countOf rs r.key)).filter p).map Resource.key).Nodup := by
  refine List.Nodup.sublist (filter_sublist.map Resource.key) ?_
  rw [nodup_iff_count_le_one]
  intro key
  by_cases hkey : key ∈ (rs.filter fun r =>
      ! decide (1 < countOf rs r.key)).map Resource.key
  · obtain ⟨r, hr, rfl⟩ := mem_map.mp hkey
    have hcnt : ¬ 1 < countOf rs r.key := by simpa using (mem_filter.mp hr).2
    refine Nat.le_trans ?_ (Nat.not_lt.mp hcnt)
    rw [count_eq_countP, countP_map, countP_eq_length_filter]
    have hfilt : ((fun x => x == r.key) ∘ Resource.key) = fun r' : Resource Value =>
        decide (r'.key = r.key) :=
      funext fun r' => beq_eq_decide _ _
    rw [hfilt]
    exact (filter_sublist.filter _).length_le
  · rw [count_eq_zero_of_not_mem hkey]
    exact Nat.zero_le 1

/-- An orphan has a row, no resource of the generation names it, and it comes
once. -/
theorem orphansOf_spec (hkn : (known.map Prod.fst).Nodup) (refs : List (Key × String))
    (protocol : Protocol) :
    ((orphansOf known refs protocol).map (Prod.mk protocol)).Nodup
      ∧ ∀ u ∈ orphansOf known refs protocol, (find known (protocol, u)).isSome = true
          ∧ find refs (protocol, u) = none := by
  have hk : (orphansOf known refs protocol).map (Prod.mk protocol)
      = (known.map Prod.fst).filter fun key =>
        key.1 = protocol ∧ (find refs key).isNone := by
    unfold orphansOf
    rw [map_map]
    refine (map_congr_left fun key hkey => ?_).trans (map_id _)
    have hp : key.1 = protocol := (of_decide_eq_true (mem_filter.mp hkey).2).1
    rw [← hp]
    rfl
  refine ⟨?_, fun u hu => ?_⟩
  · rw [hk]
    exact hkn.filter _
  · have hmem : (protocol, u) ∈ (orphansOf known refs protocol).map (Prod.mk protocol) :=
      mem_map_of_mem hu
    rw [hk] at hmem
    obtain ⟨hin, hp⟩ := mem_filter.mp hmem
    obtain ⟨⟨key, row⟩, hrow, hkey⟩ := mem_map.mp hin
    cases hkey
    exact ⟨isSome_find_of_mem hrow, Option.isNone_iff_eq_none.mp (of_decide_eq_true hp).2⟩

theorem safe_applyService (hkn : (known.map Prod.fst).Nodup)
    {acc : Bool × List (ObservedResource Value)} {protocol : Protocol}
    (hfr : ∀ key : Key, key.1 = protocol → ¬ 1 < countOf resources key →
      find rows key = find known key) :
    Stays (·.1 = protocol) rows
      (applyService site (resources.filter fun r => ! decide (1 < countOf resources r.key))
        (refsOf resources) known gen acc protocol) rows := by
  obtain ⟨horph, hspec⟩ := orphansOf_spec hkn (refsOf resources) protocol
  have hnam {r : Resource Value} (hr : r ∈ (resources.filter fun r =>
      ! decide (1 < countOf resources r.key)).filter fun r => r.protocol = protocol) :
      r ∈ resources ∧ ¬ 1 < countOf resources r.key ∧ r.protocol = protocol := by
    obtain ⟨hr, hp⟩ := mem_filter.mp hr
    obtain ⟨hr, hcnt⟩ := mem_filter.mp hr
    exact ⟨hr, by simpa using hcnt, of_decide_eq_true hp⟩
  -- A user the generation does not name is not named twice.
  have hcnt {key : Key} (hkey : find (refsOf resources) key = none) :
      ¬ 1 < countOf resources key := by
    have hemp : resources.filter (fun r => r.key = key) = [] := by
      refine filter_eq_nil_iff.mpr fun r hr hrk => ?_
      have := find_refsOf hr
      rw [of_decide_eq_true hrk, hkey] at this
      cases this
    simp [countOf, hemp]
  refine (safe_applyProtocol site (fun r hr => (hnam hr).2.2)
    (fun u hu => (hspec u hu).1) ?_ ?_).seq fun res t ht => ?_
  · refine nodup_append.mpr ⟨nodup_applicable resources _, horph, fun k hk k' hk' heq => ?_⟩
    obtain ⟨r, hr, rfl⟩ := mem_map.mp hk
    obtain ⟨u, hu, rfl⟩ := mem_map.mp hk'
    have := find_refsOf (hnam hr).1
    rw [heq, (hspec u hu).2] at this
    cases this
  · intro key hkey
    rcases mem_append.mp hkey with h | h
    · obtain ⟨r, hr, rfl⟩ := mem_map.mp h
      exact hfr r.key (hnam hr).2.2 (hnam hr).2.1
    · obtain ⟨u, hu, rfl⟩ := mem_map.mp h
      exact hfr _ rfl (hcnt (hspec u hu).2)
  · dsimp only
    split
    · refine Safe.ask_bind nofun fun ans t' hnext => ?_
      rw [next_of_quiet rfl hnext]
      exact Safe.bind (Safe.orFail (fun _ _ => ht) fun _ _ => ht)
    · exact ht

/-- A stretch of program that touches no user and writes no row. -/
theorem safe_of_idle (hp : p.All fun c => c.quiet = true ∧ c.touches = none) : InTurn p t := by
  refine Safe.of_all (I := fun _ => True) (hp.mono fun c hc t _ => ⟨fun key hkey => ?_,
    fun _ _ _ => trivial⟩) trivial
  rw [hc.2] at hkey
  cases hkey

/-- **A pass touches what it holds**, from any rows, whatever it is answered. -/
theorem safe_applyLatest (lat : Latest Value) : InTurn (applyLatest site lat) rows := by
  refine Safe.ask_bind nofun fun ans t hnext => ?_
  refine Safe.bind (Safe.orFail (fun known hans => ?_) fun _ _ => trivial)
  rw [hans] at hnext
  obtain ⟨ht, hkn⟩ := next_start hnext
  rw [ht]
  -- First the names that come twice, which no later step is about.
  refine Safe.bind (Safe.forM (I := fun (l : List (Resource Value)) t =>
      (∀ r ∈ l, 1 < countOf lat.document.resources r.key)
        ∧ SameOff (fun key => 1 < countOf lat.document.resources key) known t)
    (fun r l t ht => ?_) (fun t ht => ?_)
    ⟨fun r hr => of_decide_eq_true (mem_filter.mp hr).2, SameOff.refl _ known⟩)
  · refine (safe_record (P := fun key => 1 < countOf lat.document.resources key)
      (ht.1 r mem_cons_self) _ _ _ _ _ _).mono (fun _ _ h => ?_) fun _ _ _ => trivial
    exact ⟨fun r' hr' => ht.1 r' (mem_cons_of_mem _ hr'), ht.2.trans h⟩
  · -- Then protocol by protocol: what is still to come is as the pass found it.
    refine Safe.bind (Safe.foldlM
      (I := fun l (_ : Bool × List (ObservedResource Value)) t => l.Nodup
        ∧ ∀ key : Key, key.1 ∈ l → ¬ 1 < countOf lat.document.resources key →
          find t key = find known key)
      (fun protocol l acc t ht => ?_) (fun acc t _ => ?_)
      ⟨List.Nodup.filter _ (by decide), fun key _ hkey => ht.2 key hkey⟩)
    · obtain ⟨hnd, hfr⟩ := ht
      obtain ⟨hprot, hnd'⟩ := nodup_cons.mp hnd
      refine (safe_applyService site hkn fun key hkey => hfr key
        (hkey ▸ mem_cons_self)).mono (fun _ t' ht' => ?_) fun _ _ _ => trivial
      refine ⟨hnd', fun key hkey hcnt => ?_⟩
      rw [ht' key fun heq => hprot (heq ▸ hkey)]
      exact hfr key (mem_cons_of_mem _ hkey) hcnt
    · refine safe_of_idle (All.ask_bind ⟨rfl, rfl⟩ fun relay => ?_)
      refine All.bind (All.orFail _) fun relay => ?_
      refine All.ask_bind ⟨rfl, rfl⟩ fun eg => ?_
      refine All.bind (All.orFail _) fun eg => ?_
      refine All.ask_bind ⟨rfl, rfl⟩ fun obs => ?_
      refine All.bind (All.orFail _) fun obs => ?_
      exact All.ask_bind ⟨rfl, rfl⟩ fun credentials => trivial

theorem safe_apply (gen : Int) : InTurn (apply site gen) rows := by
  refine Safe.ask_bind nofun fun ans t _ => ?_
  refine Safe.bind (Safe.orFail (fun lat _ => ?_) fun _ _ => trivial)
  split
  · trivial
  · split
    · exact safe_applyLatest site _
    · trivial

theorem all_due (known : Rows Value) (rs : List (Resource Value)) :
    (due known rs).All fun c => c.quiet = true ∧ c.touches = none := by
  induction rs with
  | nil => trivial
  | cons res rest ih =>
    unfold due
    split
    · exact ih
    · refine All.ask_bind ⟨rfl, rfl⟩ fun now => ?_
      change All _ (ite _ _ _)
      split
      · trivial
      · exact ih

theorem safe_program (e : Entry Value) : InTurn (e.program site) rows := by
  have hdisc {p : Op Value ReconcileError (Applied Value)} {t : Rows Value}
      (hp : InTurn p t) : InTurn p.discard t := Safe.bind hp
  cases e with
  | apply gen => exact hdisc (safe_apply site gen)
  | applyStored lat => exact hdisc (safe_applyLatest site lat)
  | runPending =>
    refine Safe.ask_bind nofun fun ans t _ => ?_
    refine Safe.bind (Safe.orFail (fun lat _ => ?_) fun _ _ => trivial)
    split
    · trivial
    · refine Safe.ask_bind nofun fun ans t _ => ?_
      refine Safe.bind (Safe.orFail (fun known _ => ?_) fun _ _ => trivial)
      refine Safe.bind ((safe_of_idle (all_due known _)).mono (fun due t _ => ?_)
        fun _ _ _ => trivial)
      split
      · exact hdisc (safe_apply site _)
      · trivial

end Generation

/-! ## Every run -/

section Runs

variable {site : Site Value}

/-- What is left of the pass in progress is safe from the rows as they are. -/
def Disciplined (s : State Value) : Prop :=
  ∀ p, s.running = some p → Prog.Safe heldFirst (fun _ _ => True) (fun _ _ => True) p s.node.rows

theorem disciplined_settle {p : Op Value ReconcileError Unit} (hp : InTurn p node.rows) :
    Disciplined ⟨node, settle p⟩ := by
  intro q hq
  unfold settle at hq
  split at hq
  · cases hq
    exact hp
  · cases hq

/-- What a step can do to the rows, to the users and to the pass. -/
theorem step_spec (h : step site s e = some s') : match e with
    | .accept .. =>
      s'.node.rows = s.node.rows ∧ s'.node.users = s.node.users ∧ s'.running = s.running
    | .enter en =>
      s'.node.rows = s.node.rows ∧ s'.node.users = s.node.users
        ∧ s'.running = settle (en.program site)
    | .perform rep => ∃ c k, s.running = some (.call c k)
        ∧ s' = ⟨(respond s.node rep c).2, settle (k (respond s.node rep c).1)⟩
    | .crash => s' = ⟨s.node, none⟩
    | .createLocal key => s' = ⟨s.node.addUser key .operator, s.running⟩
    | .vanish key => s' = ⟨s.node.dropUser key, s.running⟩ := by
  cases e with
  | accept d dig =>
    simp only [step] at h
    split at h
    next node hnode =>
      cases h
      obtain ⟨hrows, hus⟩ := accept_frame hnode
      exact ⟨hrows, hus, rfl⟩
    · cases h
      exact ⟨rfl, rfl, rfl⟩
  | enter en =>
    simp only [step] at h
    split at h
    · cases h
    · cases h
      exact ⟨rfl, rfl, rfl⟩
  | perform rep =>
    simp only [step] at h
    split at h
    next c k hrunn =>
      cases h
      exact ⟨c, k, hrunn, rfl⟩
    · cases h
  | crash =>
    cases h
    rfl
  | createLocal key | vanish key =>
    cases h
    rfl

theorem disciplined_step (h : Disciplined s) (hs : step site s e = some s') : Disciplined s' := by
  have hspec := step_spec hs
  cases e with
  | accept d dig =>
    obtain ⟨hrows, -, hrunn⟩ := hspec
    intro p hp
    rw [hrows]
    exact h p (hrunn ▸ hp)
  | enter en =>
    obtain ⟨-, -, hrunn⟩ := hspec
    obtain ⟨node, running⟩ := s'
    change running = _ at hrunn
    rw [hrunn]
    exact disciplined_settle (safe_program site en)
  | perform rep =>
    obtain ⟨c, k, hrunn, rfl⟩ := hspec
    exact disciplined_settle ((h _ hrunn).2 _ _ ⟨s.node, rep, rfl, rfl, rfl⟩)
  | crash =>
    rw [hspec]
    exact nofun
  | createLocal key =>
    rw [hspec]
    intro p hp
    rw [rows_addUser]
    exact h p hp
  | vanish key =>
    rw [hspec]
    exact h

theorem disciplined_of_run {s₀ s : State Value} {es : List (Event Value)}
    (hidle : s₀.running = none) (hrun : Run.exec (step site) s₀ es = some s) : Disciplined s := by
  have hst : Disciplined s₀ := by
    intro p hp
    rw [hidle] at hp
    cases hp
  exact Run.invariant (fun _ _ _ => disciplined_step) hrun hst

theorem Disciplined.isManaged (hs : Disciplined s) (htouch : s.touching = some key) :
    isManaged s.node.rows key = true := by
  obtain ⟨c, hc, htou⟩ := Option.bind_eq_some_iff.mp htouch
  obtain ⟨p, hp, hhead⟩ := Option.bind_eq_some_iff.mp hc
  cases p with
  | ret _ | fail _ => cases hhead
  | call c' k =>
    cases hhead
    exact (hs _ hp).1 key htou

end Runs

/-! ## Held names and local users -/

/-- **No local user has a name the node holds.** -/
def Owned (node : Node Value) : Prop :=
  ∀ key, isManaged node.rows key = true → find node.users key ≠ some .operator

/-- The name that the pass in progress is about to make held: it writes a row that
is not `missing`, other than to adopt the user, and the node does not hold the
name. -/
def State.taking (s : State Value) : Option Key :=
  match s.running.bind Prog.head with
  | some (.upsertResource update) =>
    if update.state ≠ .missing ∧ isManaged s.node.rows update.key = false then some update.key
    else none
  | _ => none

/-- **A name the pass takes without adopting it is not a local user's** at that
moment. Local operators create users under names the node does not hold. -/
def Clear (s : State Value) : Event Value → Prop
  | .perform reply => ∀ key ∈ s.taking, reply.outcome.lands = true →
      find s.node.users key ≠ some .operator
  | .createLocal key => isManaged s.node.rows key = false
  | _ => True

instance (s : State Value) (e : Event Value) : Decidable (Clear s e) :=
  match e with
  | .perform _ => inferInstanceAs (Decidable (∀ key ∈ s.taking, _ → _))
  | .createLocal _ => inferInstanceAs (Decidable (_ = false))
  | .accept .. | .enter _ | .crash | .vanish _ => isTrue trivial

section Owned

variable {node : Node Value} {key : Key}

theorem find_users_adopt (node : Node Value) (key key' : Key) : find (node.adopt key).users key'
      = if key' = key then (find node.users key).map fun _ => .adopted
        else find node.users key' := by
  unfold Node.adopt
  split
  next h =>
    obtain ⟨maker, hmk⟩ := Option.isSome_iff_exists.mp h
    rw [find_put, hmk]
    rfl
  next h =>
    rw [Option.not_isSome_iff_eq_none.mp h]
    split
    next heq =>
      rw [heq, Option.not_isSome_iff_eq_none.mp h]
      rfl
    · rfl

section

variable (h : Owned node)

include h

theorem Owned.upsert (hclr : update.state ≠ .missing → isManaged node.rows update.key = false →
      find node.users update.key ≠ some .operator) : Owned (node.upsert update) := by
  intro key hkey
  by_cases heq : key = update.key
  · rw [heq] at hkey ⊢
    rw [rows_upsert, isManaged_upsert_self] at hkey
    cases hmgd : isManaged node.rows update.key with
    | true => exact h _ hmgd
    | false => exact hclr (of_decide_eq_true hkey) hmgd
  · refine h key ?_
    rw [← hkey]
    exact (isManaged_congr (SameOff.upsert (P := (· = update.key)) node.rows rfl key heq)).symm

theorem Owned.adopt (upd : ResourceUpdate Value) : Owned ((node.upsert upd).adopt upd.key) := by
  intro key hkey
  rw [find_users_adopt]
  split
  · cases find (node.upsert upd).users upd.key <;> simp
  next hne =>
    refine h key ?_
    rw [← hkey, rows_adopt]
    exact (isManaged_congr (SameOff.upsert (P := (· = upd.key)) node.rows rfl key hne)).symm

theorem Owned.remove (key : Key) : Owned (node.remove key) := by
  intro key' hkey'
  refine h key' ?_
  change isManaged (erase node.rows key) key' = true at hkey'
  unfold isManaged at hkey' ⊢
  rw [find_erase] at hkey'
  split at hkey'
  · cases hkey'
  · exact hkey'

theorem Owned.retire (refs : List (Key × String)) : Owned (node.retire refs) := by
  intro key hkey
  refine h key ?_
  unfold isManaged at hkey ⊢
  cases hrow : find (node.retire refs).rows key with
  | none =>
    rw [hrow] at hkey
    cases hkey
  | some row =>
    have hmem : (key, row) ∈ node.rows := mem_of_mem_filter (mem_of_find hrow)
    rw [find_of_mem node.keyed hmem]
    rw [hrow] at hkey
    exact hkey

theorem Owned.addUser {maker : Maker} (hmk : maker ≠ .operator ∨ isManaged node.rows key = false) :
    Owned (node.addUser key maker) := by
  intro key' hkey'
  rw [rows_addUser] at hkey'
  unfold Node.addUser
  split
  · exact h key' hkey'
  · rw [find_put]
    split
    next heq =>
      rcases hmk with hne | hfree
      · exact fun heq => hne (Option.some.inj heq)
      · rw [heq, hfree] at hkey'
        cases hkey'
    · exact h key' hkey'

theorem Owned.dropUser (key : Key) : Owned (node.dropUser key) := by
  intro key' hkey'
  change find (erase node.users key) key' ≠ _
  rw [find_erase]
  split
  · rintro ⟨⟩
  · exact h key' hkey'

theorem Owned.effect {rep : Reply Value} {f : Node Value → Node Value}
    (hf : rep.outcome.lands = true → Owned (f node)) : Owned (rep.effect node f) := by
  unfold Reply.effect
  split
  next hld => exact hf hld
  · exact h

/-- Every command leaves the local users without held names, if the write that
takes a name meets none. -/
theorem Owned.respond (rep : Reply Value) (c : Cmd Value)
    (hclr : ∀ update, c = .upsertResource update → update.state ≠ .missing →
      isManaged node.rows update.key = false → rep.outcome.lands = true →
      find node.users update.key ≠ some .operator) : Owned (respond node rep c).2 := by
  cases c with
  | start gen refs =>
    have hset : Owned (node.setState gen .applying) := h
    exact h.effect fun _ => hset.retire refs
  | upsertResource update =>
    exact h.effect fun hld => h.upsert fun hsta hfree => hclr update rfl hsta hfree hld
  | adopt update => exact h.effect fun _ => h.adopt update
  | removeResource key => exact h.effect fun _ => h.remove key
  | finish gen failed =>
    simp only [Reconciler.respond]
    split
    · exact h.effect fun _ => h
    · exact h
  | create _ res _ => exact h.effect fun _ => h.addUser (.inl nofun)
  | delete key => exact h.effect fun _ => h.dropUser key
  | _ => exact h

end

theorem Owned.step (h : Owned s.node) (hclr : Clear s e) (hs : step site s e = some s') :
    Owned s'.node := by
  have hspec := step_spec hs
  cases e with
  | accept _ _ | enter _ =>
    obtain ⟨hrows, hus, -⟩ := hspec
    intro key hkey
    rw [hus]
    exact h key (hrows ▸ hkey)
  | perform rep =>
    obtain ⟨c, k, hrunn, rfl⟩ := hspec
    refine h.respond rep c fun update hc hsta hfree hld => hclr update.key ?_ hld
    subst hc
    unfold State.taking
    rw [hrunn]
    exact if_pos ⟨hsta, hfree⟩
  | crash =>
    rw [hspec]
    exact h
  | createLocal key =>
    rw [hspec]
    exact h.addUser (.inr hclr)
  | vanish key =>
    rw [hspec]
    exact h.dropUser key

end Owned

/-! ## Samples -/

/-- The protocol whose inventory the pass in progress is about to read. -/
def State.reading (s : State Value) : Option Protocol :=
  match s.running.bind Prog.head with
  | some (.discover protocol) => some protocol
  | _ => none

/-- An inventory that is read lists the users the runtime has, and local operators
create users under names the node does not hold. -/
def Honest (s : State Value) : Event Value → Prop
  | .perform reply => ∀ protocol ∈ s.reading, reply.outcome = .done →
      reply.items.map (·.runtimeUsername)
        = (s.node.users.filter fun user => user.1.1 = protocol).map (·.1.2)
  | .createLocal key => isManaged s.node.rows key = false
  | _ => True

instance (s : State Value) (e : Event Value) : Decidable (Honest s e) :=
  match e with
  | .perform _ => inferInstanceAs (Decidable (∀ protocol ∈ s.reading, _ → _))
  | .createLocal _ => inferInstanceAs (Decidable (_ = false))
  | .accept .. | .enter _ | .crash | .vanish _ => isTrue trivial

def sampleSite : Site Unit where
  guid := "node"
  fieldNames _ := []
  isNull _ := false
  isEmptyText _ := false
  sameOptions _ _ := true
  decode _ := .ok ""
  validate _ := .ok ()

def sampleNode (users : List (Key × Maker)) : State Unit :=
  ⟨⟨none, [], [], List.nodup_nil, [], users⟩, none⟩

def sampleResource (username : String) (desired : DesiredState) : Resource Unit :=
  ⟨"grant-" ++ username, .naive, username, desired, "secret:1", .caller, .provisioned, [], none,
    none⟩

def samplePush (generation : Int) (resources : List (Resource Unit)) : Event Unit :=
  .accept ⟨"node", "central", generation, resources⟩ s!"digest {generation}"

/-- A command that goes well, while the runtime has these users. -/
def goesWell (usernames : List String) : Event Unit :=
  .perform ⟨.done, .store "", "", 0, some ⟨true, false, .caller⟩,
    usernames.map fun username => ⟨username, true, [], none⟩, ⟨true, none, none, [], .caller⟩,
    none, some [1], false⟩

/-- A command that fails without effect. -/
def goesWrong : Event Unit :=
  .perform ⟨.lost, .store "", "unreachable", 0, none, [], ⟨true, none, none, [], .caller⟩, none,
    none, false⟩

/-- A generation names `carol`, which the reconcile creates; the next one disables
it. -/
def sampleRun : List (Event Unit) :=
  [samplePush 1 [sampleResource "carol" .enabled], .enter (.apply 1)]
    ++ List.replicate 9 (goesWell []) ++ List.replicate 7 (goesWell ["carol"])
    ++ [samplePush 2 [sampleResource "carol" .disabled], .enter (.apply 2)]
    ++ List.replicate 5 (goesWell ["carol"])

/-- The inventory cannot be read while a local user has a name the generation
gives to the central; on the retry it can. -/
def unreadRun : List (Event Unit) :=
  [samplePush 1 [sampleResource "alice" .enabled], .enter (.apply 1)]
    ++ List.replicate 3 (goesWell ["alice"]) ++ [goesWrong]
    ++ List.replicate 6 (goesWell ["alice"])
    ++ [.enter (.apply 1)] ++ List.replicate 5 (goesWell ["alice"])

/-- The row of `bob` is left `missing`, an operator creates a `bob`, the central no
longer names it, and the inventory cannot be read once. -/
def missingRun : List (Event Unit) :=
  [samplePush 1 [sampleResource "bob" .deleted], .enter (.apply 1)]
    ++ List.replicate 11 (goesWell []) ++ [.createLocal (.naive, "bob"), samplePush 2 []]
    ++ [.enter (.apply 2)] ++ List.replicate 3 (goesWell ["bob"]) ++ [goesWrong]
    ++ List.replicate 6 (goesWell ["bob"])
    ++ [.enter (.apply 2)] ++ List.replicate 4 (goesWell ["bob"])

/-- A node whose runtime has a local `alice`. -/
def sampleAlice : State Unit := sampleNode [((.naive, "alice"), .operator)]

/-- **The reconcile touches only its own users**: in every run in which no write
takes the name of a local user, a user that a pass is about to rotate, enable,
disable, update or delete was created by the reconcile since it last disappeared,
or was adopted through an `imported` resource. -/
theorem touches_own_of_clear (site : Site Value) {s₀ s : State Value} {es : List (Event Value)}
    {key : Key} (hidle : s₀.running = none) (hstart : Owned s₀.node)
    (hrun : Run.exec (step site) s₀ es = some s) (hclear : Run.Meets (step site) Clear s₀ es)
    (htouch : s.touching = some key) :
    ∀ maker, Table.find s.node.users key = some maker → maker = .created ∨ maker = .adopted := by
  have howned : Owned s.node := Run.invariant_of_meets (I := fun s => Owned s.node)
    (fun _ _ _ h hok hstep => h.step hok hstep) hrun hclear hstart
  intro maker hmaker
  cases maker with
  | operator => exact absurd hmaker (howned key ((disciplined_of_run hidle hrun).isManaged htouch))
  | created => exact .inl rfl
  | adopted => exact .inr rfl

/-- A user that was created and is about to be disabled. -/
theorem touches_own_created :
    ∃ s, Run.exec (step sampleSite) (sampleNode []) sampleRun = some s
      ∧ s.touching = some (.naive, "carol")
      ∧ ∀ maker, Table.find s.node.users (.naive, "carol") = some maker →
        maker = .created ∨ maker = .adopted := by
  exact Run.end_and (by decide +kernel) fun s hrun htouch => touches_own_of_clear sampleSite rfl
    (fun _ h => Bool.noConfusion h) hrun (by decide +kernel) htouch

/-- **Local users are touched**: `alice` is about to be rotated, and a `bob` created
under a name left `missing` is about to be deleted. Every inventory that was read
was right. -/
theorem touches_local_users :
    (∃ s, Run.exec (step sampleSite) sampleAlice unreadRun = some s
      ∧ s.touching = some (.naive, "alice")
      ∧ Table.find s.node.users (.naive, "alice") = some .operator)
    ∧ Run.Meets (step sampleSite) Honest sampleAlice unreadRun
    ∧ (∃ s, Run.exec (step sampleSite) (sampleNode []) missingRun = some s
      ∧ s.touching = some (.naive, "bob")
      ∧ Table.find s.node.users (.naive, "bob") = some .operator)
    ∧ Run.Meets (step sampleSite) Honest (sampleNode []) missingRun := by
  exact ⟨by decide +kernel, by decide +kernel, by decide +kernel, by decide +kernel⟩

/-- **The reconcile touches only users it holds**: in every run, whatever is
answered and whatever happens in between. -/
theorem managed_of_touching (site : Site Value) {s₀ s : State Value} {es : List (Event Value)}
    {key : Key} (hidle : s₀.running = none) (hrun : Run.exec (step site) s₀ es = some s)
    (htouch : s.touching = some key) : isManaged s.node.rows key = true :=
  (disciplined_of_run hidle hrun).isManaged htouch

theorem managed_of_touching_carol :
    ∃ s, Run.exec (step sampleSite) (sampleNode []) sampleRun = some s
      ∧ s.touching = some (.naive, "carol") ∧ isManaged s.node.rows (.naive, "carol") = true :=
  Run.end_and (by decide +kernel) fun _ hrun => managed_of_touching sampleSite rfl hrun

end Reconciler
