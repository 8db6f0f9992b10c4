import ProxyControl.Run

/-!
# Ledgers of who set what last

A *keeper* holds a value under each of its names and answers requests to set
one, each under an id the caller chose. A keeper that remembers the ids it has
answered may answer a request again without looking at what it holds now; what
such an answer is worth depends on what happened since.

A *ledger* follows a keeper from outside and notes, for every name, the id and
the value of the request that set it last. It is told of each event by its
*effect*: nothing, a name set, or a name dropped. Whatever is noted is held
(`Keeper.truthful_of_run`), so that an answer given from memory is true where
the request is the one noted under its name (`Keeper.trueWhereLast`).

A caller that does not know whether its request arrived sends it again. If the
keeper did not know the id before, that is safe (`Memory.holds_of_retry`).
-/

namespace Ledger

variable {σ ε υ ω κ : Type*}

/-- What an event does to the values that are held. -/
inductive Effect (υ ω κ : Type*)
  | keep
  | set (name : υ) (id : Option ω) (value : κ)
  | drop (name : υ)
deriving DecidableEq, Repr

/-- **What is held follows an effect**: all of it stays, but for a name that is
set – which is held with the new value – or dropped. -/
def Effect.Does (Holds Holds' : υ → κ → Prop) : Effect υ ω κ → Prop
  | .keep => ∀ u k, Holds u k → Holds' u k
  | .set name _ value => Holds' name value ∧ ∀ u k, u ≠ name → Holds u k → Holds' u k
  | .drop name => ∀ u k, u ≠ name → Holds u k → Holds' u k

theorem Effect.does_keep (Holds : υ → κ → Prop) :
    Effect.Does Holds Holds (.keep : Effect υ ω κ) := fun _ _ h => h

/-- A name set, where each name has at most one value. -/
theorem Effect.does_set [DecidableEq υ] {held held' : υ → Option κ} {name : υ} {id : Option ω}
    {v : κ} (h : ∀ u, held' u = if u = name then some v else held u) :
    (Effect.set name id v).Does (fun u k => held u = some k) fun u k => held' u = some k := by
  refine ⟨(h name).trans (if_pos rfl), fun u k hu hheld => ?_⟩
  exact ((h u).trans (if_neg hu)).trans hheld

/-- A request to set a name: its id, where it has one, and the value it sends,
where it sends one. -/
structure Ask (υ ω κ : Type*) where
  name : υ
  id : Option ω
  value : Option κ
deriving DecidableEq, Repr

/-- **A keeper of values**, with what an outside observer can say of it: what an
event does to the values, which events are requests to set one, whether a
request succeeds, and whether it is answered from memory. -/
structure Keeper (σ ε υ ω κ : Type*) where
  next : σ → ε → σ
  /-- The states it can be in. -/
  Valid : σ → Prop
  Holds : σ → υ → κ → Prop
  effect : σ → ε → Effect υ ω κ
  ask : ε → Option (Ask υ ω κ)
  succeeds : σ → ε → Bool
  replays : σ → ε → Bool
  valid_next : ∀ {s} (e), Valid s → Valid (next s e)
  /-- An event does what its effect says. -/
  does : ∀ {s} (e), Valid s → (effect s e).Does (Holds s) (Holds (next s e))
  /-- A request that succeeds, and not from memory, sets its name. -/
  set_of_succeeds : ∀ {s e a}, Valid s → ask e = some a → succeeds s e = true →
    replays s e = false → ∃ k, effect s e = .set a.name a.id k ∧ ∀ v, a.value = some v → k = v
  /-- What is answered from memory has no effect. -/
  keep_of_replays : ∀ {s e}, replays s e = true → effect s e = .keep

/-- The id and the value a name was last set with. -/
abbrev Notes (υ ω κ : Type*) := υ → Option (Option ω × κ)

/-- The notes after an effect. -/
def Notes.after [DecidableEq υ] (notes : Notes υ ω κ) : Effect υ ω κ → Notes υ ω κ
  | .keep => notes
  | .set u id k => Function.update notes u (some (id, k))
  | .drop u => Function.update notes u none

namespace Keeper

variable (K : Keeper σ ε υ ω κ)

/-- What is noted is held. -/
def Truthful (s : σ) (notes : Notes υ ω κ) : Prop :=
  ∀ u id k, notes u = some (id, k) → K.Holds s u k

/-- **A success is true**: where the event is a request that succeeds, its name
is held afterwards, with the value it sent. -/
def TrueSuccess (s : σ) (e : ε) : Prop :=
  ∀ a, K.ask e = some a → K.succeeds s e = true →
    ∃ k, K.Holds (K.next s e) a.name k ∧ ∀ v, a.value = some v → k = v

/-- **The request is the last**: where it is answered from memory, its name was
last set under its id, with the value it sends. -/
def IsLast (s : σ) (notes : Notes υ ω κ) (e : ε) : Prop :=
  ∀ a, K.ask e = some a → K.replays s e = true →
    ∃ k, notes a.name = some (a.id, k) ∧ ∀ v, a.value = some v → k = v

variable [DecidableEq υ]

/-- The keeper followed by a ledger. -/
def step (s : σ × Notes υ ω κ) (e : ε) : Option (σ × Notes υ ω κ) :=
  some (K.next s.1 e, s.2.after (K.effect s.1 e))

/-- **Successes are true where the request is the last**: after any run, from any
state whose notes are truthful. -/
def TrueWhereLast : Prop :=
  ∀ (s t : σ × Notes υ ω κ) (es : List ε) (e : ε), K.Valid s.1 → K.Truthful s.1 s.2 →
    Run.exec K.step s es = some t → K.IsLast t.1 t.2 e → K.TrueSuccess t.1 e

variable {K}

theorem truthful_next {s : σ} {notes : Notes υ ω κ} (hval : K.Valid s)
    (htrue : K.Truthful s notes) (e : ε) :
    K.Truthful (K.next s e) (notes.after (K.effect s e)) := by
  have hdoes := K.does e hval
  intro u id k hnote
  cases heff : K.effect s e with
  | keep =>
    rw [heff] at hnote hdoes
    exact hdoes u k (htrue u id k hnote)
  | set name id' v =>
    rw [heff] at hnote hdoes
    rw [Notes.after, Function.update_apply] at hnote
    split at hnote
    next hu =>
      cases hnote
      exact hu ▸ hdoes.1
    next hu => exact hdoes.2 u k hu (htrue u id k hnote)
  | drop name =>
    rw [heff] at hnote hdoes
    rw [Notes.after, Function.update_apply] at hnote
    split at hnote
    · cases hnote
    next hu => exact hdoes u k hu (htrue u id k hnote)

/-- **Whatever is noted is held**, after any run. -/
theorem truthful_of_run {s t : σ × Notes υ ω κ} {es : List ε} (hval : K.Valid s.1)
    (htrue : K.Truthful s.1 s.2) (hrun : Run.exec K.step s es = some t) :
    K.Valid t.1 ∧ K.Truthful t.1 t.2 := by
  refine Run.invariant (I := fun s => K.Valid s.1 ∧ K.Truthful s.1 s.2) ?_ hrun ⟨hval, htrue⟩
  rintro s e s' ⟨hv, ht⟩ hs
  cases hs
  exact ⟨K.valid_next e hv, truthful_next hv ht e⟩

variable (K) in
/-- **Every keeper answers truly where the request is the last.** -/
theorem trueWhereLast : K.TrueWhereLast := by
  intro s t es e hvalid htrue hrun hl
  obtain ⟨hv, ht⟩ := truthful_of_run hvalid htrue hrun
  have hdoes := K.does e hv
  intro a hask hok
  cases hrep : K.replays t.1 e with
  | true =>
    obtain ⟨k, hnote, hval⟩ := hl a hask hrep
    rw [K.keep_of_replays hrep] at hdoes
    exact ⟨k, hdoes _ _ (ht _ _ _ hnote), hval⟩
  | false =>
    obtain ⟨k, hset, hval⟩ := K.set_of_succeeds hv hask hok hrep
    rw [hset] at hdoes
    exact ⟨k, hdoes.1, hval⟩

end Keeper

/-! ## Retries -/

/-- **What a keeper remembers**: the ids it may answer from memory. An id gets
there by a request under it that has its effect. -/
structure Memory (K : Keeper σ ε υ ω κ) where
  Recorded : σ → ω → Prop
  recorded_of_replays : ∀ {s e a}, K.ask e = some a → K.replays s e = true →
    ∃ id, a.id = some id ∧ Recorded s id
  recorded_next : ∀ {s e id}, Recorded (K.next s e) id → Recorded s id ∨
    ∃ a k, K.ask e = some a ∧ a.id = some id ∧ K.effect s e = .set a.name a.id k
      ∧ ∀ v, a.value = some v → k = v

namespace Memory

variable {K : Keeper σ ε υ ω κ} (M : Memory K) {s : σ} {e e' : ε} {a : Ask υ ω κ} {id : ω} {v : κ}

/-- A request under a new id that succeeds is true. -/
theorem holds_of_new (hval : K.Valid s) (hask : K.ask e = some a) (hid : a.id = some id)
    (hvalue : a.value = some v) (hnew : ¬ M.Recorded s id) (hok : K.succeeds s e = true) :
    K.Holds (K.next s e) a.name v := by
  have hrep : K.replays s e = false := by
    refine Bool.eq_false_iff.mpr fun hrep => ?_
    obtain ⟨id', hid', hrec⟩ := M.recorded_of_replays hask hrep
    exact hnew (Option.some.inj (hid'.symm.trans hid) ▸ hrec)
  obtain ⟨k, hset, hk⟩ := K.set_of_succeeds hval hask hok hrep
  have hdoes := K.does e hval
  rw [hset] at hdoes
  exact hk v hvalue ▸ hdoes.1

/-- **A request under a new id that is sent twice** is true where the second one
succeeds: it is carried out then, or it was the first time. -/
theorem holds_of_retry (hval : K.Valid s) (hask : K.ask e = some a) (hask' : K.ask e' = some a)
    (hid : a.id = some id) (hvalue : a.value = some v) (hnew : ¬ M.Recorded s id)
    (hok : K.succeeds (K.next s e) e' = true) : K.Holds (K.next (K.next s e) e') a.name v := by
  by_cases hrec : M.Recorded (K.next s e) id
  · obtain hrec | ⟨a', k, hask'', _, hset, hk⟩ := M.recorded_next hrec
    · exact absurd hrec hnew
    cases hask.symm.trans hask''
    have hfst := K.does e hval
    have hsnd := K.does e' (K.valid_next e hval)
    rw [hset] at hfst
    have hheld : K.Holds (K.next s e) a.name v := hk v hvalue ▸ hfst.1
    cases hrep : K.replays (K.next s e) e' with
    | true =>
      rw [K.keep_of_replays hrep] at hsnd
      exact hsnd _ _ hheld
    | false =>
      obtain ⟨k', hset', hk'⟩ := K.set_of_succeeds (K.valid_next e hval) hask' hok hrep
      rw [hset'] at hsnd
      exact hk' v hvalue ▸ hsnd.1
  · exact M.holds_of_new (K.valid_next e hval) hask' hid hvalue hrec hok

end Memory

end Ledger
