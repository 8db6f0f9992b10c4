import Mathlib

/-!
# Runs of a partial step function

A component is a state, a type of events, and a step function that says what
an event does to a state – or that the event cannot happen there. A *run* is
a list of events every one of which could happen, and what is proved about a
component is proved of every state a run ends in: since a prefix of a run is
a run, that is every state the component passes through.

Two rules carry all the inductions. `Run.invariant` says that what holds at
the start and is kept by every step holds at the end. `Run.invariant_of_meets`
is the same for the runs whose every step meets a condition on the event and
on the state it happens in – the form a guarantee takes when it holds only
while some branch of the code is not taken.

Where the state holds a list of parties and an event names the party that
moves by its place, a step replaces one entry of the list; `mem_set_cases`
says what the entries are afterwards.

A step with a lasting effect – a file replaced, a command carried out
elsewhere – may fail before it had its effect and after it (`Outcome`): the
caller sees an error both times.
-/

variable {σ ε : Type*}

namespace Run

/-- **The state a list of events leads to**, or `none` when one of them
cannot happen. -/
def exec (step : σ → ε → Option σ) : σ → List ε → Option σ
  | s, [] => some s
  | s, e :: es => (step s e).bind fun s' => exec step s' es

/-- **Every step of the run meets a condition** on the event and on the state
it happens in. Nothing is asked of the events after one that cannot happen. -/
def Meets (step : σ → ε → Option σ) (ok : σ → ε → Prop) : σ → List ε → Prop
  | _, [] => True
  | s, e :: es => ok s e ∧
    match step s e with
    | some s' => Meets step ok s' es
    | none => True

instance Meets.decidable (step : σ → ε → Option σ) (ok : σ → ε → Prop)
    [∀ s e, Decidable (ok s e)] : ∀ s es, Decidable (Meets step ok s es)
  | _, [] => inferInstanceAs (Decidable True)
  | s, e :: es =>
    have : Decidable (match step s e with
        | some s' => Meets step ok s' es
        | none => True) :=
      match step s e with
      | some s' => Meets.decidable step ok s' es
      | none => inferInstanceAs (Decidable True)
    inferInstanceAs (Decidable (_ ∧ _))

/-- What the state at the end of a run is like can be evaluated. -/
instance decidableEnd (step : σ → ε → Option σ) (s : σ) (es : List ε) (p : σ → Prop)
    [DecidablePred p] : Decidable (∃ t, exec step s es = some t ∧ p t) :=
  inferInstanceAs (Decidable (∃ t ∈ exec step s es, p t))

/-- How a step with a lasting effect ends. -/
inductive Outcome
  /-- It had its effect, and its caller knows. -/
  | done
  /-- It failed, and had none. -/
  | lost
  /-- It failed after it had its effect. -/
  | late
deriving DecidableEq, Repr

/-- Whether the step had its effect. -/
def Outcome.lands (o : Outcome) : Bool := decide (o ≠ .lost)

variable {step : σ → ε → Option σ} {es : List ε} {s t : σ} {ok : σ → ε → Prop} {I : σ → Prop}

@[simp] theorem exec_nil (s : σ) : exec step s [] = some s := rfl

@[simp] theorem exec_cons (s : σ) (e : ε) (es : List ε) :
    exec step s (e :: es) = (step s e).bind fun s' => exec step s' es := rfl

/-- A run that starts with an event takes its step and goes on from there. -/
theorem exec_cons_eq_some {e : ε} :
    exec step s (e :: es) = some t ↔ ∃ s', step s e = some s' ∧ exec step s' es = some t := by
  rw [exec_cons, Option.bind_eq_some_iff]

/-- Running two lists of events is running the one and then the other. -/
theorem exec_append (s : σ) (es fs : List ε) :
    exec step s (es ++ fs) = (exec step s es).bind fun s' => exec step s' fs := by
  induction es generalizing s with
  | nil => rfl
  | cons e es ih =>
    rw [List.cons_append, exec_cons, exec_cons, Option.bind_assoc]
    exact congrArg (Option.bind (step s e)) (funext ih)

/-- What meets a condition meets a weaker one. -/
theorem Meets.mono {ok' : σ → ε → Prop} (h : ∀ s e, ok s e → ok' s e) (hok : Meets step ok s es) :
    Meets step ok' s es := by
  induction es generalizing s with
  | nil => trivial
  | cons e es ih =>
    refine ⟨h s e hok.1, ?_⟩
    have hr := hok.2
    split
    next s' hs =>
      rw [hs] at hr
      exact ih hr
    · trivial

/-- A condition on the events alone is met where each of them meets it. -/
theorem Meets.and_forall {p : ε → Prop} (hok : Meets step ok s es) (h : ∀ e ∈ es, p e) :
    Meets step (fun s e => ok s e ∧ p e) s es := by
  induction es generalizing s with
  | nil => trivial
  | cons e es ih =>
    refine ⟨⟨hok.1, h e List.mem_cons_self⟩, ?_⟩
    have hr := hok.2
    split
    next s' hs =>
      rw [hs] at hr
      exact ih hr fun e he => h e (List.mem_cons_of_mem _ he)
    · trivial

/-- Where a whole run meets a condition, so does what is left of it after a
first part. -/
theorem meets_of_append {s' : σ} {es fs : List ε} (hok : Meets step ok s (es ++ fs))
    (hrun : exec step s es = some s') : Meets step ok s' fs := by
  induction es generalizing s with
  | nil =>
    rw [exec_nil, Option.some.injEq] at hrun
    exact hrun ▸ hok
  | cons e es ih =>
    obtain ⟨t, he, hes⟩ := exec_cons_eq_some.mp hrun
    have hr := hok.2
    rw [he] at hr
    exact ih hr hes

/-- **The invariant rule under a condition.** What every step that meets the
condition keeps, every run whose steps all meet it keeps. -/
theorem invariant_of_meets (hstep : ∀ s e s', I s → ok s e → step s e = some s' → I s')
    (hrun : exec step s es = some t) (hok : Meets step ok s es) (hs : I s) : I t := by
  induction es generalizing s with
  | nil =>
    rw [exec_nil, Option.some.injEq] at hrun
    exact hrun ▸ hs
  | cons e es ih =>
    obtain ⟨s', he, hes⟩ := exec_cons_eq_some.mp hrun
    obtain ⟨hoke, hr⟩ := hok
    rw [he] at hr
    exact ih hes hr (hstep s e s' hs hoke he)

/-- **The invariant rule.** What every step keeps, every run keeps. -/
theorem invariant (hstep : ∀ s e s', I s → step s e = some s' → I s')
    (hrun : exec step s es = some t) (hs : I s) : I t := by
  induction es generalizing s with
  | nil =>
    rw [exec_nil, Option.some.injEq] at hrun
    exact hrun ▸ hs
  | cons e es ih =>
    obtain ⟨s', he, hes⟩ := exec_cons_eq_some.mp hrun
    exact ih hes (hstep s e s' hs he)

/-- What the end of a run is seen to be, and what follows. -/
theorem end_and {p q : σ → Prop} (hend : ∃ t, exec step s es = some t ∧ p t)
    (h : ∀ t, exec step s es = some t → p t → q t) : ∃ t, exec step s es = some t ∧ p t ∧ q t :=
  hend.imp fun t ht => ⟨ht.1, ht.2, h t ht.1 ht.2⟩

/-- A run has one end, which is as it is seen to be. -/
@[elab_as_elim]
theorem of_end {motive : σ → Prop} (hrun : exec step s es = some t)
    (hend : ∃ t, exec step s es = some t ∧ motive t) : motive t := by
  obtain ⟨t', hrun', ht'⟩ := hend
  cases hrun.symm.trans hrun'
  exact ht'

/-- An entry of an updated list is the new one, or stood elsewhere before. -/
theorem mem_set_cases {α : Type*} {l : List α} {i : Nat} {a b : α} (h : b ∈ l.set i a) :
    b = a ∨ ∃ j, j ≠ i ∧ l[j]? = some b := by
  obtain ⟨j, hj⟩ := List.mem_iff_getElem?.mp h
  rw [List.getElem?_set] at hj
  split at hj
  · split at hj
    · exact Or.inl (Option.some.inj hj).symm
    · cases hj
  next hne => exact Or.inr ⟨j, Ne.symm hne, hj⟩

end Run
