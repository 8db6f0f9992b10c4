import Mathlib

/-!
# Programs that ask for effects

A program that talks to the outside – a store, a manager reached over a socket,
a clock – is a tree: it is done, it has failed, or it asks for an effect and
goes on with the answer (`Prog`). A machine that holds such a program performs
its first command whenever it likes, lets others move in between, or drops the
program altogether, which is a crash.

A program is written with `do`, and an error ends it as `?` does. `attempt`
turns the error into a value, `mapError` changes its type.

`Prog.Safe` is what one proves about a program. It speaks about the part of the
state that *only the program writes*, so that nothing that happens between two
commands can make it false, and about a `Discipline`: what has to hold of that
part when a command is asked for, and what may hold of it after the command
was answered. A safe program never asks for a command out of turn, whatever it
is answered. Where others write the same state, what they may do to it becomes
part of the discipline (`Discipline.under`). The rules follow the constructs of
the programs: one for each of sequence, `attempt`, `mapError` and the loop, and
`Prog.Safe.of_all` for a stretch of program all of whose commands keep one
assertion.

Where the answers are known a program runs, and `Prog.eval` is its end.
-/

/-- A program over the commands `C`, where `R c` is the type of the answers to
`c`. -/
inductive Prog (C : Type) (R : C → Type) (ε α : Type)
  | ret (a : α)
  | fail (e : ε)
  | call (c : C) (k : R c → Prog C R ε α)

namespace Prog

variable {C : Type} {R : C → Type} {ε ε' α β ρ : Type}

/-- One program, and then another with its result. -/
def bind : Prog C R ε α → (α → Prog C R ε β) → Prog C R ε β
  | ret a, f => f a
  | fail e, _ => fail e
  | call c k, f => call c fun r => (k r).bind f

instance : Monad (Prog C R ε) where
  pure := ret
  bind := bind

def ask (c : C) : Prog C R ε (R c) := call c ret

/-- An answer that may be an error: the program fails with it. -/
def orFail : Except ε α → Prog C R ε α
  | .ok a => ret a
  | .error e => fail e

/-- The same program with another type of errors. -/
def mapError (f : ε → ε') : Prog C R ε α → Prog C R ε' α
  | ret a => ret a
  | fail e => fail (f e)
  | call c k => call c fun r => (k r).mapError f

/-- The program that hands its error over as a value. -/
def attempt : Prog C R ε α → Prog C R ε' (Except ε α)
  | ret a => ret (.ok a)
  | fail e => ret (.error e)
  | call c k => call c fun r => (k r).attempt

/-- The program without its result. -/
def discard (p : Prog C R ε α) : Prog C R ε Unit := p.bind fun _ => ret ()

/-- The program with every command carried out by a program over other commands. -/
def through {C' : Type} {R' : C' → Type} (f : (c : C) → Prog C' R' ε (R c)) :
    Prog C R ε α → Prog C' R' ε α
  | ret a => ret a
  | fail e => fail e
  | call c k => (f c).bind fun r => (k r).through f

/-- The command the program asks for next. -/
def head : Prog C R ε α → Option C
  | call c _ => some c
  | _ => none

@[simp] theorem pure_eq (a : α) : (pure a : Prog C R ε α) = ret a := rfl

@[simp] theorem bind_eq (p : Prog C R ε α) (f : α → Prog C R ε β) : (p >>= f) = p.bind f := rfl

/-! ## Running alone -/

/-- **What a program ends with**, and in which state, where `respond` answers its
commands. -/
def eval (respond : ρ → (c : C) → R c × ρ) : Prog C R ε α → ρ → Except ε α × ρ
  | ret a, s => (.ok a, s)
  | fail e, s => (.error e, s)
  | call c k, s => eval respond (k (respond s c).1) (respond s c).2

section Eval

variable (respond : ρ → (c : C) → R c × ρ) (s : ρ)

theorem eval_bind (p : Prog C R ε α) (f : α → Prog C R ε β) :
    eval respond (p.bind f) s = match eval respond p s with
      | (.ok a, t) => eval respond (f a) t
      | (.error e, t) => (.error e, t) := by
  induction p generalizing s with
  | ret a => rfl
  | fail e => rfl
  | call c k ih => exact ih _ _

theorem eval_attempt (p : Prog C R ε α) : eval respond (p.attempt : Prog C R ε' (Except ε α)) s
      = (.ok (eval respond p s).1, (eval respond p s).2) := by
  induction p generalizing s with
  | ret a => rfl
  | fail e => rfl
  | call c k ih => exact ih _ _

end Eval

/-! ## Safety -/

/-- What has to hold of the program's part of the state when a command is asked
for, and what may hold of it after an answer. -/
structure Discipline (C : Type) (R : C → Type) (ρ : Type) where
  guard : ρ → C → Prop
  next : ρ → (c : C) → R c → ρ → Prop

/-- **The program asks for no command out of turn**, and what it ends with
satisfies `Q`, or `E` where it fails. -/
def Safe (D : Discipline C R ρ) (Q : α → ρ → Prop) (E : ε → ρ → Prop) :
    Prog C R ε α → ρ → Prop
  | ret a, s => Q a s
  | fail e, s => E e s
  | call c k, s => D.guard s c ∧ ∀ r s', D.next s c r s' → Safe D Q E (k r) s'

/-- The discipline of a program that runs next to others: between two commands the
others move, as `rely` says they may. -/
def Discipline.under (D : Discipline C R ρ) (rely : ρ → ρ → Prop) : Discipline C R ρ where
  guard s c := ∀ t, rely s t → D.guard t c
  next s c r u := ∃ t, rely s t ∧ D.next t c r u

/-- Every command the program can come to ask for satisfies `P`. -/
def All (P : C → Prop) : Prog C R ε α → Prop
  | ret _ => True
  | fail _ => True
  | call c k => P c ∧ ∀ r, All P (k r)

/-- Every command the program can come to ask for satisfies `P`, and whatever it ends
with satisfies `B`. -/
def Does (P : C → Prop) (B : α → Prop) : Prog C R ε α → Prop
  | ret a => B a
  | fail _ => True
  | call c k => P c ∧ ∀ r, Does P B (k r)

variable {D : Discipline C R ρ} {Q : α → ρ → Prop} {E : ε → ρ → Prop} {s : ρ} {p : Prog C R ε α}
  {f : α → Prog C R ε β} {c : C} {l : List α} {P' : C → Prop}

namespace Safe

variable {Q' : α → ρ → Prop}

theorem mono {E' : ε → ρ → Prop} (hQ : ∀ a t, Q a t → Q' a t) (hE : ∀ e t, E e t → E' e t)
    (h : Safe D Q E p s) : Safe D Q' E' p s := by
  induction p generalizing s with
  | ret a => exact hQ a s h
  | fail e => exact hE e s h
  | call c k ih => exact ⟨h.1, fun r t ht => ih r (h.2 r t ht)⟩

/-- **Sequence.** The second program is safe wherever the first one ends. -/
theorem bind {Q : β → ρ → Prop} (h : Safe D (fun a => Safe D Q E (f a)) E p s) :
    Safe D Q E (p.bind f) s := by
  induction p generalizing s with
  | ret a => exact h
  | fail e => exact h
  | call c k ih => exact ⟨h.1, fun r t ht => ih r (h.2 r t ht)⟩

/-- What two proofs say of the end of a program. -/
theorem and {E' : ε → ρ → Prop} (h : Safe D Q E p s) (h' : Safe D Q' E' p s) :
    Safe D (fun a t => Q a t ∧ Q' a t) E p s := by
  induction p generalizing s with
  | ret a => exact ⟨h, h'⟩
  | fail e => exact h
  | call c k ih => exact ⟨h.1, fun r t ht => ih r (h.2 r t ht) (h'.2 r t ht)⟩

theorem imp (h : Safe D Q E p s) (hQ : ∀ a t, Q a t → Q' a t) : Safe D Q' E p s :=
  h.mono hQ fun _ _ he => he

/-- A program, and then another one wherever it ends. -/
theorem seq {Q' : β → ρ → Prop} (h : Safe D Q E p s) (hf : ∀ a t, Q a t → Safe D Q' E (f a) t) :
    Safe D Q' E (p.bind f) s :=
  bind (h.mono hf fun _ _ he => he)

/-- A command, and then the rest of the program with its answer. -/
theorem ask_bind {f : R c → Prog C R ε α} (hgd : D.guard s c)
    (h : ∀ r t, D.next s c r t → Safe D Q E (f r) t) : Safe D Q E ((ask c).bind f) s :=
  ⟨hgd, h⟩

theorem orFail {x : Except ε α} (hok : ∀ a, x = .ok a → Q a s) (herr : ∀ e, x = .error e → E e s) :
    Safe D Q E (orFail x) s := by
  cases x with
  | ok a => exact hok a rfl
  | error e => exact herr e rfl

theorem mapError {E : ε' → ρ → Prop} {f : ε → ε'} (h : Safe D Q (fun e => E (f e)) p s) :
    Safe D Q E (p.mapError f) s := by
  induction p generalizing s with
  | ret a => exact h
  | fail e => exact h
  | call c k ih => exact ⟨h.1, fun r t ht => ih r (h.2 r t ht)⟩

theorem attempt {Q : Except ε α → ρ → Prop} {E : ε' → ρ → Prop}
    (h : Safe D (fun a => Q (.ok a)) (fun e => Q (.error e)) p s) : Safe D Q E p.attempt s := by
  induction p generalizing s with
  | ret a => exact h
  | fail e => exact h
  | call c k ih => exact ⟨h.1, fun r t ht => ih r (h.2 r t ht)⟩

/-- **The loop.** The assertion is about the items that are still to come. -/
theorem foldlM {f : β → α → Prog C R ε β} {Q : β → ρ → Prop} {I : List α → β → ρ → Prop}
    (hs : ∀ a l b t, I (a :: l) b t → Safe D (fun b' => I l b') E (f b a) t)
    (hend : ∀ b t, I [] b t → Q b t) {b : β} (h : I l b s) : Safe D Q E (l.foldlM f b) s := by
  induction l generalizing b s with
  | nil => exact hend b s h
  | cons a l ih =>
    rw [List.foldlM_cons]
    exact bind ((hs a l b s h).mono (fun b' t hb => ih hb) fun _ _ he => he)

theorem forM {f : α → Prog C R ε PUnit} {Q : PUnit → ρ → Prop} {I : List α → ρ → Prop}
    (hs : ∀ a l t, I (a :: l) t → Safe D (fun _ => I l) E (f a) t) (hend : ∀ t, I [] t → Q ⟨⟩ t)
    (h : I l s) : Safe D Q E (l.forM f) s := by
  induction l generalizing s with
  | nil => exact hend s h
  | cons a l ih => exact bind ((hs a l s h).mono (fun _ t hb => ih hb) fun _ _ he => he)

variable {I : ρ → Prop}

/-- **One assertion all the way.** Where every command of a stretch of program
is in turn under an assertion and keeps it, the stretch is safe and keeps it. -/
theorem of_all (h : p.All fun c => ∀ t, I t → D.guard t c ∧ ∀ r t', D.next t c r t' → I t')
    (hs : I s) : Safe D (fun _ => I) (fun _ => I) p s := by
  induction p generalizing s with
  | ret a => exact hs
  | fail e => exact hs
  | call c k ih =>
    obtain ⟨hgd, hnext⟩ := h.1 s hs
    exact ⟨hgd, fun r t ht => ih r (h.2 r) (hnext r t ht)⟩

/-- The same with what the stretch ends with. -/
theorem of_does {B : α → Prop}
    (h : p.Does (fun c => ∀ t, I t → D.guard t c ∧ ∀ r t', D.next t c r t' → I t') B) (hs : I s) :
    Safe D (fun a t => B a ∧ I t) (fun _ => I) p s := by
  induction p generalizing s with
  | ret a => exact ⟨h, hs⟩
  | fail e => exact hs
  | call c k ih =>
    obtain ⟨hgd, hnext⟩ := h.1 s hs
    exact ⟨hgd, fun r t ht => ih r (h.2 r) (hnext r t ht)⟩

/-- **Commands carried out by other programs.** Where each command is, so is the program. -/
theorem through {C' : Type} {R' : C' → Type} {D' : Discipline C' R' ρ}
    {f : (c : C) → Prog C' R' ε (R c)}
    (hf : ∀ c t, D.guard t c → Safe D' (fun r u => D.next t c r u) (fun _ _ => False) (f c) t)
    (h : Safe D Q E p s) : Safe D' Q E (p.through f) s := by
  induction p generalizing s with
  | ret a => exact h
  | fail e => exact h
  | call c k ih =>
    exact bind ((hf c s h.1).mono (fun r t ht => ih r (h.2 r t ht)) fun _ _ he => he.elim)

/-- A move of the others leaves a safe program safe. -/
theorem of_rely {rely : ρ → ρ → Prop} (htrans : ∀ s t u, rely s t → rely t u → rely s u)
    {k : R c → Prog C R ε α} {t : ρ} (hst : rely s t) (h : Safe (D.under rely) Q E (call c k) s) :
    Safe (D.under rely) Q E (call c k) t := by
  refine ⟨fun u htu => h.1 u (htrans s t u hst htu), fun r v hnext => ?_⟩
  obtain ⟨u, htu, hu⟩ := hnext
  exact h.2 r v ⟨u, htrans s t u hst htu, hu⟩

end Safe

namespace Does

variable {P : C → Prop} {B : α → Prop}

theorem mono {B' : α → Prop} (hP : ∀ c, P c → P' c) (hB : ∀ a, B a → B' a) (h : p.Does P B) :
    p.Does P' B' := by
  induction p with
  | ret a => exact hB a h
  | fail e => trivial
  | call c k ih => exact ⟨hP c h.1, fun r => ih r (h.2 r)⟩

/-- **Sequence.** -/
theorem bind {B' : β → Prop} (h : p.Does P B) (hf : ∀ a, B a → (f a).Does P B') :
    (p.bind f).Does P B' := by
  induction p with
  | ret a => exact hf a h
  | fail e => trivial
  | call c k ih => exact ⟨h.1, fun r => ih r (h.2 r)⟩

theorem ask (hc : P c) : (ask c : Prog C R ε (R c)).Does P fun _ => True :=
  ⟨hc, fun _ => trivial⟩

theorem any (p : Prog C R ε α) : p.Does (fun _ => True) fun _ => True := by
  induction p with
  | ret a => trivial
  | fail e => trivial
  | call c k ih => exact ⟨trivial, ih⟩

/-- **The loop**, whatever it carries. -/
theorem foldlM {f : β → α → Prog C R ε β} (h : ∀ b a, (f b a).Does P fun _ => True) {b : β} :
    (l.foldlM f b).Does P fun _ => True := by
  induction l generalizing b with
  | nil => trivial
  | cons a l ih => exact (h b a).bind fun _ _ => ih

end Does

namespace All

variable {P : C → Prop}

theorem mono (hP : ∀ c, P c → P' c) (h : p.All P) : p.All P' := by
  induction p with
  | ret a => trivial
  | fail e => trivial
  | call c k ih => exact ⟨hP c h.1, fun r => ih r (h.2 r)⟩

theorem bind (h : p.All P) (hf : ∀ a, (f a).All P) : (p.bind f).All P := by
  induction p with
  | ret a => exact hf a
  | fail e => trivial
  | call c k ih => exact ⟨h.1, fun r => ih r (h.2 r)⟩

theorem ask_bind {f : R c → Prog C R ε α} (hc : P c) (hf : ∀ r, (f r).All P) :
    ((ask c).bind f).All P :=
  ⟨hc, hf⟩

theorem orFail (x : Except ε α) : (orFail x : Prog C R ε α).All P := by
  cases x with
  | ok a => trivial
  | error e => trivial

theorem mapError {f : ε → ε'} (h : p.All P) : (p.mapError f).All P := by
  induction p with
  | ret a => trivial
  | fail e => trivial
  | call c k ih => exact ⟨h.1, fun r => ih r (h.2 r)⟩

theorem attempt (h : p.All P) : (p.attempt : Prog C R ε' (Except ε α)).All P := by
  induction p with
  | ret a => trivial
  | fail e => trivial
  | call c k ih => exact ⟨h.1, fun r => ih r (h.2 r)⟩

/-- The commands of a program that is carried out by other programs are theirs. -/
theorem through {C' : Type} {R' : C' → Type} {P : C' → Prop} {f : (c : C) → Prog C' R' ε (R c)}
    (h : ∀ c, (f c).All P) (p : Prog C R ε α) : (p.through f).All P := by
  induction p with
  | ret a => trivial
  | fail e => trivial
  | call c k ih => exact bind (h c) ih

end All

end Prog
