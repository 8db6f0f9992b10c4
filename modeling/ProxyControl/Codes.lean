import Mathlib

/-!
# Texts that say where they end

A digest that no two values share is a hypothesis of several results, and an instance
has to show that the hypothesis can be met – by a function that evaluates, since the
instances are runs. Writing the value out is one, if the text can be read in only one
way. `Delimited` says so in a form that composes: a text followed by anything
determines both the value and what follows.
-/

namespace Codes

variable {α β : Type} {f : α → List Char}

/-- **A text that says where it ends.** -/
def Delimited (f : α → List Char) : Prop :=
  ∀ a b r s, f a ++ r = f b ++ s → a = b ∧ r = s

theorem Delimited.injective (h : Delimited f) : Function.Injective f := by
  intro a b hab
  refine (h a b [] [] ?_).1
  rw [hab]

def char (c : Char) : List Char := [c]

theorem delimited_char : Delimited char := by
  intro a b r s h
  exact List.cons.inj h

def bool (b : Bool) : List Char := [if b then '1' else '0']

theorem delimited_bool : Delimited bool := by
  intro a b r s h
  obtain ⟨hchar, hr⟩ := List.cons.inj h
  have hbool : ∀ a b : Bool, (if a then '1' else '0') = (if b then '1' else '0') → a = b := by
    decide
  exact ⟨hbool a b hchar, hr⟩

/-- Two texts, one after the other. -/
def pair (f : α → List Char) (g : β → List Char) (p : α × β) : List Char := f p.1 ++ g p.2

theorem Delimited.pair {g : β → List Char} (hf : Delimited f) (hg : Delimited g) :
    Delimited (pair f g) := by
  intro a b r s h
  unfold Codes.pair at h
  rw [List.append_assoc, List.append_assoc] at h
  obtain ⟨hfst, hr⟩ := hf _ _ _ _ h
  obtain ⟨hsnd, hend⟩ := hg _ _ _ _ hr
  exact ⟨Prod.ext hfst hsnd, hend⟩

/-- The text of what a value is made of. -/
theorem Delimited.comp (hf : Delimited f) {g : β → α} (hg : Function.Injective g) :
    Delimited fun b => f (g b) := by
  intro a b r s h
  obtain ⟨hval, hr⟩ := hf _ _ _ _ h
  exact ⟨hg hval, hr⟩

/-- The items of a list, each announced, and a full stop. -/
def list (f : α → List Char) : List α → List Char
  | [] => ['.']
  | a :: l => '+' :: (f a ++ list f l)

theorem Delimited.list (hf : Delimited f) : Delimited (list f) := by
  intro l
  induction l with
  | nil =>
    intro l' r s h
    cases l' with
    | nil => exact ⟨rfl, (List.cons.inj h).2⟩
    | cons b l' => exact absurd (List.cons.inj h).1 (by decide)
  | cons a l ih =>
    intro l' r s h
    cases l' with
    | nil => exact absurd (List.cons.inj h).1 (by decide)
    | cons b l' =>
      have hr : f a ++ Codes.list f l ++ r = f b ++ Codes.list f l' ++ s :=
        (List.cons.inj h).2
      rw [List.append_assoc, List.append_assoc] at hr
      obtain ⟨rfl, htail⟩ := hf _ _ _ _ hr
      obtain ⟨rfl, hend⟩ := ih _ _ _ htail
      exact ⟨rfl, hend⟩

def string (s : String) : List Char := list char s.toList

theorem delimited_string : Delimited string :=
  delimited_char.list.comp fun _ _ h => String.ext h

def nat (n : Nat) : List Char := list char (List.replicate n '1')

theorem delimited_nat : Delimited nat :=
  delimited_char.list.comp fun a b h => by simpa using congrArg List.length h

def int (i : Int) : List Char := pair bool nat (decide (0 ≤ i), i.natAbs)

theorem delimited_int : Delimited int := by
  refine (delimited_bool.pair delimited_nat).comp fun a b h => ?_
  obtain ⟨hsign, habs⟩ := Prod.mk.inj h
  rw [decide_eq_decide] at hsign
  omega

def option (f : α → List Char) (o : Option α) : List Char := list f o.toList

theorem Delimited.option (hf : Delimited f) : Delimited (option f) := by
  refine hf.list.comp fun a b h => ?_
  cases a with
  | none =>
    cases b with
    | none => rfl
    | some b => cases h
  | some a =>
    cases b with
    | none => cases h
    | some b => exact congrArg some (List.cons.inj h).1

end Codes
