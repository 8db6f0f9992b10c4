import Mathlib

/-!
# Checks in sequence

A request handler is a sequence of checks, each of which may end it with an
error, and what it does when all of them passed. These rules take such a
sequence apart: if it ended well, every check in it passed, and what came out is
what its last line says.
-/

namespace Checks

universe u v

variable {ε : Type u} {α β : Type v} {f : α → Except ε β} {x : Except ε α} {b : β}

/-- A sequence ends well where its first part does, and what follows. -/
theorem bind_eq_ok : (x >>= f) = .ok b ↔ ∃ a, x = .ok a ∧ f a = .ok b := by
  cases x with
  | error e => exact ⟨(nomatch ·), fun ⟨_, h, _⟩ => (nomatch h)⟩
  | ok a => exact ⟨fun h => ⟨a, rfl, h⟩, fun ⟨_, ha, h⟩ => Except.ok.inj ha ▸ h⟩

/-- Nothing happens after an error. The rule is definitional: `simp only` uses it and leaves
no trace in a proof. -/
theorem throw_then {e : ε} : ((throw e : Except ε α) >>= f) = throw e := rfl

/-- A check that ends with an error was passed. -/
theorem check_eq_ok {c : Prop} [Decidable c] {e : ε} {x : Except ε β} :
    (if c then throw e else x) = .ok b ↔ ¬ c ∧ x = .ok b := by
  split
  next hc => exact ⟨(nomatch ·), fun h => absurd hc h.1⟩
  next hc => exact ⟨fun h => ⟨hc, h⟩, fun h => h.2⟩

/-- An error of another type. -/
theorem mapError_eq_ok {ε' : Type*} {g : ε → ε'} {a : α} : x.mapError g = .ok a ↔ x = .ok a := by
  cases x with
  | error e => exact ⟨(nomatch ·), (nomatch ·)⟩
  | ok a => exact ⟨fun h => Except.ok.inj h ▸ rfl, fun h => Except.ok.inj h ▸ rfl⟩

/-- The last line. -/
theorem pure_eq_ok {a : β} : (pure a : Except ε β) = .ok b ↔ a = b :=
  ⟨Except.ok.inj, congrArg Except.ok⟩

/-- Ending well is ending with a value. -/
theorem exists_of_isOk (h : x.isOk = true) : ∃ a, x = .ok a := by
  cases x with
  | error e => cases h
  | ok a => exact ⟨a, rfl⟩

end Checks
