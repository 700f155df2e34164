import Mathlib.Data.List.Basic

/-!
# Fallible computations

Computations that return a value or raise an error, and what is known of both.

* `Fallible.bind_eq_ok`: a sequence returns what its second part returns on the value of the first.
* `Fallible.mapM_eq_ok`: a computation for each element of a list.
* `Fallible.checks_eq_ok`: a value after two checks.
-/

namespace Fallible

variable {ε α β : Type}

/-- A sequence that returns something. -/
theorem bind_eq_ok {x : Except ε α} {f : α → Except ε β} {b : β} :
    x >>= f = .ok b ↔ ∃ a, x = .ok a ∧ f a = .ok b := by
  cases x with
  | error e =>
    refine ⟨fun h => ?_, fun ⟨a, h, _⟩ => ?_⟩
    · cases h
    · cases h
  | ok a =>
    refine ⟨fun h => ⟨a, rfl, h⟩, fun ⟨a', h, h'⟩ => ?_⟩
    cases h
    exact h'

/-- A computation for each element of a list, each of which returns something. -/
theorem mapM_eq_ok {f : α → Except ε β} {g : α → β} {l : List α} (h : ∀ a ∈ l, f a = .ok (g a)) :
    l.mapM f = .ok (l.map g) := by
  induction l with
  | nil => rfl
  | cons a l ih =>
    rw [List.mapM_cons, h a List.mem_cons_self, ih fun a ha => h a (List.mem_cons_of_mem _ ha)]
    rfl

/-- Two checks passed. -/
theorem checks_eq_ok {c d : Prop} [Decidable c] [Decidable d] {e e' : ε} {a b : α}
    (h : (if c then .error e else if d then .error e' else .ok a : Except ε α) = .ok b) :
    ¬c ∧ ¬d ∧ a = b := by
  split_ifs at h with hc hd
  exact ⟨hc, hd, Except.ok.inj h⟩

end Fallible
