import Mathlib.Algebra.BigOperators.Ring.List
import Mathlib.Algebra.Order.BigOperators.Group.List
import Mathlib.Algebra.Order.Field.Rat
import Mathlib.Algebra.Order.Ring.Abs
import Mathlib.Data.Rat.Floor
import Mathlib.Tactic.Linarith
import Mathlib.Tactic.Positivity

/-!
# Averages that are rounded

Passes over the values of a signal, each of which puts a rounded average of values in the place of
every value.

* `Rounding`, `Average`, `Pass`: roundings, averages and passes, with what makes them so.
* `Averaging.smooth`: passes one after the other.
* `Averaging.smooth_le_add`, `Averaging.smooth_close`: signals that are near stay as near.
-/

namespace Averaging

/-- A rounding that respects the order and the integers. -/
structure Rounding : Type where
  round : ℚ → ℤ
  mono : ∀ x y, x ≤ y → round x ≤ round y
  add_int : ∀ x (n : ℤ), round (x + n) = round x + n

/-- To the nearest integer, halves upwards. -/
def Rounding.nearest : Rounding where
  round x := ⌊x + 1 / 2⌋
  mono _ _ h := Int.floor_le_floor (by linarith)
  add_int x n := by rw [add_right_comm, Int.floor_add_intCast]

/-- Weights that are shares of a whole. -/
structure Average (α : Type) : Type where
  terms : List (α × ℚ)
  nonneg : ∀ t ∈ terms, 0 ≤ t.2
  sum_eq : (terms.map Prod.snd).sum = 1

/-- The average of the values of a signal. -/
def Average.of {α : Type} (a : Average α) (f : α → ℤ) : ℚ := (a.terms.map fun t => t.2 * (f t.1 : ℚ)).sum

/-- The same share of each of some places. -/
def Average.equal {α : Type} (places : List α) (h : places ≠ []) : Average α where
  terms := places.map fun p => (p, 1 / (places.length : ℚ))
  nonneg := by
    intro t ht
    obtain ⟨p, -, rfl⟩ := List.mem_map.mp ht
    positivity
  sum_eq := by
    have hne : (places.length : ℚ) ≠ 0 := by
      rw [Nat.cast_ne_zero]
      exact mt List.length_eq_zero_iff.mp h
    rw [List.map_map]
    show (places.map fun _ => 1 / (places.length : ℚ)).sum = 1
    rw [List.map_const', List.sum_replicate, nsmul_eq_mul, mul_one_div, div_self hne]

/-- An average for each place of a region, of places of that region. -/
structure Pass {α : Type} (inside : α → Prop) : Type where
  average : α → Average α
  within : ∀ p, inside p → ∀ t ∈ (average p).terms, inside t.1

/-- Pass after pass over a signal. -/
def smooth {α : Type} {inside : α → Prop} (r : Rounding) (passes : List (Pass inside)) (f : α → ℤ) :
    α → ℤ :=
  passes.foldl (fun f pass p => r.round ((pass.average p).of f)) f

variable {α : Type} {inside : α → Prop} {f g : α → ℤ} {n : ℤ}

/-- A constant goes through an average. -/
theorem Average.of_le_add (a : Average α) (h : ∀ t ∈ a.terms, f t.1 ≤ g t.1 + n) :
    a.of f ≤ a.of g + n := by
  have hterms : (a.terms.map fun t => t.2 * (f t.1 : ℚ)).sum ≤
      (a.terms.map fun t => t.2 * (g t.1 : ℚ) + t.2 * n).sum := by
    apply List.sum_le_sum
    intro t ht
    have hvalue : (f t.1 : ℚ) ≤ g t.1 + n := by exact_mod_cast h t ht
    calc t.2 * (f t.1 : ℚ) ≤ t.2 * (g t.1 + n) := mul_le_mul_of_nonneg_left hvalue (a.nonneg t ht)
      _ = t.2 * g t.1 + t.2 * n := mul_add _ _ _
  have hwhole : (a.terms.map fun t => t.2 * (n : ℚ)).sum = n := by
    rw [List.sum_map_mul_right, a.sum_eq, one_mul]
  calc a.of f ≤ (a.terms.map fun t => t.2 * (g t.1 : ℚ) + t.2 * n).sum := hterms
    _ = a.of g + n := by rw [List.sum_map_add, hwhole, Average.of]

/-- Signals of which one is nowhere more than `n` above the other stay so. -/
theorem smooth_le_add (r : Rounding) (passes : List (Pass inside))
    (h : ∀ p, inside p → f p ≤ g p + n) :
    ∀ p, inside p → smooth r passes f p ≤ smooth r passes g p + n := by
  induction passes generalizing f g with
  | nil => exact h
  | cons pass passes ih =>
    apply ih
    intro p hp
    have haverage : (pass.average p).of f ≤ (pass.average p).of g + n :=
      (pass.average p).of_le_add fun t ht => h t.1 (pass.within p hp t ht)
    calc r.round ((pass.average p).of f) ≤ r.round ((pass.average p).of g + n) := r.mono _ _ haverage
      _ = r.round ((pass.average p).of g) + n := r.add_int _ _

/-- Signals that are nowhere more than `n` apart stay so. -/
theorem smooth_close (r : Rounding) (passes : List (Pass inside))
    (h : ∀ p, inside p → |f p - g p| ≤ n) :
    ∀ p, inside p → |smooth r passes f p - smooth r passes g p| ≤ n := by
  intro p hp
  have hfg := smooth_le_add r passes (f := f) (g := g)
    (fun q hq => by linarith [(abs_le.mp (h q hq)).2]) p hp
  have hgf := smooth_le_add r passes (f := g) (g := f)
    (fun q hq => by linarith [(abs_le.mp (h q hq)).1]) p hp
  exact abs_le.mpr ⟨by linarith, by linarith⟩

end Averaging
