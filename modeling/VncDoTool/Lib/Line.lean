import Mathlib.Algebra.Order.Group.Unbundled.Int
import Mathlib.Data.List.Chain
import Mathlib.Order.Interval.Set.UnorderedInterval
import Mathlib.Tactic.Linarith
import Mathlib.Tactic.Ring

/-!
# Straight lines on the integers

A distance `d` walked in `m` steps, where the place after `k` of them is rounded down.

* `Line.place`: that place, and `Line.place_hop`: how far it moves while `k` does.
* `Line.ticks`: the multiples of a step below a bound, and `Line.isChain_ticks`: with the bound
  behind them none is more than the step from the next.
* `Line.Between`: a place between two others, whichever is the greater.
-/

namespace Line

/-- A place between two others. -/
def Between (a b p : ℤ) : Prop := min a b ≤ p ∧ p ≤ max a b

/-- The place after `k` of `m` steps along a distance `d`. -/
def place (d m k : ℤ) : ℤ := (d * k).fdiv m

variable {d m k j step : ℤ}

theorem place_zero (d m : ℤ) : place d m 0 = 0 := by rw [place, mul_zero, Int.zero_fdiv]

/-- All the steps make the distance, also where there are none to make. -/
theorem place_self (hd : |d| ≤ m) : place d m m = d := by
  rcases eq_or_ne m 0 with rfl | hm
  · have hzero : d = 0 := abs_nonpos_iff.mp hd
    rw [hzero, place_zero]
  · exact Int.mul_fdiv_cancel d hm

/-- Rounding down respects the order. -/
theorem fdiv_le_fdiv {a b : ℤ} (hm : 0 ≤ m) (h : a ≤ b) : a.fdiv m ≤ b.fdiv m := by
  rw [Int.fdiv_eq_ediv_of_nonneg a hm, Int.fdiv_eq_ediv_of_nonneg b hm]
  rcases hm.eq_or_lt with rfl | hpos
  · rw [Int.ediv_zero, Int.ediv_zero]
  · exact Int.ediv_le_ediv hpos h

/-- Forwards, `j` more steps go forward by `j` at most. -/
theorem place_forward (hd : 0 ≤ d) (hdm : d ≤ m) (hm : 0 < m) (hj : 0 ≤ j) :
    place d m k ≤ place d m (k + j) ∧ place d m (k + j) ≤ place d m k + j := by
  have hlow : d * k ≤ d * (k + j) := by
    have := mul_nonneg hd hj
    linarith [mul_add d k j]
  have hhigh : d * (k + j) ≤ d * k + j * m := by
    have := mul_le_mul_of_nonneg_left hdm hj
    linarith [mul_add d k j, mul_comm d j]
  refine ⟨fdiv_le_fdiv hm.le hlow, ?_⟩
  calc place d m (k + j) ≤ (d * k + j * m).fdiv m := fdiv_le_fdiv hm.le hhigh
    _ = place d m k + j := Int.add_mul_fdiv_right _ _ hm.ne'

/-- Backwards, they go back by `j` at most. -/
theorem place_backward (hd : d ≤ 0) (hdm : -m ≤ d) (hm : 0 < m) (hj : 0 ≤ j) :
    place d m (k + j) ≤ place d m k ∧ place d m k - j ≤ place d m (k + j) := by
  have hhigh : d * (k + j) ≤ d * k := by
    have := mul_nonpos_of_nonpos_of_nonneg hd hj
    linarith [mul_add d k j]
  have hlow : d * k + -j * m ≤ d * (k + j) := by
    have := mul_le_mul_of_nonneg_left hdm hj
    linarith [mul_add d k j, mul_comm d j, neg_mul j m, mul_neg j m]
  refine ⟨fdiv_le_fdiv hm.le hhigh, ?_⟩
  calc place d m k - j = (d * k + -j * m).fdiv m := by
        rw [Int.add_mul_fdiv_right _ _ hm.ne']
        rfl
    _ ≤ place d m (k + j) := fdiv_le_fdiv hm.le hlow

/-- Until all the steps are made, each place lies between the one before and the end, and `j` steps
away from it at most. -/
theorem place_hop (hd : |d| ≤ m) (hj : 0 ≤ j) (hkm : k + j ≤ m) (hk : 0 ≤ k) :
    Between (place d m k) d (place d m (k + j)) ∧ |place d m (k + j) - place d m k| ≤ j := by
  have hend : place d m (k + j + (m - (k + j))) = d := by
    rw [add_sub_cancel]
    exact place_self hd
  have hrest : 0 ≤ m - (k + j) := sub_nonneg.mpr hkm
  obtain ⟨hdlow, hdhigh⟩ := abs_le.mp hd
  rcases (le_trans (abs_nonneg d) hd).eq_or_lt with rfl | hm
  · -- nowhere to go: no step is made
    have hk0 : k = 0 := by omega
    have hj0 : j = 0 := by omega
    have hd0 : d = 0 := by omega
    rw [hk0, hj0, hd0, add_zero, place_zero]
    exact ⟨⟨min_le_left _ _, le_max_left _ _⟩, by simp⟩
  · rcases le_total 0 d with hforward | hbackward
    · obtain ⟨hle, hhop⟩ := place_forward (k := k) hforward hdhigh hm hj
      have hto := (place_forward (k := k + j) hforward hdhigh hm hrest).1
      rw [hend] at hto
      refine ⟨⟨min_le_of_left_le hle, le_max_of_le_right hto⟩, abs_le.mpr ⟨?_, ?_⟩⟩
      · linarith
      · linarith
    · obtain ⟨hle, hhop⟩ := place_backward (k := k) hbackward hdlow hm hj
      have hto := (place_backward (k := k + j) hbackward hdlow hm hrest).1
      rw [hend] at hto
      refine ⟨⟨min_le_of_right_le hto, le_max_of_le_left hle⟩, abs_le.mpr ⟨?_, ?_⟩⟩
      · linarith
      · linarith

/-! ## Ticks -/

/-- How many multiples of `step` there are from 0 on that are less than `stop`. -/
def count (stop step : ℤ) : ℕ := ((stop + step - 1) / step).toNat

/-- These multiples. -/
def ticks (stop step : ℤ) : List ℤ := (List.range (count stop step)).map fun i : ℕ => step * i

theorem mem_ticks (hstep : 1 ≤ step) (hk : k ∈ ticks m step) : 0 ≤ k ∧ k < m := by
  obtain ⟨i, hi, rfl⟩ := List.mem_map.mp hk
  have hlt : (i : ℤ) < (m + step - 1) / step := Int.lt_toNat.mp (List.mem_range.mp hi)
  have hnext : ((i : ℤ) + 1) * step ≤ m + step - 1 := (Int.le_ediv_iff_mul_le (by omega)).mp hlt
  have hcomm : ((i : ℤ) + 1) * step = step * i + step := by ring
  exact ⟨mul_nonneg (by omega) (by omega), by omega⟩

theorem mem_ticks_append (hstep : 1 ≤ step) (hm : 0 ≤ m) (hk : k ∈ ticks m step ++ [m]) :
    0 ≤ k ∧ k ≤ m := by
  rcases List.mem_append.mp hk with htick | hend
  · exact ⟨(mem_ticks hstep htick).1, (mem_ticks hstep htick).2.le⟩
  · rw [List.mem_singleton.mp hend]
    exact ⟨hm, le_rfl⟩

/-- The last tick is a step before the bound at most. -/
theorem le_mul_count (hstep : 1 ≤ step) (m : ℤ) : m ≤ step * count m step := by
  have hlt : m + step - 1 < ((m + step - 1) / step + 1) * step :=
    Int.lt_ediv_add_one_mul_self _ (by omega)
  have hcomm : ((m + step - 1) / step + 1) * step = step * ((m + step - 1) / step) + step := by ring
  have hmul : step * ((m + step - 1) / step) ≤ step * count m step :=
    mul_le_mul_of_nonneg_left (Int.self_le_toNat _) (by omega)
  omega

/-- The first tick is 0, unless the bound is. -/
theorem head?_ticks (hstep : 1 ≤ step) (hm : 0 ≤ m) : (ticks m step ++ [m]).head? = some 0 := by
  rcases hm.eq_or_lt with rfl | hpos
  · have hnone : count 0 step = 0 := by
      rw [count, zero_add, Int.ediv_eq_zero_of_lt (by omega) (by omega)]
      rfl
    rw [ticks, hnone]
    rfl
  · have hsome : 0 < count m step := by
      have hone : 1 ≤ (m + step - 1) / step := (Int.le_ediv_iff_mul_le (by omega)).mpr (by omega)
      exact Int.lt_toNat.mpr (by omega)
    obtain ⟨n, hn⟩ := Nat.exists_eq_add_of_lt hsome
    rw [ticks, hn, zero_add, List.range_succ_eq_map]
    simp

/-- From each tick to the next, and from the last to the bound, it is a step at most. -/
theorem isChain_ticks (hstep : 1 ≤ step) :
    (ticks m step ++ [m]).IsChain fun k k' => k ≤ k' ∧ k' ≤ k + step := by
  have hlast := le_mul_count hstep m
  have hlength : (ticks m step).length = count m step := by
    rw [ticks, List.length_map, List.length_range]
  have hget {i : ℕ} (hi : i < (ticks m step).length) : (ticks m step)[i] = step * i := by
    simp only [ticks, List.getElem_map, List.getElem_range]
  have hsucc (i : ℕ) : step * ((i + 1 : ℕ) : ℤ) = step * i + step := by
    push_cast
    ring
  rw [List.isChain_iff_getElem]
  intro i hi
  rw [List.length_append, List.length_singleton] at hi
  have hi' : i < (ticks m step).length := by omega
  have hlt : step * (i : ℤ) < m := by
    rw [← hget hi']
    exact (mem_ticks hstep (List.getElem_mem hi')).2
  rw [List.getElem_append_left hi', hget hi']
  rcases Nat.lt_or_ge (i + 1) (ticks m step).length with hnext | hbound
  · rw [List.getElem_append_left hnext, hget hnext, hsucc]
    exact ⟨by omega, by omega⟩
  · -- `i` is the last tick
    rw [List.getElem_append_right hbound, List.getElem_singleton]
    rw [← hlength, (by omega : (ticks m step).length = i + 1), hsucc] at hlast
    exact ⟨hlt.le, hlast⟩

end Line
