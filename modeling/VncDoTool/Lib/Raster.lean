import Mathlib.Data.List.Basic
import Mathlib.Tactic.Ring
import Mathlib.Tactic.Linarith

/-!
# Rasters

A picture gives each place of a plane the elements that stand there. Its raster over a rectangle
from the origin lists them row by row.

* `Raster.render`: the raster of a picture; `Raster.getElem?_render`: where each element stands.
* `Raster.eq_render`: a list is a raster where each of its elements is that of the picture.
* `Raster.overlay`: a picture over a part of another.
* `Raster.ofRaster`: the picture in a raster.
-/

namespace Raster

variable {α : Type}

/-- What stands at each place, by column and row. -/
abbrev Picture (α : Type) : Type := ℕ → ℕ → List α

/-- The elements of a picture, row by row. -/
def render (w h : ℕ) (p : Picture α) : List α :=
  (List.range h).flatMap fun y => (List.range w).flatMap fun x => p x y

/-- A picture over the `w` by `h` places from `(x, y)` on, and another around it. -/
def overlay (p : Picture α) (x y w h : ℕ) (q : Picture α) : Picture α := fun X Y =>
  if (x ≤ X ∧ X < x + w) ∧ y ≤ Y ∧ Y < y + h then q (X - x) (Y - y) else p X Y

/-- The picture in a raster of width `w`, `n` elements to a place. -/
def ofRaster (n w : ℕ) (elements : List α) : Picture α := fun X Y =>
  (elements.drop ((Y * w + X) * n)).take n

/-- Each place has `n` elements. -/
def Sized (n w h : ℕ) (p : Picture α) : Prop := ∀ x, x < w → ∀ y, y < h → (p x y).length = n

variable {n w h x y k i : ℕ} {p q : Picture α}

/-! ## Indices -/

theorem index_lt (hx : x < w) (hy : y < h) (hk : k < n) :
    (y * w + x) * n + k < w * h * n := by
  -- the place is one of the `w * h` places
  have hplace : y * w + x + 1 ≤ w * h := by
    have hrow : (y + 1) * w ≤ h * w := Nat.mul_le_mul_right w hy
    rw [Nat.mul_comm w h]
    rw [Nat.succ_mul] at hrow
    omega
  have hall : (y * w + x + 1) * n ≤ w * h * n := Nat.mul_le_mul_right n hplace
  rw [Nat.succ_mul] at hall
  omega

/-- Every index of a raster is that of an element of a place. -/
theorem exists_index (hi : i < w * h * n) :
    ∃ x y k, x < w ∧ y < h ∧ k < n ∧ i = (y * w + x) * n + k := by
  have hn : 0 < n := Nat.pos_of_ne_zero fun hzero => by simp [hzero] at hi
  have hplace : i / n < w * h := (Nat.div_lt_iff_lt_mul hn).mpr hi
  have hw : 0 < w := Nat.pos_of_ne_zero fun hzero => by simp [hzero] at hplace
  have hy : i / n / w < h := (Nat.div_lt_iff_lt_mul hw).mpr (by rwa [Nat.mul_comm h w])
  refine ⟨i / n % w, i / n / w, i % n, Nat.mod_lt _ hw, hy, Nat.mod_lt _ hn, ?_⟩
  rw [Nat.mul_comm (i / n / w) w, Nat.div_add_mod, Nat.mul_comm (i / n) n, Nat.div_add_mod]

/-- The element `k` of a place stands behind the first `i` places exactly where the place does. -/
theorem le_index_iff {a b : ℕ} (hk : k < n) : a * n ≤ b * n + k ↔ a ≤ b := by
  constructor
  · intro hle
    by_contra hlt
    have hnext : (b + 1) * n ≤ a * n := Nat.mul_le_mul_right n (by omega)
    rw [Nat.succ_mul] at hnext
    omega
  · intro hle
    exact (Nat.mul_le_mul_right n hle).trans (Nat.le_add_right _ _)

theorem index_lt_iff {a b : ℕ} (hk : k < n) : b * n + k < a * n ↔ b < a := by
  rw [← not_le, le_index_iff hk, not_le]

/-- The places of a part of one row. -/
theorem row_iff {x' y' w' : ℕ} (hx : x < w) (hfits : x' + w' ≤ w) :
    y' * w + x' ≤ y * w + x ∧ y * w + x < y' * w + x' + w' ↔ y = y' ∧ x' ≤ x ∧ x < x' + w' := by
  constructor
  · rintro ⟨hle, hlt⟩
    have hsame : y = y' := by
      rcases Nat.lt_trichotomy y y' with hbelow | hsame | habove
      · have hrow : (y + 1) * w ≤ y' * w := Nat.mul_le_mul_right w hbelow
        rw [Nat.succ_mul] at hrow
        omega
      · exact hsame
      · have hrow : (y' + 1) * w ≤ y * w := Nat.mul_le_mul_right w habove
        rw [Nat.succ_mul] at hrow
        omega
    subst hsame
    omega
  · rintro ⟨rfl, hle, hlt⟩
    omega

/-- The places of whole rows. -/
theorem rows_iff {y' h' : ℕ} (hx : x < w) :
    y' * w ≤ y * w + x ∧ y * w + x < (y' + h') * w ↔ y' ≤ y ∧ y < y' + h' := by
  have hlow : y' * w ≤ y * w + x ↔ y' ≤ y := le_index_iff hx
  have hhigh : y * w + x < (y' + h') * w ↔ y < y' + h' := index_lt_iff hx
  rw [hlow, hhigh]

/-! ## Pieces of one length -/

theorem length_flatMap {β : Type} {f : β → List α} {xs : List β}
    (hlength : ∀ x ∈ xs, (f x).length = n) : (xs.flatMap f).length = xs.length * n := by
  rw [List.length_flatMap, List.map_congr_left hlength]
  simp

theorem length_flatMap_range {f : ℕ → List α} (hlength : ∀ j, j < w → (f j).length = n) :
    ((List.range w).flatMap f).length = w * n := by
  rw [length_flatMap fun j hj => hlength j (List.mem_range.mp hj), List.length_range]

/-- Cut a list of pieces of one length at that length. -/
theorem pieces_flatMap {β : Type} {f : β → List α} {xs : List β}
    (hlength : ∀ x ∈ xs, (f x).length = n) :
    (List.range xs.length).map (fun i => ((xs.flatMap f).drop (i * n)).take n) = xs.map f := by
  induction xs with
  | nil => rfl
  | cons x xs ih =>
    have hfirst : (f x).length = n := hlength x List.mem_cons_self
    rw [List.length_cons, List.range_succ_eq_map, List.map_cons, List.map_map, List.map_cons,
      List.flatMap_cons, Nat.zero_mul, List.drop_zero, List.take_left' hfirst,
      ← ih fun y hy => hlength y (List.mem_cons_of_mem x hy)]
    congr 1
    apply List.map_congr_left
    intro i _
    -- the first piece is dropped with those before
    rw [Function.comp_apply, Nat.succ_mul, Nat.add_comm, ← List.drop_drop, List.drop_left' hfirst]

/-- The first pieces. -/
theorem take_flatMap_range {f : ℕ → List α} {m : ℕ} (hlength : ∀ j, j < m → (f j).length = n)
    (hle : w ≤ m) : ((List.range m).flatMap f).take (w * n) = (List.range w).flatMap f := by
  obtain ⟨r, rfl⟩ := Nat.exists_eq_add_of_le hle
  rw [List.range_add, List.flatMap_append]
  exact List.take_left' (length_flatMap_range fun j hj => hlength j (by omega))

/-- One piece. -/
theorem piece_flatMap_range {f : ℕ → List α} {j m : ℕ} (hlength : ∀ j, j < m → (f j).length = n)
    (hj : j < m) : (((List.range m).flatMap f).drop (j * n)).take n = f j := by
  obtain ⟨r, rfl⟩ := Nat.exists_eq_add_of_lt hj
  have hbefore : ((List.range j).flatMap f).length = j * n :=
    length_flatMap_range fun i hi => hlength i (by omega)
  have hthis : ((List.range 1).map (j + ·)).flatMap f = f j := by simp
  rw [Nat.add_assoc, List.range_add, List.flatMap_append, List.drop_left' hbefore,
    Nat.add_comm r 1, List.range_add, List.map_append, List.flatMap_append, hthis]
  exact List.take_left' (hlength j hj)

/-- Pieces in groups. -/
theorem flatMap_range_mul (f : ℕ → List α) (n m : ℕ) :
    (List.range (n * m)).flatMap f =
      (List.range n).flatMap fun j => (List.range m).flatMap fun i => f (j * m + i) := by
  induction n with
  | zero => rw [Nat.zero_mul]; rfl
  | succ n ih =>
    rw [Nat.succ_mul, List.range_add, List.flatMap_append, ih, List.range_succ,
      List.flatMap_append, List.flatMap_singleton, List.flatMap_map]

/-- The elements of a list by their indices. -/
theorem flatMap_range_getD {β : Type} (f : β → List α) (xs : List β) (d : β) :
    ((List.range xs.length).flatMap fun i => f (xs.getD i d)) = xs.flatMap f := by
  induction xs with
  | nil => rfl
  | cons x xs ih =>
    rw [List.length_cons, List.range_succ_eq_map, List.flatMap_cons, List.flatMap_map,
      List.flatMap_cons, ← ih]
    rfl

/-! ## Rendering -/

/-- A list of pieces of one length. -/
theorem getElem?_flatMap_range {f : ℕ → List α} (hlength : ∀ j, j < w → (f j).length = n)
    (hx : x < w) (hk : k < n) :
    ((List.range w).flatMap f)[x * n + k]? = (f x)[k]? := by
  induction w with
  | zero => exact absurd hx (Nat.not_lt_zero x)
  | succ w ih =>
    have hbefore : ((List.range w).flatMap f).length = w * n :=
      length_flatMap_range fun j hj => hlength j (Nat.lt_succ_of_lt hj)
    rw [List.range_succ, List.flatMap_append, List.flatMap_singleton]
    rcases Nat.lt_succ_iff_lt_or_eq.mp hx with hlt | rfl
    · rw [List.getElem?_append_left, ih (fun j hj => hlength j (Nat.lt_succ_of_lt hj)) hlt]
      rw [hbefore]
      exact lt_of_lt_of_eq ((index_lt_iff hk).mpr hlt) rfl
    · rw [List.getElem?_append_right (by omega), hbefore, Nat.add_sub_cancel_left]

theorem length_render (hp : Sized n w h p) : (render w h p).length = w * h * n := by
  unfold render
  rw [length_flatMap_range (n := w * n)
    (fun y hy => length_flatMap_range (fun x hx => hp x hx y hy))]
  ring

/-- Where each element of a raster stands. -/
theorem getElem?_render (hp : Sized n w h p) (hx : x < w) (hy : y < h) (hk : k < n) :
    (render w h p)[(y * w + x) * n + k]? = (p x y)[k]? := by
  have hrow : ∀ j, j < h → ((List.range w).flatMap fun x => p x j).length = w * n :=
    fun j hj => length_flatMap_range (fun x hx => hp x hx j hj)
  have hcolumn : x * n + k < w * n := (index_lt_iff hk).mpr hx
  have hindex : (y * w + x) * n + k = y * (w * n) + (x * n + k) := by ring
  unfold render
  rw [hindex, getElem?_flatMap_range hrow hy hcolumn,
    getElem?_flatMap_range (fun j hj => hp j hj y hy) hx hk]

/-- A list with the elements of a picture is its raster. -/
theorem eq_render {elements : List α} (hp : Sized n w h p)
    (hlength : elements.length = w * h * n)
    (helements : ∀ x y k, x < w → y < h → k < n →
      elements[(y * w + x) * n + k]? = (p x y)[k]?) : elements = render w h p := by
  apply List.ext_getElem?
  intro i
  by_cases hi : i < w * h * n
  · obtain ⟨x, y, k, hx, hy, hk, rfl⟩ := exists_index hi
    rw [helements x y k hx hy hk, getElem?_render hp hx hy hk]
  · rw [List.getElem?_eq_none (by omega), List.getElem?_eq_none (by rw [length_render hp]; omega)]

/-- Pictures that agree within the rectangle have one raster. -/
theorem render_congr (hsame : ∀ x, x < w → ∀ y, y < h → p x y = q x y) :
    render w h p = render w h q := by
  unfold render
  refine List.flatMap_congr fun y hy => List.flatMap_congr fun x hx => ?_
  exact hsame x (List.mem_range.mp hx) y (List.mem_range.mp hy)

/-! ## Overlays -/

theorem overlay_inside {x' y' w' h' : ℕ} (hx : x' ≤ x ∧ x < x' + w') (hy : y' ≤ y ∧ y < y' + h') :
    overlay p x' y' w' h' q x y = q (x - x') (y - y') := if_pos ⟨hx, hy⟩

theorem overlay_outside {x' y' w' h' : ℕ} (h : ¬((x' ≤ x ∧ x < x' + w') ∧ y' ≤ y ∧ y < y' + h')) :
    overlay p x' y' w' h' q x y = p x y := if_neg h

theorem Sized.overlay {x' y' w' h' : ℕ} (hp : Sized n w h p) (hq : Sized n w' h' q) :
    Sized n w h (overlay p x' y' w' h' q) := by
  intro x hx y hy
  unfold Raster.overlay
  split_ifs with hinside
  · exact hq _ (by omega) _ (by omega)
  · exact hp x hx y hy

/-- A picture in a raster that is long enough has all its elements. -/
theorem sized_ofRaster {elements : List α} (hlength : elements.length = w * h * n) :
    Sized n w h (ofRaster n w elements) := by
  intro x hx y hy
  unfold ofRaster
  have hplace : y * w + x + 1 ≤ w * h := by
    have hrow : (y + 1) * w ≤ h * w := Nat.mul_le_mul_right w hy
    rw [Nat.mul_comm w h]
    rw [Nat.succ_mul] at hrow
    omega
  have hall : (y * w + x + 1) * n ≤ w * h * n := Nat.mul_le_mul_right n hplace
  rw [Nat.succ_mul] at hall
  rw [List.length_take, List.length_drop, hlength]
  omega

theorem getElem?_ofRaster {elements : List α} (hk : k < n) :
    (ofRaster n w elements x y)[k]? = elements[(y * w + x) * n + k]? := by
  unfold ofRaster
  rw [List.getElem?_take_of_lt hk, List.getElem?_drop]

/-- It is that raster. -/
theorem render_ofRaster {elements : List α} (hlength : elements.length = w * h * n) :
    render w h (ofRaster n w elements) = elements :=
  (eq_render (sized_ofRaster hlength) hlength fun _ _ _ _ _ hk => (getElem?_ofRaster hk).symm).symm

/-- The picture in the raster of a picture. -/
theorem ofRaster_render (hp : Sized n w h p) (hx : x < w) (hy : y < h) :
    ofRaster n w (render w h p) x y = p x y := by
  have hsized : (ofRaster n w (render w h p) x y).length = n :=
    sized_ofRaster (length_render hp) x hx y hy
  apply List.ext_getElem?
  intro k
  by_cases hk : k < n
  · rw [getElem?_ofRaster hk, getElem?_render hp hx hy hk]
  · rw [List.getElem?_eq_none (by omega), List.getElem?_eq_none (by rw [hp x hx y hy]; omega)]

end Raster
