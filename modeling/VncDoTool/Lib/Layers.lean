import Mathlib.Data.List.Basic

/-!
# Layers

Layers lie one over another, the last on top. A layer has a colour at some places and is clear at the
others, so that what shows at a place is the colour of the topmost layer that has one there.

* `Layers.top`: what shows of a pile of layers.
* `Layers.top_cons`, `Layers.top_append`: what shows of a pile over another.
* `Layers.top_eq_none`: where nothing shows.
-/

namespace Layers

variable {P C : Type}

/-- The colour of the last layer that has one at a place. -/
def top (layers : List (P → Option C)) (p : P) : Option C :=
  (layers.filterMap fun layer => layer p).getLast?

variable {layers more : List (P → Option C)} {layer : P → Option C} {p : P}

@[simp] theorem top_nil : top ([] : List (P → Option C)) p = none := rfl

/-- What shows of one pile over another. -/
theorem top_append : top (layers ++ more) p = (top more p).or (top layers p) := by
  unfold top
  rw [List.filterMap_append, List.getLast?_append]

@[simp] theorem top_singleton : top [layer] p = layer p := by
  unfold top
  cases h : layer p with
  | none => simp [h]
  | some colour => simp [h]

/-- What shows of a pile and a layer under it. -/
theorem top_cons : top (layer :: layers) p = (top layers p).or (layer p) := by
  show top ([layer] ++ layers) p = _
  rw [top_append, top_singleton]

/-- Nothing shows where every layer is clear. -/
theorem top_eq_none : top layers p = none ↔ ∀ layer ∈ layers, layer p = none := by
  unfold top
  rw [List.getLast?_eq_none_iff, List.filterMap_eq_nil_iff]

/-- Something shows where a layer has a colour. -/
theorem exists_of_top {colour : C} (h : top layers p = some colour) :
    ∃ layer ∈ layers, layer p = some colour := by
  unfold top at h
  have hmem := List.mem_of_getLast? h
  obtain ⟨layer, hlayer, hp⟩ := List.mem_filterMap.mp hmem
  exact ⟨layer, hlayer, hp⟩

end Layers
