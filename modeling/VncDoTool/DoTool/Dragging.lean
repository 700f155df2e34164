import VncDoTool.DoTool.Pointing
import VncDoTool.Lib.Line

/-!
# Dragging the pointer

`mouseDrag` moves the pointer along the straight line to its target, a few pixels at a time.

* `InputState.mouseDrag`: the loop; the pauses between its moves change no attribute.
* `dragPath`: the places it moves to, and `Smooth`: what makes them a drag.
* `mouseDrag_smooth`: the events of a drag are its path, up to one the wire cannot carry.
-/

namespace VncDoTool

/-- `range(0, dmax, step)`, where `dmax` is a distance. -/
def dragStops (dmax step : ℤ) : Except PyErr (List ℤ) :=
  if step = 0 then .error ⟨.valueError, "range() arg 3 must not be zero"⟩
  else if 0 < step then .ok (Line.ticks dmax step)
  else .ok []

/-- `mouseDrag`. -/
def InputState.mouseDrag (x y step : ℤ) : Py InputState Unit := do
  let s ← get
  let ox := s.x
  let oy := s.y
  let dx := x - ox
  let dy := y - oy
  let dmax := max |dx| |dy|
  let stops ← RFBClient.ofExcept (dragStops dmax step)
  stops.forM fun k => mouseMove (ox + (dx * k).fdiv dmax) (oy + (dy * k).fdiv dmax)
  mouseMove x y

/-! ## The path -/

/-- The greater of the two distances a drag goes. -/
def dragLength (start target : ℤ × ℤ) : ℤ := max |target.1 - start.1| |target.2 - start.2|

/-- Where the pointer is after `k` pixels of that distance. -/
def dragPoint (start target : ℤ × ℤ) (k : ℤ) : ℤ × ℤ :=
  (start.1 + Line.place (target.1 - start.1) (dragLength start target) k,
    start.2 + Line.place (target.2 - start.2) (dragLength start target) k)

/-- The places a drag moves the pointer to. -/
def dragPath (start target : ℤ × ℤ) (step : ℤ) : List (ℤ × ℤ) :=
  (Line.ticks (dragLength start target) step).map (dragPoint start target) ++ [target]

/-- From one coordinate to the next on the way to a third, in no more than a step. -/
structure Hop (step target p q : ℤ) : Prop where
  towards : Line.Between p target q
  short : |q - p| ≤ step

/-- Places that lead from a start to a target without a detour or a jump. -/
structure Smooth (start target : ℤ × ℤ) (step : ℤ) (path : List (ℤ × ℤ)) : Prop where
  starts : path.head? = some start
  arrives : path.getLast? = some target
  between : ∀ p ∈ path, Line.Between start.1 target.1 p.1 ∧ Line.Between start.2 target.2 p.2
  hops : path.IsChain fun p q => Hop step target.1 p.1 q.1 ∧ Hop step target.2 p.2 q.2

section Path

variable {start target : ℤ × ℤ} {step : ℤ}

theorem dragLength_nonneg (start target : ℤ × ℤ) : 0 ≤ dragLength start target :=
  le_max_of_le_left (abs_nonneg _)

theorem dragPoint_zero : dragPoint start target 0 = start := by
  unfold dragPoint
  rw [Line.place_zero, Line.place_zero, add_zero, add_zero]

theorem dragPoint_length : dragPoint start target (dragLength start target) = target := by
  have hx : |target.1 - start.1| ≤ dragLength start target := le_max_left _ _
  have hy : |target.2 - start.2| ≤ dragLength start target := le_max_right _ _
  unfold dragPoint
  rw [Line.place_self hx, Line.place_self hy, add_sub_cancel, add_sub_cancel]

/-- The target is the last point of the line, also where the line is a point. -/
theorem dragPath_eq_map : dragPath start target step =
    (Line.ticks (dragLength start target) step ++ [dragLength start target]).map
      (dragPoint start target) := by
  rw [List.map_append, List.map_singleton, dragPoint_length]
  rfl

/-- A coordinate of the line from one tick to the next. -/
theorem hop_place {d m k k' a b : ℤ} (hd : b - a = d) (hdm : |d| ≤ m) (hk : 0 ≤ k) (hle : k ≤ k')
    (hstep : k' ≤ k + step) (hm : k' ≤ m) :
    Hop step b (a + Line.place d m k) (a + Line.place d m k') := by
  have hj : k + (k' - k) = k' := add_sub_cancel k k'
  obtain ⟨⟨hlow, hhigh⟩, hshort⟩ :=
    Line.place_hop (k := k) hdm (sub_nonneg.mpr hle) (hj.trans_le hm) hk
  rw [hj] at hlow hhigh hshort
  have hb : b = a + d := by omega
  refine ⟨⟨?_, ?_⟩, ?_⟩
  · rw [hb, min_add_add_left]
    exact add_le_add_right hlow a
  · rw [hb, max_add_add_left]
    exact add_le_add_right hhigh a
  · rw [add_sub_add_left_eq_sub]
    exact le_trans hshort (by omega)

/-- A coordinate of the line is between its ends. -/
theorem between_place {d m k a b : ℤ} (hd : b - a = d) (hdm : |d| ≤ m) (hk : 0 ≤ k) (hm : k ≤ m) :
    Line.Between a b (a + Line.place d m k) := by
  have hhop : Hop k b (a + Line.place d m 0) (a + Line.place d m k) :=
    hop_place hd hdm le_rfl hk (by omega) hm
  have hbetween := hhop.towards
  rwa [Line.place_zero, add_zero] at hbetween

/-- The path of a drag is smooth, whatever its start, its target and its step. -/
theorem smooth_dragPath (start target : ℤ × ℤ) (hstep : 1 ≤ step) :
    Smooth start target step (dragPath start target step) where
  starts := by
    rw [dragPath_eq_map, List.head?_map, Line.head?_ticks hstep (dragLength_nonneg _ _),
      Option.map_some, dragPoint_zero]
  arrives := by rw [dragPath, List.getLast?_append_of_ne_nil _ (List.cons_ne_nil _ _)]; rfl
  between := by
    rw [dragPath_eq_map]
    intro p hp
    obtain ⟨k, hk, rfl⟩ := List.mem_map.mp hp
    obtain ⟨hk0, hkm⟩ := Line.mem_ticks_append hstep (dragLength_nonneg _ _) hk
    exact ⟨between_place rfl (le_max_left _ _) hk0 hkm,
      between_place rfl (le_max_right _ _) hk0 hkm⟩
  hops := by
    rw [dragPath_eq_map, List.isChain_map]
    apply (Line.isChain_ticks hstep).imp_of_mem_imp
    intro k k' hk hk' hnext
    have hk0 := (Line.mem_ticks_append hstep (dragLength_nonneg _ _) hk).1
    have hkm := (Line.mem_ticks_append hstep (dragLength_nonneg _ _) hk').2
    exact ⟨hop_place rfl (le_max_left _ _) hk0 hnext.1 hnext.2 hkm,
      hop_place rfl (le_max_right _ _) hk0 hnext.1 hnext.2 hkm⟩

end Path

/-! ## The events -/

namespace InputState

variable {s : InputState}

instance (s : InputState) : Decidable s.Packable :=
  decidable_of_iff (0 ≤ s.x ∧ s.x < 65536 ∧ 0 ≤ s.y ∧ s.y < 65536 ∧ s.buttons < 256)
    ⟨fun ⟨hx, hxlt, hy, hylt, hb⟩ => ⟨hx, hxlt, hy, hylt, hb⟩,
      fun h => ⟨h.x_nonneg, h.x_lt, h.y_nonneg, h.y_lt, h.buttons_lt⟩⟩

/-- The event of a place with the buttons as they are held. -/
def eventAt (s : InputState) (p : ℤ × ℤ) : ClientMessage := .pointerEvent p.1 p.2 s.buttons

/-- The event of a place fits the wire. -/
def FitsAt (s : InputState) (p : ℤ × ℤ) : Prop := (s.moved p.1 p.2).Packable

instance (s : InputState) : DecidablePred s.FitsAt := fun p =>
  inferInstanceAs (Decidable (s.moved p.1 p.2).Packable)

/-- The moves of a drag, one place after the other. -/
def moves (places : List (ℤ × ℤ)) : Py InputState Unit := places.forM fun p => mouseMove p.1 p.2

theorem run_moves_cons (p : ℤ × ℤ) (places : List (ℤ × ℤ)) :
    (moves (p :: places)).run s = (mouseMove p.1 p.2 >>= fun _ => moves places).run s := rfl

/-- The code of a drag is the moves of its path. -/
theorem run_mouseDrag (x y : ℤ) {step : ℤ} (hstep : 1 ≤ step) :
    (mouseDrag x y step).run s = (moves (dragPath (s.x, s.y) (x, y) step)).run s := by
  have hstops : dragStops (dragLength (s.x, s.y) (x, y)) step =
      .ok (Line.ticks (dragLength (s.x, s.y) (x, y)) step) := by
    rw [dragStops, if_neg (by omega), if_pos (by omega)]
  unfold mouseDrag
  rw [run_bind_ok (EStateM.run_get _)]
  show (RFBClient.ofExcept (dragStops (dragLength (s.x, s.y) (x, y)) step) >>= _).run s = _
  rw [hstops, run_bind_ok (run_ofExcept_ok _), moves, dragPath]
  simp only [List.forM_eq_forM, List.forM_append, List.forM_map, List.forM_cons, List.forM_nil,
    bind_pure_unit]
  rfl

/-- Which places fit depends on the buttons alone. -/
theorem fitsAt_told (p q : ℤ × ℤ) : (s.moved p.1 p.2).told.FitsAt q ↔ s.FitsAt q :=
  ⟨fun h => ⟨h.x_nonneg, h.x_lt, h.y_nonneg, h.y_lt, h.buttons_lt⟩,
    fun h => ⟨h.x_nonneg, h.x_lt, h.y_nonneg, h.y_lt, h.buttons_lt⟩⟩

/-- A place that fits is told. -/
theorem run_mouseMove_ok {p : ℤ × ℤ} (h : s.FitsAt p) :
    (mouseMove p.1 p.2).run s = .ok () (s.moved p.1 p.2).told := by
  rw [run_mouseMove_eq]
  exact tell_packable h

/-- Moves send the events of the places that fit, up to the first that does not. -/
theorem sent_moves (places : List (ℤ × ℤ)) :
    (Effect.state ((moves places).run s)).sent =
      s.sent ++ (places.takeWhile fun p => s.FitsAt p).map s.eventAt := by
  induction places generalizing s with
  | nil => exact (List.append_nil _).symm
  | cons p places ih =>
    by_cases hp : s.FitsAt p
    · rw [run_moves_cons, run_bind_ok (run_mouseMove_ok hp), ih,
        List.takeWhile_cons_of_pos (by simpa using hp), List.map_cons]
      simp only [fitsAt_told]
      -- what the events of the places are depends on the buttons alone, too
      show s.sent ++ [s.eventAt p] ++ _ = _
      rw [List.append_assoc]
      rfl
    · obtain ⟨e, hrun⟩ := tell_refused hp
      rw [run_moves_cons, EStateM.run_bind, run_mouseMove_eq, hrun,
        List.takeWhile_cons_of_neg (by simpa using hp)]
      exact (List.append_nil _).symm

/-- Moves to places that fit all succeed. -/
theorem returns_moves {places : List (ℤ × ℤ)} (h : ∀ p ∈ places, s.FitsAt p) :
    Effect.returns ((moves places).run s) = true := by
  induction places generalizing s with
  | nil => rfl
  | cons p places ih =>
    rw [run_moves_cons, run_bind_ok (run_mouseMove_ok (h p List.mem_cons_self))]
    exact ih fun q hq => (fitsAt_told p q).mpr (h q (List.mem_cons_of_mem _ hq))

/-- What lies between two places that fit does too. -/
theorem fitsAt_between {x y : ℤ} {p : ℤ × ℤ} (hstart : s.Packable) (htarget : s.FitsAt (x, y))
    (hx : Line.Between s.x x p.1) (hy : Line.Between s.y y p.2) : s.FitsAt p where
  x_nonneg := le_trans (le_min hstart.x_nonneg htarget.x_nonneg) hx.1
  x_lt := lt_of_le_of_lt hx.2 (max_lt hstart.x_lt htarget.x_lt)
  y_nonneg := le_trans (le_min hstart.y_nonneg htarget.y_nonneg) hy.1
  y_lt := lt_of_le_of_lt hy.2 (max_lt hstart.y_lt htarget.y_lt)
  buttons_lt := hstart.buttons_lt

/-- A drag from anywhere to anywhere has a smooth path. It sends the events of that path, up to the
first the wire cannot carry; between places the wire can carry, it sends them all and returns. -/
theorem mouseDrag_smooth (s : InputState) (x y : ℤ) {step : ℤ} (hstep : 1 ≤ step) :
    let path := dragPath (s.x, s.y) (x, y) step
    Smooth (s.x, s.y) (x, y) step path ∧
      (Effect.state ((mouseDrag x y step).run s)).sent =
        s.sent ++ (path.takeWhile fun p => s.FitsAt p).map s.eventAt ∧
      (s.Packable → s.FitsAt (x, y) →
        Effect.returns ((mouseDrag x y step).run s) = true ∧
        (Effect.state ((mouseDrag x y step).run s)).sent = s.sent ++ path.map s.eventAt) := by
  intro path
  have hsmooth : Smooth (s.x, s.y) (x, y) step path := smooth_dragPath _ _ hstep
  refine ⟨hsmooth, ?_, fun hstart htarget => ?_⟩
  · rw [run_mouseDrag x y hstep]
    exact sent_moves path
  · have hfits : ∀ p ∈ path, s.FitsAt p := fun p hp =>
      fitsAt_between hstart htarget (hsmooth.between p hp).1 (hsmooth.between p hp).2
    have hall : (path.takeWhile fun p => s.FitsAt p) = path :=
      List.takeWhile_eq_self_iff.mpr fun p hp => by simpa using hfits p hp
    rw [run_mouseDrag x y hstep]
    refine ⟨returns_moves hfits, ?_⟩
    rw [sent_moves path, hall]

/-- Three pixels to the right and two down, two at a time. -/
theorem mouseDrag_smooth_right : Smooth (0, 0) (3, 2) 2 [(0, 0), (2, 1), (3, 2)] :=
  (mouseDrag_smooth {} 3 2 (by decide : (1 : ℤ) ≤ 2)).1

end InputState

end VncDoTool
