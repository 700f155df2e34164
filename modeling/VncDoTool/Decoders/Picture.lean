import VncDoTool.Decoders.Buffer
import VncDoTool.Lib.Raster

/-!
# Rectangle buffers as pictures

What a `RectBuffer` holds is a picture, blank at first, over which each write that succeeds lays the
pixels it was given.

* `RectBuffer.Shows`: a buffer holds a picture; `RectBuffer.shows_blit`, `RectBuffer.shows_fill`: a
  write lays its pixels over it.
* `BufferCall`: a write with any arguments; `BufferCall.Allowed`: when it succeeds.
* `RectBuffer.refines_picture`: what any writes come to.
-/

namespace VncDoTool

open Raster (Picture render overlay ofRaster Sized)

/-- A slice that is replaced by one as long. -/
theorem getElem?_setSlice {buf new : Bytes} {start i : ℕ} (h : start + new.length ≤ buf.length) :
    (setSlice buf start (start + new.length) new)[i]? =
      if start ≤ i ∧ i < start + new.length then new[i - start]? else buf[i]? := by
  have htake : (buf.take start).length = start := List.length_take_of_le (by omega)
  have hmax : max start (start + new.length) = start + new.length := by omega
  unfold setSlice
  rw [List.append_assoc, hmax]
  by_cases hbefore : i < start
  · -- in front of the slice
    rw [if_neg (by omega), List.getElem?_append_left (by omega), List.getElem?_take_of_lt hbefore]
  · rw [List.getElem?_append_right (by omega), htake]
    by_cases hinside : i < start + new.length
    · rw [if_pos ⟨by omega, hinside⟩, List.getElem?_append_left (by omega)]
    · -- behind it
      rw [if_neg (by omega), List.getElem?_append_right (by omega), List.getElem?_drop]
      congr 1
      omega

namespace RectBuffer

variable {b b' : RectBuffer} {p q : Picture UInt8}

/-- The picture of a buffer that nothing was written to. -/
def blank (bypp : ℕ) : Picture UInt8 := fun _ _ => List.replicate bypp 0

theorem sized_blank (bypp w h : ℕ) : Sized bypp w h (blank bypp) := fun _ _ _ _ =>
  List.length_replicate

theorem repeated_eq_flatMap (color : Bytes) (n : ℕ) :
    repeated color n = (List.range n).flatMap fun _ => color := by
  unfold repeated
  rw [List.flatMap_def, List.map_const', List.length_range]

/-- The raster of one colour. -/
theorem repeated_eq_render (color : Bytes) (w h : ℕ) :
    repeated (repeated color w) h = render w h fun _ _ => color := by
  rw [repeated_eq_flatMap, repeated_eq_flatMap]
  rfl

/-- The blank picture's raster is zero throughout. -/
theorem render_blank (bypp w h : ℕ) :
    render w h (blank bypp) = List.replicate (w * h * bypp) 0 := by
  apply Eq.symm
  refine Raster.eq_render (sized_blank bypp w h) List.length_replicate ?_
  intro x y k hx hy hk
  rw [List.getElem?_replicate_of_lt (Raster.index_lt hx hy hk), blank,
    List.getElem?_replicate_of_lt hk]

/-- The backing of a buffer holds a picture. -/
def Backs (b : RectBuffer) (p : Picture UInt8) : Prop :=
  ∀ x y k, x < b.width → y < b.height → k < b.bypp →
    b.backing[(y * b.width + x) * b.bypp + k]? = (p x y)[k]?

/-- A buffer holds a picture, all of it pixels. -/
structure Shows (b : RectBuffer) (p : Picture UInt8) : Prop where
  valid : b.Valid
  sized : Sized b.bypp b.width b.height p
  tobytes : b.covered = true → b.tobytes = render b.width b.height p
  /-- Before the first write the backing holds the rectangle before. -/
  blank : b.covered = false → b.whole = none ∧ p = RectBuffer.blank b.bypp

/-- Nothing that is behind the rectangle in the backing has changed. -/
def SameTail (b b' : RectBuffer) : Prop := b'.backing.drop b.nbytes = b.backing.drop b.nbytes

/-- A write to the rectangle leaves the rest of the backing alone. -/
theorem drop_setSlice {buf new : Bytes} {start n : ℕ} (hroom : start + new.length ≤ buf.length)
    (hn : start + new.length ≤ n) :
    (setSlice buf start (start + new.length) new).drop n = buf.drop n := by
  apply List.ext_getElem?
  intro i
  rw [List.getElem?_drop, List.getElem?_drop, getElem?_setSlice hroom, if_neg (by omega)]

theorem tobytes_of_none (h : b.whole = none) : b.tobytes = b.backing.take b.nbytes := by
  unfold RectBuffer.tobytes
  rw [h]

/-- What is held in the backing is rendered. -/
theorem tobytes_of_backs (hvalid : b.Valid) (hsized : Sized b.bypp b.width b.height p)
    (hwhole : b.whole = none) (h : b.Backs p) : b.tobytes = render b.width b.height p := by
  rw [tobytes_of_none hwhole]
  apply Raster.eq_render hsized
  · exact List.length_take_of_le hvalid.room
  · intro x y k hx hy hk
    have hindex : (y * b.width + x) * b.bypp + k < b.nbytes := Raster.index_lt hx hy hk
    rw [List.getElem?_take_of_lt hindex]
    exact h x y k hx hy hk

/-- The held blit, or the backing, in the backing. -/
theorem backs_of_take (h : b.backing.take b.nbytes = render b.width b.height p)
    (hsized : Sized b.bypp b.width b.height p) : b.Backs p := by
  intro x y k hx hy hk
  rw [← List.getElem?_take_of_lt (Raster.index_lt hx hy hk), ← Raster.getElem?_render hsized hx hy hk,
    ← h]
  rfl

theorem materialize_of_none (h : b.whole = none) : b.materialize = b := by
  unfold materialize
  split
  · rfl
  next hsome => exact absurd (h.symm.trans hsome) (by simp)

theorem materialize_of_some {pixels : Bytes} (h : b.whole = some pixels) :
    b.materialize =
      { b with backing := setSlice b.backing 0 b.nbytes pixels, whole := none } := by
  unfold materialize
  split
  next hnone => exact absurd (h.symm.trans hnone) (by simp)
  next held hheld => rw [Option.some.inj (hheld.symm.trans h)]

/-- All of the rectangle is replaced. -/
theorem setSlice_all (buf : Bytes) {new : Bytes} {n : ℕ} (hlength : new.length = n) :
    (setSlice buf 0 n new).take n = new ∧ (setSlice buf 0 n new).drop n = buf.drop n := by
  unfold setSlice
  rw [List.take_zero, List.nil_append, Nat.max_eq_right (Nat.zero_le _)]
  subst hlength
  exact ⟨List.take_left, List.drop_left⟩

/-- A part of a buffer that is about to be written finds the picture in the backing. -/
theorem Shows.prepared (h : b.Shows p) :
    b.materialize.clear.Backs p ∧ b.materialize.clear.covered = true ∧
      SameTail b b.materialize.clear := by
  cases hcovered : b.covered with
  | true =>
    have hshown := h.tobytes hcovered
    cases hwhole : b.whole with
    | none =>
      have hsame : b.materialize.clear = b := by
        rw [materialize_of_none hwhole, clear, if_pos hcovered]
      rw [tobytes_of_none hwhole] at hshown
      rw [hsame]
      exact ⟨backs_of_take hshown h.sized, hcovered, rfl⟩
    | some pixels =>
      have hmaterial : b.materialize.clear =
          { b with backing := setSlice b.backing 0 b.nbytes pixels, whole := none } := by
        rw [materialize_of_some hwhole, clear, if_pos hcovered]
      unfold RectBuffer.tobytes at hshown
      rw [hwhole] at hshown
      obtain ⟨htake, hdrop⟩ := setSlice_all b.backing (h.valid.whole pixels hwhole)
      rw [hmaterial]
      refine ⟨backs_of_take ?_ h.sized, hcovered, hdrop⟩
      exact htake.trans hshown
  | false =>
    -- nothing is held, and the backing is cleared
    obtain ⟨hwhole, rfl⟩ := h.blank hcovered
    have hcleared : b.materialize.clear =
        { b with
          backing := setSlice b.backing 0 b.nbytes (List.replicate b.nbytes 0)
          covered := true } := by
      rw [materialize_of_none hwhole, clear, if_neg (by simp [hcovered])]
    obtain ⟨htake, hdrop⟩ := setSlice_all b.backing
      (List.length_replicate (n := b.nbytes) (a := (0 : UInt8)))
    rw [hcleared]
    refine ⟨backs_of_take ?_ h.sized, rfl, hdrop⟩
    rw [render_blank]
    exact htake

/-! ## Writes to the backing -/

theorem backing_writeRows_succ {x y h rowBytes : ℕ} {row : ℕ → Bytes} :
    (b.writeRows x y (h + 1) rowBytes row).backing =
      setSlice (b.writeRows x y h rowBytes row).backing
        ((y + h) * (b.width * b.bypp) + x * b.bypp)
        ((y + h) * (b.width * b.bypp) + x * b.bypp + rowBytes) (row h) := by
  unfold writeRows
  dsimp only
  rw [List.range_succ, List.foldl_append]
  rfl

/-- Rows that lie inside the buffer are laid over what was there. -/
theorem getElem?_writeRows {x y w h : ℕ} {row : ℕ → Bytes} (hroom : b.nbytes ≤ b.backing.length)
    (hrow : ∀ i, i < h → (row i).length = w * b.bypp) (hx : x + w ≤ b.width)
    (hy : y + h ≤ b.height) :
    (∀ X Y k, X < b.width → Y < b.height → k < b.bypp →
      (b.writeRows x y h (w * b.bypp) row).backing[(Y * b.width + X) * b.bypp + k]? =
        if (x ≤ X ∧ X < x + w) ∧ y ≤ Y ∧ Y < y + h then (row (Y - y))[(X - x) * b.bypp + k]?
        else b.backing[(Y * b.width + X) * b.bypp + k]?) ∧
      (b.writeRows x y h (w * b.bypp) row).backing.drop b.nbytes = b.backing.drop b.nbytes := by
  induction h with
  | zero =>
    refine ⟨fun X Y k _ _ _ => ?_, rfl⟩
    rw [if_neg (by omega)]
    rfl
  | succ h ih =>
    obtain ⟨hbefore, htail⟩ := ih (fun i hi => hrow i (by omega)) (by omega)
    have hline : x * b.bypp + w * b.bypp ≤ b.width * b.bypp := by
      rw [← Nat.add_mul]
      exact Nat.mul_le_mul_right _ hx
    have hlength := length_backing_writeRows (b := b) (x := x) (y := y) (h := h) hroom
      (fun i hi => hrow i (by omega)) hline (by omega)
    -- where the last row starts and ends, in places
    have hstart : (y + h) * (b.width * b.bypp) + x * b.bypp =
        ((y + h) * b.width + x) * b.bypp := by ring
    have hend : ((y + h) * b.width + x) * b.bypp + w * b.bypp =
        ((y + h) * b.width + x + w) * b.bypp := by ring
    have hlast : ((y + h) * b.width + x + w) * b.bypp ≤ b.nbytes := by
      refine Nat.mul_le_mul_right _ ?_
      have hlines : (y + h + 1) * b.width ≤ b.height * b.width :=
        Nat.mul_le_mul_right _ (by omega)
      rw [Nat.mul_comm b.width b.height]
      rw [Nat.succ_mul] at hlines
      omega
    have hinside : ((y + h) * b.width + x) * b.bypp + (row h).length ≤
        (b.writeRows x y h (w * b.bypp) row).backing.length := by
      rw [hrow h (Nat.lt_succ_self h), hlength, hend]
      exact hlast.trans hroom
    have hwritten : (b.writeRows x y (h + 1) (w * b.bypp) row).backing =
        setSlice (b.writeRows x y h (w * b.bypp) row).backing (((y + h) * b.width + x) * b.bypp)
          (((y + h) * b.width + x) * b.bypp + (row h).length) (row h) := by
      rw [backing_writeRows_succ, hstart, hrow h (Nat.lt_succ_self h)]
    rw [hwritten]
    constructor
    · intro X Y k hX hY hk
      have hplaces : (((y + h) * b.width + x) * b.bypp ≤ (Y * b.width + X) * b.bypp + k ∧
          (Y * b.width + X) * b.bypp + k < ((y + h) * b.width + x + w) * b.bypp) ↔
            Y = y + h ∧ x ≤ X ∧ X < x + w := by
        rw [Raster.le_index_iff hk, Raster.index_lt_iff hk, Raster.row_iff hX hx]
      rw [getElem?_setSlice hinside, hrow h (Nat.lt_succ_self h), hend, hbefore X Y k hX hY hk]
      by_cases hthis : Y = y + h ∧ x ≤ X ∧ X < x + w
      · -- the row just written
        rw [if_pos (hplaces.mpr hthis)]
        obtain ⟨rfl, hleft, hright⟩ := hthis
        have hcolumn : (y + h) * b.width + X = (y + h) * b.width + x + (X - x) := by omega
        have hindex : ((y + h) * b.width + X) * b.bypp + k - ((y + h) * b.width + x) * b.bypp =
            (X - x) * b.bypp + k := by
          rw [hcolumn, Nat.add_mul, Nat.add_assoc, Nat.add_sub_cancel_left]
        rw [if_pos ⟨⟨hleft, hright⟩, by omega, by omega⟩, hindex, Nat.add_sub_cancel_left]
      · rw [if_neg (mt hplaces.mp hthis)]
        by_cases hrows : (x ≤ X ∧ X < x + w) ∧ y ≤ Y ∧ Y < y + h
        · rw [if_pos hrows, if_pos ⟨hrows.1, hrows.2.1, by omega⟩]
        · rw [if_neg hrows, if_neg (by omega)]
    · rw [← htail]
      refine drop_setSlice hinside ?_
      rw [hrow h (Nat.lt_succ_self h), hend]
      exact hlast

/-- Whole lines are laid over what was there. -/
theorem getElem?_setSlice_lines {y h : ℕ} {new : Bytes} (hroom : b.nbytes ≤ b.backing.length)
    (hlength : new.length = h * (b.width * b.bypp)) (hy : y + h ≤ b.height) :
    (∀ X Y k, X < b.width → Y < b.height → k < b.bypp →
      (setSlice b.backing (y * (b.width * b.bypp)) (y * (b.width * b.bypp) + new.length) new)[
          (Y * b.width + X) * b.bypp + k]? =
        if y ≤ Y ∧ Y < y + h then new[((Y - y) * b.width + X) * b.bypp + k]?
        else b.backing[(Y * b.width + X) * b.bypp + k]?) ∧
      (setSlice b.backing (y * (b.width * b.bypp)) (y * (b.width * b.bypp) + new.length) new).drop
        b.nbytes = b.backing.drop b.nbytes := by
  have hend : y * (b.width * b.bypp) + new.length = (y + h) * b.width * b.bypp := by
    rw [hlength]
    ring
  have hlast : (y + h) * b.width * b.bypp ≤ b.nbytes := by
    refine Nat.mul_le_mul_right _ ?_
    rw [Nat.mul_comm b.width b.height]
    exact Nat.mul_le_mul_right _ hy
  have hinside : y * (b.width * b.bypp) + new.length ≤ b.backing.length := by
    rw [hend]
    exact hlast.trans hroom
  have hstart : y * (b.width * b.bypp) = y * b.width * b.bypp := (Nat.mul_assoc ..).symm
  constructor
  · intro X Y k hX hY hk
    -- An index is among those of the lines exactly if its line is one of them.
    have hplaces : (y * b.width * b.bypp ≤ (Y * b.width + X) * b.bypp + k ∧
        (Y * b.width + X) * b.bypp + k < (y + h) * b.width * b.bypp) ↔ y ≤ Y ∧ Y < y + h := by
      rw [Raster.le_index_iff hk, Raster.index_lt_iff hk, Raster.rows_iff hX]
    rw [getElem?_setSlice hinside, hend, hstart]
    by_cases hrows : y ≤ Y ∧ Y < y + h
    · have hsplit : Y * b.width + X = y * b.width + ((Y - y) * b.width + X) := by
        obtain ⟨r, rfl⟩ := Nat.exists_eq_add_of_le hrows.1
        rw [Nat.add_sub_cancel_left]
        ring
      have hindex : (Y * b.width + X) * b.bypp + k - y * b.width * b.bypp =
          ((Y - y) * b.width + X) * b.bypp + k := by
        rw [hsplit, Nat.add_mul, Nat.add_assoc, Nat.add_sub_cancel_left]
      rw [if_pos (hplaces.mpr hrows), if_pos hrows, hindex]
    · rw [if_neg (mt hplaces.mp hrows), if_neg hrows]
  · exact drop_setSlice hinside (hend ▸ hlast)

/-! ## Writes -/

/-- A write changes the pixels of a buffer, and nothing of the backing behind the rectangle. -/
structure Writes (b b' : RectBuffer) : Prop where
  width : b'.width = b.width
  height : b'.height = b.height
  bypp : b'.bypp = b.bypp
  tail : SameTail b b'

theorem Writes.refl (b : RectBuffer) : Writes b b := ⟨rfl, rfl, rfl, rfl⟩

theorem Writes.nbytes (h : Writes b b') : b'.nbytes = b.nbytes := by
  unfold RectBuffer.nbytes
  rw [h.width, h.height, h.bypp]

theorem Writes.trans {b₁ b₂ b₃ : RectBuffer} (h₁ : Writes b₁ b₂) (h₂ : Writes b₂ b₃) :
    Writes b₁ b₃ where
  width := h₂.width.trans h₁.width
  height := h₂.height.trans h₁.height
  bypp := h₂.bypp.trans h₁.bypp
  tail := by
    have htail := h₂.tail
    unfold SameTail at htail
    rw [h₁.nbytes] at htail
    exact htail.trans h₁.tail

/-- The rectangle has no negative side, and lies inside the buffer. -/
def Inside (b : RectBuffer) (x y w h : ℤ) : Prop :=
  0 ≤ x ∧ 0 ≤ y ∧ 0 ≤ w ∧ 0 ≤ h ∧ x + w ≤ b.width ∧ y + h ≤ b.height

instance (b : RectBuffer) (x y w h : ℤ) : Decidable (b.Inside x y w h) :=
  inferInstanceAs (Decidable (_ ∧ _))

theorem checkBounds_of_inside {x y w h : ℤ} (hinside : b.Inside x y w h) :
    b.checkBounds x y w h = .ok () := by
  obtain ⟨hx, hy, hw, hh, hright, hbottom⟩ := hinside
  unfold checkBounds
  rw [if_neg (by omega), if_neg (by omega)]

theorem checkBounds_of_not_inside {x y w h : ℤ} (hinside : ¬b.Inside x y w h) :
    ∃ text, b.checkBounds x y w h = .error ⟨.decodeError, text⟩ := by
  unfold checkBounds
  split_ifs with hneg hpast
  · exact ⟨_, rfl⟩
  · exact ⟨_, rfl⟩
  · refine absurd ?_ hinside
    unfold Inside
    omega

theorem inside_of_covers {x y w h : ℤ} (hcovers : b.covers x y w h = true) :
    b.Inside x y w h := by
  unfold covers at hcovers
  obtain ⟨rfl, rfl, rfl, rfl⟩ := of_decide_eq_true hcovers
  unfold Inside
  omega

/-- A picture over which pixels were laid is in the backing. -/
theorem shows_written {b₀ : RectBuffer} {x y w h : ℕ} (hbefore : Writes b₀ b)
    (hwrites : Writes b b') (hvalid : b'.Valid) (hwhole : b'.whole = none)
    (hcovered : b'.covered = true)
    (hp : Sized b.bypp b.width b.height p) (hq : Sized b.bypp w h q)
    (hbacks : ∀ X Y k, X < b.width → Y < b.height → k < b.bypp →
      b'.backing[(Y * b.width + X) * b.bypp + k]? =
        if (x ≤ X ∧ X < x + w) ∧ y ≤ Y ∧ Y < y + h then (q (X - x) (Y - y))[k]?
        else (p X Y)[k]?) :
    b'.Shows (overlay p x y w h q) ∧ b'.covered = true ∧ Writes b₀ b' := by
  refine ⟨?_, hcovered, hbefore.trans hwrites⟩
  rw [← hwrites.bypp] at hq
  rw [← hwrites.width, ← hwrites.height, ← hwrites.bypp] at hp hbacks
  have hsized : Sized b'.bypp b'.width b'.height (overlay p x y w h q) := hp.overlay hq
  refine ⟨hvalid, hsized, fun _ => ?_, fun hnot => absurd (hnot.symm.trans hcovered) (by simp)⟩
  apply tobytes_of_backs hvalid hsized hwhole
  intro X Y k hX hY hk
  rw [hbacks X Y k hX hY hk]
  unfold overlay
  split_ifs <;> rfl

/-- A buffer of that size without a held blit is ready for a write. -/
theorem Shows.writes_prepared (h : b.Shows p) : Writes b b.materialize.clear where
  width := by simp
  height := by simp
  bypp := by simp
  tail := h.prepared.2.2

/-- Row `i` of pixels given row by row. -/
theorem getElem?_row {pixels : Bytes} {w i X k bypp : ℕ} (hX : X < w) (hk : k < bypp) :
    ((pixels.drop (i * (w * bypp))).take (w * bypp))[X * bypp + k]? =
      (ofRaster bypp w pixels X i)[k]? := by
  have hindex : i * (w * bypp) + (X * bypp + k) = (i * w + X) * bypp + k := by ring
  rw [List.getElem?_take_of_lt ((Raster.index_lt_iff hk).mpr hX), List.getElem?_drop, hindex,
    Raster.getElem?_ofRaster hk]

/-- A blit that succeeds lays its pixels over the picture. -/
theorem shows_blit {x y w h : ℤ} {pixels : Bytes} (hshows : b.Shows p)
    (hblit : b.blit x y w h pixels = .ok b') :
    b'.Shows (overlay p x.toNat y.toNat w.toNat h.toNat (ofRaster b.bypp w.toNat pixels)) ∧
      b'.covered = true ∧ Writes b b' := by
  have hvalid := valid_blit hshows.valid hblit
  unfold blit at hblit
  split_ifs at hblit with hcovers hlength
  · -- the whole rectangle is held
    obtain rfl := Except.ok.inj hblit
    unfold covers at hcovers
    obtain ⟨rfl, rfl, rfl, rfl⟩ := of_decide_eq_true hcovers
    have hpixels : pixels.length = b.width * b.height * b.bypp := Decidable.not_not.mp hlength
    rw [Int.toNat_zero, Int.toNat_natCast, Int.toNat_natCast]
    refine ⟨⟨hvalid, ?_, fun _ => ?_, fun hnot => absurd hnot (by simp)⟩, rfl, rfl, rfl, rfl, rfl⟩
    · exact hshows.sized.overlay (Raster.sized_ofRaster hpixels)
    · apply Eq.symm
      calc render b.width b.height (overlay p 0 0 b.width b.height (ofRaster b.bypp b.width pixels))
          = render b.width b.height (ofRaster b.bypp b.width pixels) :=
            Raster.render_congr fun x hx y hy => Raster.overlay_inside (by omega) (by omega)
        _ = pixels := Raster.render_ofRaster hpixels
  · cases hbounds : b.checkBounds x y w h with
    | error e =>
      rw [hbounds] at hblit
      exact absurd hblit (by simp [bind, Except.bind])
    | ok u =>
      obtain ⟨hx, hy, hw, hh, hright, hbottom⟩ := inside_of_checkBounds hbounds
      rw [hbounds] at hblit
      simp only [bind, Except.bind] at hblit
      obtain ⟨hbacks, hcovered, htail⟩ := hshows.prepared
      have hwrites := hshows.writes_prepared
      have hroom := (valid_materialize_clear hshows.valid).room
      have hwhole : b.materialize.clear.whole = none := by simp
      have hprepared := hshows.sized
      rw [← hwrites.width, ← hwrites.height, ← hwrites.bypp] at hprepared
      rw [← hwrites.bypp] at hblit ⊢
      rw [← hwrites.width] at hright
      rw [← hwrites.height] at hbottom
      -- the buffer that is written, its backing holding the picture
      generalize b.materialize.clear = ready at *
      have hfits : y.toNat + h.toNat ≤ ready.height := by omega
      split_ifs at hblit with hlength hlines
      all_goals
        obtain rfl := Except.ok.inj hblit
        have hpixels := Decidable.not_not.mp hlength
        have hq := Raster.sized_ofRaster hpixels
      · -- whole lines, in one slice
        obtain ⟨rfl, hwide⟩ := hlines
        have hwidth : w.toNat = ready.width := by omega
        rw [hwidth] at hpixels hq hvalid ⊢
        have hlines : pixels.length = h.toNat * (ready.width * ready.bypp) := by
          rw [hpixels]
          ring
        obtain ⟨hwritten, hbehind⟩ := getElem?_setSlice_lines hroom hlines hfits
        rw [hpixels] at hwritten hbehind
        refine shows_written hwrites ⟨rfl, rfl, rfl, hbehind⟩ hvalid hwhole hcovered hprepared hq ?_
        intro X Y k hX hY hk
        rw [hwritten X Y k hX hY hk, hbacks X Y k hX hY hk]
        refine if_congr ?_ ?_ rfl
        · have hleft : (0 : ℤ).toNat ≤ X := Nat.zero_le X
          rw [Int.toNat_zero]
          omega
        · exact (Raster.getElem?_ofRaster hk).symm
      · -- row by row
        have hrow : ∀ i, i < h.toNat → (List.take (w.toNat * ready.bypp)
            (List.drop (i * (w.toNat * ready.bypp)) pixels)).length = w.toNat * ready.bypp := by
          intro i hi
          have hlast : (i + 1) * (w.toNat * ready.bypp) ≤ h.toNat * (w.toNat * ready.bypp) :=
            Nat.mul_le_mul_right _ hi
          have htotal : pixels.length = h.toNat * (w.toNat * ready.bypp) := by
            rw [hpixels]
            ring
          rw [List.length_take, List.length_drop, htotal]
          rw [Nat.succ_mul] at hlast
          omega
        obtain ⟨hwritten, hbehind⟩ := getElem?_writeRows (x := x.toNat) hroom hrow (by omega) hfits
        refine shows_written hwrites ⟨rfl, rfl, rfl, hbehind⟩ hvalid hwhole hcovered hprepared hq ?_
        intro X Y k hX hY hk
        rw [hwritten X Y k hX hY hk, hbacks X Y k hX hY hk]
        split_ifs with hinside
        · exact getElem?_row (by omega) hk
        · rfl

/-- A fill finds the picture around it in the backing. -/
theorem Shows.based {x y w h : ℤ} (hshows : b.Shows p) :
    Writes b (b.base x y w h) ∧ ∀ X Y k, X < b.width → Y < b.height → k < b.bypp →
      ¬((x.toNat ≤ X ∧ X < x.toNat + w.toNat) ∧ y.toNat ≤ Y ∧ Y < y.toNat + h.toNat) →
        (b.base x y w h).backing[(Y * b.width + X) * b.bypp + k]? = (p X Y)[k]? := by
  cases hcovers : b.covers x y w h with
  | true =>
    -- nothing is around the fill, so that the rectangle before may stay
    have hbase : b.base x y w h = b.materialize := by
      unfold base
      rw [if_neg (by simp [hcovers])]
    unfold covers at hcovers
    obtain ⟨rfl, rfl, rfl, rfl⟩ := of_decide_eq_true hcovers
    refine ⟨⟨by simp, by simp, by simp, ?_⟩, fun X Y k hX hY _ houtside => ?_⟩
    · rw [hbase]
      cases hwhole : b.whole with
      | none =>
        rw [materialize_of_none hwhole]
        rfl
      | some pixels =>
        rw [materialize_of_some hwhole]
        exact (setSlice_all b.backing (hshows.valid.whole pixels hwhole)).2
    · refine absurd ?_ houtside
      rw [Int.toNat_zero, Int.toNat_natCast, Int.toNat_natCast]
      omega
  | false =>
    have hbase : b.base x y w h = b.materialize.clear := by
      unfold base
      rw [if_pos (by simp [hcovers])]
    have hwrites := hshows.writes_prepared
    have hbacks := hshows.prepared.1
    unfold Backs at hbacks
    rw [hwrites.width, hwrites.height, hwrites.bypp] at hbacks
    rw [hbase]
    exact ⟨hwrites, fun X Y k hX hY hk _ => hbacks X Y k hX hY hk⟩

/-- A colour that is repeated. -/
theorem getElem?_repeated {color : Bytes} {n i k : ℕ} (hi : i < n) (hk : k < color.length) :
    (repeated color n)[i * color.length + k]? = color[k]? := by
  rw [repeated_eq_flatMap, Raster.getElem?_flatMap_range (fun _ _ => rfl) hi hk]

/-- A fill that succeeds lays its colour over the picture. -/
theorem shows_fill {x y w h : ℤ} {color : Bytes} (hshows : b.Shows p)
    (hfill : b.fill x y w h color = .ok b') :
    b'.Shows (overlay p x.toNat y.toNat w.toNat h.toNat fun _ _ => color) ∧
      b'.covered = true ∧ Writes b b' := by
  have hvalid := valid_fill hshows.valid hfill
  unfold fill at hfill
  cases hbounds : b.checkBounds x y w h with
  | error e =>
    rw [hbounds] at hfill
    exact absurd hfill (by simp [bind, Except.bind])
  | ok u =>
    obtain ⟨hx, hy, hw, hh, hright, hbottom⟩ := inside_of_checkBounds hbounds
    rw [hbounds] at hfill
    simp only [bind, Except.bind] at hfill
    obtain ⟨hwrites, hbacks⟩ := @Shows.based b p x y w h hshows
    have hroom := (valid_base hshows.valid x y w h).room
    have hwhole : (b.base x y w h).whole = none := by simp
    have hbased := hshows.sized
    rw [← hwrites.width, ← hwrites.height, ← hwrites.bypp] at hbased hbacks
    rw [← hwrites.bypp] at hfill
    rw [← hwrites.width] at hright
    rw [← hwrites.height] at hbottom
    -- the buffer that is written, its backing holding the picture around the fill
    generalize b.base x y w h = ready at *
    have hfits : y.toNat + h.toNat ≤ ready.height := by omega
    split_ifs at hfill with hcolor hlines
    all_goals
      obtain rfl := Except.ok.inj hfill
      have hsize := Decidable.not_not.mp hcolor
      have hq : Sized ready.bypp w.toNat h.toNat fun _ _ => color := fun _ _ _ _ => hsize
      have hrow : (repeated color w.toNat).length = w.toNat * ready.bypp := by
        rw [length_repeated, hsize]
    · -- whole lines, in one slice
      obtain ⟨rfl, hwide⟩ := hlines
      have hwidth : w.toNat = ready.width := by omega
      rw [hwidth] at hq hrow hvalid ⊢
      have hlength : (repeated (repeated color ready.width) h.toNat).length =
          h.toNat * (ready.width * ready.bypp) := by
        rw [length_repeated, hrow]
      obtain ⟨hwritten, hbehind⟩ := getElem?_setSlice_lines hroom hlength hfits
      rw [hlength] at hwritten hbehind
      refine shows_written hwrites ⟨rfl, rfl, rfl, hbehind⟩ hvalid hwhole rfl hbased hq ?_
      intro X Y k hX hY hk
      refine (hwritten X Y k hX hY hk).trans ?_
      have hinside : ((0 : ℤ).toNat ≤ X ∧ X < (0 : ℤ).toNat + ready.width) ∧
          y.toNat ≤ Y ∧ Y < y.toNat + h.toNat ↔ y.toNat ≤ Y ∧ Y < y.toNat + h.toNat := by
        rw [Int.toNat_zero]
        omega
      by_cases hrows : y.toNat ≤ Y ∧ Y < y.toNat + h.toNat
      · rw [if_pos hrows, if_pos (hinside.mpr hrows), repeated_eq_render,
          Raster.getElem?_render hq hX (by omega) hk]
      · rw [if_neg hrows, if_neg (mt hinside.mp hrows)]
        apply hbacks X Y k hX hY hk
        rw [hwidth]
        exact mt hinside.mp hrows
    · -- row by row
      obtain ⟨hwritten, hbehind⟩ :=
        getElem?_writeRows (x := x.toNat) hroom (fun _ _ => hrow) (by omega) hfits
      refine shows_written hwrites ⟨rfl, rfl, rfl, hbehind⟩ hvalid hwhole rfl hbased hq ?_
      intro X Y k hX hY hk
      refine (hwritten X Y k hX hY hk).trans ?_
      by_cases hinside : (x.toNat ≤ X ∧ X < x.toNat + w.toNat) ∧ y.toNat ≤ Y ∧ Y < y.toNat + h.toNat
      · rw [if_pos hinside, if_pos hinside, ← hsize]
        exact getElem?_repeated (by omega) (hsize ▸ hk)
      · rw [if_neg hinside, if_neg hinside]
        exact hbacks X Y k hX hY hk hinside

/-- A new buffer shows the blank picture, whatever its backing holds. -/
theorem shows_create {width height bypp : ℕ} {backing : Bytes}
    (hroom : width * height * bypp ≤ backing.length) :
    create width height bypp backing = .ok { width, height, bypp, backing } ∧
      ({ width, height, bypp, backing } : RectBuffer).Shows (blank bypp) := by
  have hcreate : create width height bypp backing = .ok { width, height, bypp, backing } := by
    unfold create
    exact if_neg (Nat.not_lt.mpr hroom)
  exact ⟨hcreate, valid_create hcreate, sized_blank bypp width height,
    fun hnot => absurd hnot (by simp), fun _ => ⟨rfl, rfl⟩⟩

/-- When a blit succeeds, and what it raises otherwise. -/
theorem blit_succeeds_iff (b : RectBuffer) (x y w h : ℤ) (pixels : Bytes) :
    (b.Inside x y w h ∧ pixels.length = w.toNat * h.toNat * b.bypp →
      ∃ b', b.blit x y w h pixels = .ok b') ∧
    (¬(b.Inside x y w h ∧ pixels.length = w.toNat * h.toNat * b.bypp) →
      ∃ text, b.blit x y w h pixels = .error ⟨.decodeError, text⟩) := by
  unfold blit
  by_cases hcovers : b.covers x y w h = true
  · rw [if_pos hcovers]
    have hinside := inside_of_covers hcovers
    have hnbytes : w.toNat * h.toNat * b.bypp = b.nbytes := by
      unfold covers at hcovers
      obtain ⟨-, -, rfl, rfl⟩ := of_decide_eq_true hcovers
      rfl
    rw [hnbytes]
    constructor
    · rintro ⟨-, hlength⟩
      exact ⟨_, if_neg (not_not_intro hlength)⟩
    · intro hnot
      exact ⟨_, if_pos fun hlength => hnot ⟨hinside, hlength⟩⟩
  · rw [if_neg hcovers]
    by_cases hinside : b.Inside x y w h
    · rw [checkBounds_of_inside hinside]
      simp only [bind, Except.bind]
      constructor
      · rintro ⟨-, hlength⟩
        rw [if_neg (not_not_intro hlength)]
        split_ifs <;> exact ⟨_, rfl⟩
      · intro hnot
        exact ⟨_, if_pos fun hlength => hnot ⟨hinside, hlength⟩⟩
    · obtain ⟨text, hbounds⟩ := checkBounds_of_not_inside hinside
      rw [hbounds]
      exact ⟨fun hboth => absurd hboth.1 hinside, fun _ => ⟨text, rfl⟩⟩

/-- When a fill succeeds, and what it raises otherwise. -/
theorem fill_succeeds_iff (b : RectBuffer) (x y w h : ℤ) (color : Bytes) :
    (b.Inside x y w h ∧ color.length = b.bypp → ∃ b', b.fill x y w h color = .ok b') ∧
    (¬(b.Inside x y w h ∧ color.length = b.bypp) →
      ∃ text, b.fill x y w h color = .error ⟨.decodeError, text⟩) := by
  unfold fill
  by_cases hinside : b.Inside x y w h
  · rw [checkBounds_of_inside hinside]
    simp only [bind, Except.bind]
    constructor
    · rintro ⟨-, hlength⟩
      rw [if_neg (not_not_intro hlength)]
      split_ifs <;> exact ⟨_, rfl⟩
    · intro hnot
      exact ⟨_, if_pos fun hlength => hnot ⟨hinside, hlength⟩⟩
  · obtain ⟨text, hbounds⟩ := checkBounds_of_not_inside hinside
    rw [hbounds]
    exact ⟨fun hboth => absurd hboth.1 hinside, fun _ => ⟨text, rfl⟩⟩

end RectBuffer

/-! ## Any writes -/

/-- A call of a method that writes, with any arguments. -/
inductive BufferCall : Type where
  | blit (x y w h : ℤ) (pixels : Bytes)
  | fill (x y w h : ℤ) (color : Bytes)
  deriving DecidableEq, Repr

namespace BufferCall

/-- The call, on a buffer. -/
def perform (b : RectBuffer) : BufferCall → Except PyErr RectBuffer
  | blit x y w h pixels => b.blit x y w h pixels
  | fill x y w h color => b.fill x y w h color

/-- The buffer after a call. What raises does so before it writes anything. -/
def after (b : RectBuffer) (call : BufferCall) : RectBuffer :=
  match call.perform b with
  | .ok b' => b'
  | .error _ => b

/-- The rectangle has no negative side and lies in the buffer, and as many bytes come with it as it
needs. -/
def Allowed (b : RectBuffer) : BufferCall → Prop
  | blit x y w h pixels => b.Inside x y w h ∧ pixels.length = w.toNat * h.toNat * b.bypp
  | fill x y w h color => b.Inside x y w h ∧ color.length = b.bypp

instance (b : RectBuffer) (call : BufferCall) : Decidable (call.Allowed b) := by
  cases call <;> exact inferInstanceAs (Decidable (_ ∧ _))

/-- What a call lays over a picture. -/
def paint (bypp : ℕ) (p : Picture UInt8) : BufferCall → Picture UInt8
  | blit x y w h pixels =>
    overlay p x.toNat y.toNat w.toNat h.toNat (ofRaster bypp w.toNat pixels)
  | fill x y w h color => overlay p x.toNat y.toNat w.toNat h.toNat fun _ _ => color

variable {b b' : RectBuffer} {p : Picture UInt8} {call : BufferCall} {calls : List BufferCall}

/-- A call succeeds where it is allowed, and raises a `DecodeError` elsewhere. -/
theorem perform_succeeds_iff (b : RectBuffer) (call : BufferCall) :
    (call.Allowed b → ∃ b', call.perform b = .ok b') ∧
      (¬call.Allowed b → ∃ text, call.perform b = .error ⟨.decodeError, text⟩) := by
  cases call with
  | blit x y w h pixels => exact RectBuffer.blit_succeeds_iff b x y w h pixels
  | fill x y w h color => exact RectBuffer.fill_succeeds_iff b x y w h color

theorem shows_perform (hshows : b.Shows p) (hperform : call.perform b = .ok b') :
    b'.Shows (call.paint b.bypp p) ∧ b'.covered = true ∧ b.Writes b' := by
  cases call with
  | blit x y w h pixels => exact RectBuffer.shows_blit hshows hperform
  | fill x y w h color => exact RectBuffer.shows_fill hshows hperform

/-- Whether a call is allowed depends on the size of the buffer only. -/
theorem allowed_iff_of_writes (call : BufferCall) (hwrites : b.Writes b') : call.Allowed b' ↔ call.Allowed b := by
  cases call <;> simp only [Allowed, RectBuffer.Inside, hwrites.width, hwrites.height, hwrites.bypp]

theorem after_of_error {e : PyErr} (hperform : call.perform b = .error e) : call.after b = b := by
  unfold after
  rw [hperform]

/-- One call. -/
theorem shows_after (call : BufferCall) (hshows : b.Shows p) :
    (call.after b).Shows (if call.Allowed b then call.paint b.bypp p else p) ∧
      b.Writes (call.after b) ∧ (call.Allowed b ∨ b.covered = true → (call.after b).covered = true) := by
  unfold after
  by_cases hallowed : call.Allowed b
  · obtain ⟨b', hperform⟩ := (perform_succeeds_iff b call).1 hallowed
    obtain ⟨hshown, hcovered, hwrites⟩ := shows_perform hshows hperform
    rw [if_pos hallowed, hperform]
    exact ⟨hshown, hwrites, fun _ => hcovered⟩
  · obtain ⟨text, hperform⟩ := (perform_succeeds_iff b call).2 hallowed
    rw [if_neg hallowed, hperform]
    exact ⟨hshows, RectBuffer.Writes.refl b, fun hor => hor.resolve_left hallowed⟩

/-- The picture that the allowed ones of some calls come to, each laid over those before. -/
def painted (b : RectBuffer) (p : Picture UInt8) (calls : List BufferCall) : Picture UInt8 :=
  (calls.filter fun call => call.Allowed b).foldl (paint b.bypp) p

/-- Any calls. -/
theorem shows_run (hshows : b.Shows p) (calls : List BufferCall) :
    (calls.foldl after b).Shows (painted b p calls) ∧ b.Writes (calls.foldl after b) ∧
      ((∃ call ∈ calls, call.Allowed b) ∨ b.covered = true →
        (calls.foldl after b).covered = true) := by
  induction calls generalizing b p with
  | nil => exact ⟨hshows, RectBuffer.Writes.refl b, fun hor => hor.resolve_left (by simp)⟩
  | cons call calls ih =>
    obtain ⟨hshown, hwrites, hcovered⟩ := shows_after call hshows
    obtain ⟨hshown', hwrites', hcovered'⟩ := ih hshown
    have hsame : ∀ c : BufferCall, c.Allowed (call.after b) ↔ c.Allowed b := fun c =>
      allowed_iff_of_writes c hwrites
    refine ⟨?_, hwrites.trans hwrites', ?_⟩
    · have hpainted : painted b p (call :: calls) =
          painted (call.after b) (if call.Allowed b then call.paint b.bypp p else p) calls := by
        unfold painted
        simp only [hsame, hwrites.bypp, List.filter_cons, decide_eq_true_eq]
        split_ifs <;> rfl
      rw [hpainted]
      exact hshown'
    · rintro (⟨c, hmem, hallowed⟩ | halready)
      · rcases List.mem_cons.mp hmem with rfl | hmem
        · exact hcovered' (.inr (hcovered (.inl hallowed)))
        · exact hcovered' (.inl ⟨c, hmem, (hsame c).mpr hallowed⟩)
      · exact hcovered' (.inr (hcovered (.inr halready)))

end BufferCall

open BufferCall in
/-- After any calls at least one of which was allowed, a buffer holds the blank picture with each
allowed call laid over it in order; a call raises a `DecodeError` exactly where it is not allowed,
and leaves the buffer as it was; and the backing behind the rectangle stays. -/
theorem RectBuffer.refines_picture {width height bypp : ℕ} {backing : Bytes} {b : RectBuffer}
    (hcreate : create width height bypp backing = .ok b) (calls : List BufferCall) :
    ((∃ call ∈ calls, call.Allowed b) →
      (calls.foldl after b).tobytes = render width height (painted b (blank bypp) calls)) ∧
    (∀ call : BufferCall,
      (call.Allowed b → ∃ b', call.perform (calls.foldl after b) = .ok b') ∧
      (¬call.Allowed b →
        (∃ text, call.perform (calls.foldl after b) = .error ⟨.decodeError, text⟩) ∧
          call.after (calls.foldl after b) = calls.foldl after b)) ∧
    (calls.foldl after b).backing.drop (width * height * bypp) =
      backing.drop (width * height * bypp) := by
  have hroom : width * height * bypp ≤ backing.length := by
    by_contra hsmall
    unfold create at hcreate
    rw [if_pos (Nat.not_le.mp hsmall)] at hcreate
    exact absurd hcreate (by simp)
  obtain ⟨hcreated, hblank⟩ := shows_create hroom
  obtain rfl := Except.ok.inj (hcreated.symm.trans hcreate)
  obtain ⟨hshown, hwrites, hcovered⟩ := shows_run hblank calls
  refine ⟨fun hsome => ?_, fun call => ?_, hwrites.tail⟩
  · rw [hshown.tobytes (hcovered (.inl hsome)), hwrites.width, hwrites.height]
  · have hsame := allowed_iff_of_writes call hwrites
    refine ⟨fun hallowed => (perform_succeeds_iff _ call).1 (hsame.mpr hallowed), fun hnot => ?_⟩
    obtain ⟨text, hperform⟩ := (perform_succeeds_iff _ call).2 (mt hsame.mp hnot)
    exact ⟨⟨text, hperform⟩, after_of_error hperform⟩

/-- A stale backing with a spare byte: a part is filled, a blit raises, and the rest is blank. -/
theorem RectBuffer.stale_refines_picture :
    let b : RectBuffer := { width := 2, height := 1, bypp := 1, backing := [7, 7, 9] }
    let calls : List BufferCall := [.fill 1 0 1 1 [5], .blit 0 0 1 1 [3, 3]]
    (calls.foldl BufferCall.after b).tobytes = [0, 5] ∧
      (calls.foldl BufferCall.after b).backing.drop 2 = [9] := by
  have hrefines := RectBuffer.refines_picture (show create 2 1 1 [7, 7, 9] = .ok _ from rfl)
    [.fill 1 0 1 1 [5], .blit 0 0 1 1 [3, 3]]
  refine ⟨(hrefines.1 ⟨.fill 1 0 1 1 [5], List.mem_cons_self, ?_⟩).trans ?_, hrefines.2.2⟩
  · decide
  · decide

end VncDoTool
