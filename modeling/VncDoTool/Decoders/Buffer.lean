import VncDoTool.Client.State

/-!
# Rectangle buffers

`RectBuffer` of `decoders/buffer.py`: the pixels of one rectangle, in memory that is reused from one
rectangle to the next.

* `RectBuffer.blit`, `RectBuffer.fill`: write a part of the rectangle, or raise.
* `RectBuffer.Valid`: the memory is large enough, and a held blit is as long as the rectangle;
  `RectBuffer.valid_blit`, `RectBuffer.valid_fill`: writing keeps it.
* `RectBuffer.length_tobytes`: so what a buffer holds is as long as its rectangle.
-/

namespace VncDoTool

/-- `buf[start:stop] = new`. -/
def setSlice (buf : Bytes) (start stop : ℕ) (new : Bytes) : Bytes :=
  buf.take start ++ new ++ buf.drop (max start stop)

/-- Replacing a slice by one as long changes no length. -/
theorem length_setSlice {buf new : Bytes} {start : ℕ} (h : start + new.length ≤ buf.length) :
    (setSlice buf start (start + new.length) new).length = buf.length := by
  unfold setSlice
  simp only [List.length_append, List.length_take, List.length_drop]
  omega

/-- A rectangle buffer. -/
structure RectBuffer : Type where
  width : ℕ
  height : ℕ
  bypp : ℕ
  /-- It is reused across rectangles, so that it arrives holding the previous one. -/
  backing : Bytes
  /-- A blit of the whole rectangle, held instead of copied. -/
  whole : Option Bytes := none
  /-- Nothing of the previous rectangle is left. -/
  covered : Bool := false
  deriving DecidableEq, Repr

namespace RectBuffer

/-- `_nbytes`. -/
def nbytes (b : RectBuffer) : ℕ := b.width * b.height * b.bypp

/-- `__init__`, with a backing. -/
def create (width height bypp : ℕ) (backing : Bytes) : Except PyErr RectBuffer :=
  let needed := width * height * bypp
  if backing.length < needed then
    .error ⟨.valueError, s!"backing too small: need {needed} bytes, got {backing.length}"⟩
  else .ok { width, height, bypp, backing }

/-- `_check_bounds`. -/
def checkBounds (b : RectBuffer) (x y w h : ℤ) : Except PyErr Unit :=
  if x < 0 ∨ y < 0 ∨ w < 0 ∨ h < 0 then
    .error ⟨.decodeError, s!"negative rect: x={x}, y={y}, w={w}, h={h}"⟩
  else if x + w > b.width ∨ y + h > b.height then
    .error ⟨.decodeError,
      s!"rect ({x}, {y}, {w}, {h}) extends past buffer bounds ({b.width}x{b.height})"⟩
  else .ok ()

/-- The rectangle is the whole buffer. -/
def covers (b : RectBuffer) (x y w h : ℤ) : Bool := x = 0 ∧ y = 0 ∧ w = b.width ∧ h = b.height

/-- `_clear`. -/
def clear (b : RectBuffer) : RectBuffer :=
  if b.covered then b
  else { b with
    backing := setSlice b.backing 0 b.nbytes (List.replicate b.nbytes 0)
    covered := true }

/-- `_materialize`: write a held blit into the backing. -/
def materialize (b : RectBuffer) : RectBuffer :=
  match b.whole with
  | none => b
  | some whole => { b with backing := setSlice b.backing 0 b.nbytes whole, whole := none }

/-- Write `h` rows of `rowBytes` bytes each, `row i` at row `y + i` and `x` pixels in. -/
def writeRows (b : RectBuffer) (x y h rowBytes : ℕ) (row : ℕ → Bytes) : RectBuffer :=
  let stride := b.width * b.bypp
  { b with backing := (List.range h).foldl (fun backing i =>
      let dst := (y + i) * stride + x * b.bypp
      setSlice backing dst (dst + rowBytes) (row i)) b.backing }

/-- `blit`: write the pixels of a part of the rectangle. -/
def blit (b : RectBuffer) (x y w h : ℤ) (pixels : Bytes) : Except PyErr RectBuffer :=
  if b.covers x y w h then
    if pixels.length ≠ b.nbytes then
      .error ⟨.decodeError, s!"blit expected {b.nbytes} bytes, got {pixels.length}"⟩
    else .ok { b with whole := some pixels, covered := true }
  else do
    b.checkBounds x y w h
    let expected := w.toNat * h.toNat * b.bypp
    if pixels.length ≠ expected then
      .error ⟨.decodeError, s!"blit expected {expected} bytes, got {pixels.length}"⟩
    else
      let b := b.materialize.clear
      let stride := b.width * b.bypp
      let rowBytes := w.toNat * b.bypp
      if x = 0 ∧ w = b.width then
        -- Contiguous rows: one slice assignment.
        let offset := y.toNat * stride
        .ok { b with backing := setSlice b.backing offset (offset + expected) pixels }
      else
        .ok (b.writeRows x.toNat y.toNat h.toNat rowBytes fun i =>
          (pixels.drop (i * rowBytes)).take rowBytes)

/-- What a fill writes over: the backing, cleared if the fill is of a part of the buffer. -/
def base (b : RectBuffer) (x y w h : ℤ) : RectBuffer :=
  if ¬b.covers x y w h then b.materialize.clear else b.materialize

/-- `color * n`. -/
def repeated (color : Bytes) (n : ℕ) : Bytes := (List.replicate n color).flatten

@[simp] theorem length_repeated (color : Bytes) (n : ℕ) :
    (repeated color n).length = n * color.length := by
  simp [repeated]

/-- `fill`: write one colour over a part of the rectangle. -/
def fill (b : RectBuffer) (x y w h : ℤ) (color : Bytes) : Except PyErr RectBuffer := do
  b.checkBounds x y w h
  if color.length ≠ b.bypp then
    .error ⟨.decodeError, s!"fill color must be {b.bypp} bytes, got {color.length}"⟩
  else
    let b := { b.base x y w h with covered := true }
    let stride := b.width * b.bypp
    let rowBytes := w.toNat * b.bypp
    let row := repeated color w.toNat
    if x = 0 ∧ w = b.width then
      let offset := y.toNat * stride
      .ok { b with
        backing := setSlice b.backing offset (offset + h.toNat * stride) (repeated row h.toNat) }
    else .ok (b.writeRows x.toNat y.toNat h.toNat rowBytes fun _ => row)

/-- `tobytes`. -/
def tobytes (b : RectBuffer) : Bytes :=
  match b.whole with
  | some whole => whole
  | none => b.backing.take b.nbytes

/-! ## Validity -/

/-- The backing has room for the rectangle, and a held blit is one of all of it. -/
structure Valid (b : RectBuffer) : Prop where
  room : b.nbytes ≤ b.backing.length
  whole : ∀ pixels, b.whole = some pixels → pixels.length = b.nbytes

/-- What a valid buffer holds is as long as its rectangle. -/
theorem length_tobytes {b : RectBuffer} (h : b.Valid) : b.tobytes.length = b.nbytes := by
  unfold tobytes
  split
  next pixels hwhole => exact h.whole pixels hwhole
  · rw [List.length_take]
    exact Nat.min_eq_left h.room

theorem valid_create {width height bypp : ℕ} {backing : Bytes} {b : RectBuffer}
    (h : create width height bypp backing = .ok b) : b.Valid := by
  unfold create at h
  dsimp only at h
  split_ifs at h with hroom
  obtain rfl := Except.ok.inj h
  exact ⟨Nat.not_lt.mp hroom, fun _ h => absurd h (by simp)⟩

/-- Other pixels in the backing, as many of them. -/
theorem Valid.of_backing {b b' : RectBuffer} (h : b.Valid) (hnbytes : b'.nbytes = b.nbytes)
    (hlength : b'.backing.length = b.backing.length) (hwhole : b'.whole = none) : b'.Valid where
  room := by
    rw [hnbytes, hlength]
    exact h.room
  whole := fun pixels hpixels => absurd (hwhole.symm.trans hpixels) (by simp)

theorem valid_materialize {b : RectBuffer} (h : b.Valid) : b.materialize.Valid := by
  unfold materialize
  split
  · exact h
  next pixels hwhole =>
    have hlength := h.whole pixels hwhole
    have hroom : 0 + pixels.length ≤ b.backing.length := by
      rw [hlength, Nat.zero_add]
      exact h.room
    refine h.of_backing rfl ?_ rfl
    have hset := length_setSlice hroom
    rw [Nat.zero_add, hlength] at hset
    exact hset

@[simp] theorem whole_materialize (b : RectBuffer) : b.materialize.whole = none := by
  unfold materialize
  split
  next hwhole => exact hwhole
  · rfl

theorem valid_clear {b : RectBuffer} (h : b.Valid) (hwhole : b.whole = none) : b.clear.Valid := by
  unfold clear
  split_ifs
  · exact h
  · have hroom : 0 + (List.replicate b.nbytes (0 : UInt8)).length ≤ b.backing.length := by
      rw [List.length_replicate, Nat.zero_add]
      exact h.room
    refine h.of_backing rfl ?_ hwhole
    have hset := length_setSlice hroom
    rw [Nat.zero_add, List.length_replicate] at hset
    exact hset

@[simp] theorem whole_clear (b : RectBuffer) : b.clear.whole = b.whole := by
  unfold clear
  split_ifs <;> rfl

/-- A rectangle inside the buffer. -/
theorem inside_of_checkBounds {b : RectBuffer} {x y w h : ℤ} (hbounds : b.checkBounds x y w h = .ok ()) :
    0 ≤ x ∧ 0 ≤ y ∧ 0 ≤ w ∧ 0 ≤ h ∧ x + w ≤ b.width ∧ y + h ≤ b.height := by
  unfold checkBounds at hbounds
  split_ifs at hbounds with hneg hpast
  omega

/-- Rows inside the buffer are written in place. -/
theorem length_backing_writeRows {b : RectBuffer} {x y h rowBytes : ℕ} {row : ℕ → Bytes}
    (hroom : b.nbytes ≤ b.backing.length) (hrow : ∀ i, i < h → (row i).length = rowBytes)
    (hx : x * b.bypp + rowBytes ≤ b.width * b.bypp) (hy : y + h ≤ b.height) :
    (b.writeRows x y h rowBytes row).backing.length = b.backing.length := by
  show List.length (List.foldl _ b.backing (List.range h)) = b.backing.length
  refine List.foldlRecOn (motive := fun backing : Bytes => backing.length = b.backing.length) (List.range h) _
    rfl ?_
  intro backing hbacking i hi
  have hlt : i < h := List.mem_range.mp hi
  -- The row ends within its line of the buffer, and the buffer has room for all its lines.
  have hline : (y + i + 1) * (b.width * b.bypp) ≤ b.nbytes := by
    have hlines : y + i + 1 ≤ b.height := by omega
    calc (y + i + 1) * (b.width * b.bypp) ≤ b.height * (b.width * b.bypp) :=
          Nat.mul_le_mul_right _ hlines
      _ = b.nbytes := by
          unfold nbytes
          ring
  have hend : (y + i) * (b.width * b.bypp) + x * b.bypp + (row i).length ≤ backing.length := by
    rw [hrow i hlt, hbacking]
    have hsucc : (y + i + 1) * (b.width * b.bypp) =
        (y + i) * (b.width * b.bypp) + b.width * b.bypp := Nat.succ_mul _ _
    omega
  have hset := length_setSlice hend
  rw [hrow i hlt] at hset
  exact hset.trans hbacking

/-- Whole lines inside the buffer are written in place. -/
theorem length_setSlice_lines {b : RectBuffer} {y h : ℕ} {new : Bytes}
    (hroom : b.nbytes ≤ b.backing.length) (hlength : new.length = h * (b.width * b.bypp))
    (hy : y + h ≤ b.height) :
    (setSlice b.backing (y * (b.width * b.bypp)) (y * (b.width * b.bypp) + new.length) new).length =
      b.backing.length := by
  refine length_setSlice (Nat.le_trans ?_ hroom)
  calc y * (b.width * b.bypp) + new.length = (y + h) * (b.width * b.bypp) := by
        rw [hlength, Nat.add_mul]
    _ ≤ b.height * (b.width * b.bypp) := Nat.mul_le_mul_right _ hy
    _ = b.nbytes := by
        unfold nbytes
        ring

@[simp] theorem width_materialize (b : RectBuffer) : b.materialize.width = b.width := by
  unfold materialize
  split <;> rfl

@[simp] theorem height_materialize (b : RectBuffer) : b.materialize.height = b.height := by
  unfold materialize
  split <;> rfl

@[simp] theorem bypp_materialize (b : RectBuffer) : b.materialize.bypp = b.bypp := by
  unfold materialize
  split <;> rfl

@[simp] theorem width_clear (b : RectBuffer) : b.clear.width = b.width := by
  unfold clear
  split_ifs <;> rfl

@[simp] theorem height_clear (b : RectBuffer) : b.clear.height = b.height := by
  unfold clear
  split_ifs <;> rfl

@[simp] theorem bypp_clear (b : RectBuffer) : b.clear.bypp = b.bypp := by
  unfold clear
  split_ifs <;> rfl

theorem valid_materialize_clear {b : RectBuffer} (h : b.Valid) : b.materialize.clear.Valid :=
  valid_clear (valid_materialize h) (whole_materialize b)

/-- The pixels of a part of the buffer, over a cleared backing. -/
theorem valid_writeRows {b : RectBuffer} {x y h rowBytes : ℕ} {row : ℕ → Bytes} (hb : b.Valid)
    (hwhole : b.whole = none) (hrow : ∀ i, i < h → (row i).length = rowBytes)
    (hx : x * b.bypp + rowBytes ≤ b.width * b.bypp) (hy : y + h ≤ b.height) :
    (b.writeRows x y h rowBytes row).Valid :=
  hb.of_backing rfl (length_backing_writeRows hb.room hrow hx hy) hwhole

/-- A row of `w` pixels from `x` on fits a line of the buffer. -/
theorem row_le_line {b : RectBuffer} {x w : ℤ} (hx : 0 ≤ x) (hw : 0 ≤ w) (hright : x + w ≤ b.width) :
    x.toNat * b.bypp + w.toNat * b.bypp ≤ b.width * b.bypp := by
  rw [← Nat.add_mul]
  exact Nat.mul_le_mul_right _ (by omega)

/-- A successful blit keeps a buffer valid. -/
theorem valid_blit {b b' : RectBuffer} {x y w h : ℤ} {pixels : Bytes} (hb : b.Valid)
    (hblit : b.blit x y w h pixels = .ok b') : b'.Valid := by
  unfold blit at hblit
  split_ifs at hblit with hcovers hlength
  · obtain rfl := Except.ok.inj hblit
    refine ⟨hb.room, ?_⟩
    rintro _ ⟨rfl⟩
    exact Decidable.not_not.mp hlength
  · cases hbounds : b.checkBounds x y w h with
    | error e =>
      rw [hbounds] at hblit
      exact absurd hblit (by simp [bind, Except.bind])
    | ok u =>
      obtain ⟨hx, hy, hw, hh, hright, hbottom⟩ := inside_of_checkBounds hbounds
      rw [hbounds] at hblit
      simp only [bind, Except.bind, width_clear, width_materialize] at hblit
      have hvalid := valid_materialize_clear hb
      have hwhole : b.materialize.clear.whole = none := by simp
      have hfits : y.toNat + h.toNat ≤ b.height := by omega
      split_ifs at hblit with hlength hlines
      · -- Whole lines.
        obtain rfl := Except.ok.inj hblit
        have hexpected : pixels.length = h.toNat * (b.width * b.bypp) := by
          have hwidth : w.toNat = b.width := by omega
          rw [Decidable.not_not.mp hlength, hwidth]
          ring
        refine hvalid.of_backing (by simp [nbytes]) ?_ hwhole
        have hset := @length_setSlice_lines b.materialize.clear y.toNat h.toNat pixels hvalid.room
          (by simpa using hexpected) (by simpa using hfits)
        rw [Decidable.not_not.mp hlength] at hset
        simpa using hset
      · obtain rfl := Except.ok.inj hblit
        refine valid_writeRows hvalid hwhole ?_ (by simpa using row_le_line hx hw hright)
          (by simpa using hfits)
        intro i hi
        rw [bypp_clear, bypp_materialize]
        have hlast : (i + 1) * (w.toNat * b.bypp) ≤ h.toNat * (w.toNat * b.bypp) :=
          Nat.mul_le_mul_right _ hi
        have htotal : pixels.length = h.toNat * (w.toNat * b.bypp) := by
          rw [Decidable.not_not.mp hlength]
          ring
        rw [List.length_take, List.length_drop, htotal]
        rw [Nat.succ_mul] at hlast
        omega

theorem valid_base {b : RectBuffer} (hb : b.Valid) (x y w h : ℤ) : (b.base x y w h).Valid := by
  unfold base
  split_ifs
  · exact valid_materialize hb
  · exact valid_materialize_clear hb

@[simp] theorem whole_base (b : RectBuffer) (x y w h : ℤ) : (b.base x y w h).whole = none := by
  unfold base
  split_ifs <;> simp

@[simp] theorem width_base (b : RectBuffer) (x y w h : ℤ) : (b.base x y w h).width = b.width := by
  unfold base
  split_ifs <;> simp

@[simp] theorem height_base (b : RectBuffer) (x y w h : ℤ) :
    (b.base x y w h).height = b.height := by
  unfold base
  split_ifs <;> simp

@[simp] theorem bypp_base (b : RectBuffer) (x y w h : ℤ) : (b.base x y w h).bypp = b.bypp := by
  unfold base
  split_ifs <;> simp

/-- A successful fill keeps a buffer valid. -/
theorem valid_fill {b b' : RectBuffer} {x y w h : ℤ} {color : Bytes} (hb : b.Valid)
    (hfill : b.fill x y w h color = .ok b') : b'.Valid := by
  unfold fill at hfill
  cases hbounds : b.checkBounds x y w h with
  | error e =>
    rw [hbounds] at hfill
    exact absurd hfill (by simp [bind, Except.bind])
  | ok u =>
    obtain ⟨hx, hy, hw, hh, hright, hbottom⟩ := inside_of_checkBounds hbounds
    rw [hbounds] at hfill
    simp only [bind, Except.bind] at hfill
    have hfits : y.toNat + h.toNat ≤ b.height := by omega
    have hvalid : ({ b.base x y w h with covered := true } : RectBuffer).Valid :=
      ⟨(valid_base hb x y w h).room, (valid_base hb x y w h).whole⟩
    have hwhole : ({ b.base x y w h with covered := true } : RectBuffer).whole = none :=
      whole_base b x y w h
    split_ifs at hfill with hcolor hlines
    all_goals
      obtain rfl := Except.ok.inj hfill
      have hrow : (repeated color w.toNat).length = w.toNat * b.bypp := by
        rw [length_repeated, Decidable.not_not.mp hcolor]
    · -- Whole lines.
      have hlength : (repeated (repeated color w.toNat) h.toNat).length =
          h.toNat * (b.width * b.bypp) := by
        have hwidth : w.toNat = b.width := by
          have := hlines.2
          rw [width_base] at this
          omega
        rw [length_repeated, hrow, hwidth]
      refine hvalid.of_backing rfl ?_ hwhole
      have hset := @length_setSlice_lines { b.base x y w h with covered := true } y.toNat h.toNat
        (repeated (repeated color w.toNat) h.toNat) hvalid.room (by simpa using hlength)
        (by simpa using hfits)
      rw [hlength] at hset
      simpa using hset
    · exact valid_writeRows hvalid hwhole (fun _ _ => by simpa using hrow)
        (by simpa using row_le_line hx hw hright) (by simpa using hfits)

end RectBuffer

end VncDoTool
