import VncDoTool.Decoders.ZRLE
import VncDoTool.PixelValues
import VncDoTool.Lib.Raster

/-!
# Compressed pixels

ZRLE leaves out a byte of each pixel of four bytes where no channel lies in it, and the decoder puts
it back.

* `cells`: bytes in groups of one size; `everyNth_eq`, `setEveryNth_cells`: the strided slices of
  such.
* `Decoders.widened`: a compressed pixel between the bytes that were left out;
  `Decoders.expandCpixels_eq`: the decoder widens each of them.
* `Decoders.cpixels_lose_nothing`: a pixel is found again in its compressed one.
-/

namespace VncDoTool

/-! ## Strided slices -/

/-- Bytes in `count` groups of `step`. -/
def cells (count step : ℕ) (f : ℕ → ℕ → UInt8) : Bytes :=
  (List.range count).flatMap fun j => (List.range step).map (f j)

variable {count step start : ℕ} {f g : ℕ → ℕ → UInt8}

@[simp] theorem length_cells (count step : ℕ) (f : ℕ → ℕ → UInt8) :
    (cells count step f).length = count * step :=
  Raster.length_flatMap_range fun j _ => by rw [List.length_map, List.length_range]

theorem getElem?_cells {j k : ℕ} (hj : j < count) (hk : k < step) :
    (cells count step f)[j * step + k]? = some (f j k) := by
  unfold cells
  rw [Raster.getElem?_flatMap_range (fun i _ => by rw [List.length_map, List.length_range]) hj hk,
    List.getElem?_map, List.getElem?_range hk]
  rfl

/-- Bytes by their groups. -/
theorem eq_cells {bytes : Bytes} (hlength : bytes.length = count * step)
    (hbytes : ∀ j k, j < count → k < step → bytes[j * step + k]? = some (f j k)) :
    bytes = cells count step f := by
  apply List.ext_getElem?
  intro i
  by_cases hi : i < count * step
  · have hstep : 0 < step := Nat.pos_of_ne_zero fun hzero => by simp [hzero] at hi
    have hsplit : i = i / step * step + i % step := by rw [Nat.mul_comm, Nat.div_add_mod]
    have hj : i / step < count := (Nat.div_lt_iff_lt_mul hstep).mpr hi
    have hk : i % step < step := Nat.mod_lt i hstep
    rw [hsplit, hbytes _ _ hj hk, getElem?_cells hj hk]
  · rw [List.getElem?_eq_none (by omega), List.getElem?_eq_none (by rw [length_cells]; omega)]

theorem cells_congr (hsame : ∀ j k, j < count → k < step → f j k = g j k) :
    cells count step f = cells count step g :=
  eq_cells (length_cells count step f) fun j k hj hk => by rw [getElem?_cells hj hk, hsame j k hj hk]

/-- A slice has a place in each group. -/
theorem strideCount_eq (h : start < step) : strideCount (count * step) start step = count := by
  unfold strideCount
  cases count with
  | zero =>
    rw [Nat.zero_mul, Nat.zero_sub, Nat.zero_add]
    exact Nat.div_eq_of_lt (by omega)
  | succ count =>
    have hsum : (count + 1) * step - start + step - 1 = (count + 1) * step + (step - 1 - start) := by
      have hle : step ≤ (count + 1) * step := Nat.le_mul_of_pos_left step (Nat.succ_pos count)
      omega
    have hpos : 0 < step := by omega
    rw [hsum, Nat.add_comm, Nat.add_mul_div_right _ _ hpos, Nat.div_eq_of_lt (by omega), Nat.zero_add]

/-- `xs[start::step]`. -/
theorem everyNth_eq {xs : Bytes} (hlength : xs.length = count * step) (h : start < step) :
    everyNth xs start step = (List.range count).map fun j => xs.getD (start + j * step) 0 := by
  unfold everyNth
  rw [hlength, strideCount_eq h]

/-- `buf[start::step] = values`, for as many values as there are groups. -/
theorem setEveryNth_cells {values : Bytes} (hvalues : values.length = count) (h : start < step) :
    setEveryNth (cells count step f) start step values =
      .ok (cells count step fun j k => if k = start then values.getD j 0 else f j k) := by
  unfold setEveryNth
  rw [length_cells, strideCount_eq h, if_neg (not_not_intro hvalues)]
  refine congrArg Except.ok (eq_cells ?_ fun j k hj hk => ?_)
  · rw [List.length_mapIdx, length_cells]
  · rw [List.getElem?_mapIdx, getElem?_cells hj hk, Option.map_some]
    refine congrArg some ?_
    by_cases hplace : k = start
    · subst hplace
      have hindex : j * step + k - k = j * step := Nat.add_sub_cancel _ _
      rw [if_pos rfl, hindex, if_pos ⟨Nat.le_add_left _ _, Nat.mul_mod_left _ _⟩,
        Nat.mul_div_cancel _ (by omega)]
    · rw [if_neg hplace, if_neg]
      rintro ⟨hle, hmod⟩
      -- a place of the slice lies a whole number of groups behind its start
      obtain ⟨q, hq⟩ := Nat.dvd_of_mod_eq_zero hmod
      have hsum : j * step + k = q * step + start := by rw [Nat.mul_comm q]; omega
      have hsame := congrArg (· % step) hsum
      simp only [Nat.mul_add_mod_self_right] at hsame
      rw [Nat.mod_eq_of_lt hk, Nat.mod_eq_of_lt h] at hsame
      exact hplace hsame

namespace Decoders

/-! ## Widening -/

/-- A compressed pixel, with zeros for the bytes that were left out. -/
def widened (coffset bypp : ℕ) (cpixel : Bytes) : Bytes :=
  List.replicate coffset 0 ++ cpixel ++ List.replicate (bypp - coffset - cpixel.length) 0

/-- The compressed pixel `j`. -/
def cpixelAt (cbytes : ℕ) (raw : Bytes) (j : ℕ) : Bytes := (raw.drop (j * cbytes)).take cbytes

theorem length_cpixelAt {cbytes count j : ℕ} {raw : Bytes} (hraw : raw.length = count * cbytes)
    (hj : j < count) : (cpixelAt cbytes raw j).length = cbytes := by
  have hnext : (j + 1) * cbytes ≤ count * cbytes := Nat.mul_le_mul_right cbytes hj
  rw [Nat.succ_mul] at hnext
  rw [cpixelAt, List.length_take, List.length_drop, hraw]
  omega

theorem length_widened {coffset bypp : ℕ} {cpixel : Bytes} (h : coffset + cpixel.length ≤ bypp) :
    (widened coffset bypp cpixel).length = bypp := by
  rw [widened, List.length_append, List.length_append, List.length_replicate, List.length_replicate]
  omega

/-- The bytes of a widened pixel. -/
theorem getElem?_widened {coffset bypp k : ℕ} {cpixel : Bytes} (h : coffset + cpixel.length ≤ bypp)
    (hk : k < bypp) :
    (widened coffset bypp cpixel)[k]? =
      some (if coffset ≤ k ∧ k < coffset + cpixel.length then cpixel.getD (k - coffset) 0 else 0) := by
  unfold widened
  by_cases hbefore : k < coffset
  · rw [if_neg (by omega), List.append_assoc,
      List.getElem?_append_left (by rwa [List.length_replicate]), List.getElem?_replicate_of_lt hbefore]
  by_cases hbehind : k < coffset + cpixel.length
  · rw [if_pos ⟨by omega, hbehind⟩, List.append_assoc,
      List.getElem?_append_right (by rw [List.length_replicate]; omega), List.length_replicate,
      List.getElem?_append_left (by omega), List.getD_eq_getElem _ _ (by omega),
      List.getElem?_eq_getElem]
  · rw [if_neg (by omega), List.getElem?_append_right (by
      rw [List.length_append, List.length_replicate]; omega), List.getElem?_replicate_of_lt (by
      rw [List.length_append, List.length_replicate]; omega)]

/-- The bytes that are in place after some bytes of each compressed pixel. -/
theorem widen_bytes {cbytes coffset bypp count n : ℕ} {raw : Bytes}
    (hraw : raw.length = count * cbytes) (hfits : coffset + cbytes ≤ bypp) (hn : n ≤ cbytes) :
    (List.range n).foldlM (m := Except PyErr) (fun out i =>
        setEveryNth out (coffset + i) bypp (everyNth raw i cbytes)) (List.replicate (count * bypp) 0) =
      .ok (cells count bypp fun j k =>
        if coffset ≤ k ∧ k < coffset + n then raw.getD (k - coffset + j * cbytes) 0 else 0) := by
  induction n with
  | zero =>
    refine congrArg Except.ok (eq_cells List.length_replicate fun j k hj hk => ?_)
    rw [if_neg (by omega), List.getElem?_replicate_of_lt]
    exact lt_of_lt_of_le ((Raster.index_lt_iff hk).mpr hj) (Nat.le_refl _)
  | succ n ih =>
    rw [List.range_succ, List.foldlM_append]
    refine Fallible.bind_eq_ok.mpr ⟨_, ih (by omega), ?_⟩
    rw [List.foldlM_cons, everyNth_eq hraw (by omega)]
    refine Fallible.bind_eq_ok.mpr ⟨_, setEveryNth_cells (by simp) (by omega), ?_⟩
    refine congrArg Except.ok (cells_congr fun j k hj hk => ?_)
    by_cases hplace : k = coffset + n
    · -- the byte that this slice sets
      subst hplace
      have hvalue : (coffset + n - coffset) = n := Nat.add_sub_cancel_left _ _
      rw [if_pos rfl, if_pos ⟨by omega, by omega⟩, hvalue, List.getD_eq_getElem _ _ (by simpa),
        List.getElem_map, List.getElem_range]
    · rw [if_neg hplace]
      exact if_congr (by omega) rfl rfl

/-- The decoder widens each compressed pixel. -/
theorem expandCpixels_eq {cbytes coffset bypp count : ℕ} {raw : Bytes}
    (hraw : raw.length = count * cbytes) (hfits : coffset + cbytes ≤ bypp) :
    expandCpixels raw count cbytes bypp coffset =
      .ok ((List.range count).flatMap fun j => widened coffset bypp (cpixelAt cbytes raw j)) := by
  have hsize : ∀ j, j < count → coffset + (cpixelAt cbytes raw j).length ≤ bypp := by
    intro j hj
    rwa [length_cpixelAt hraw hj]
  have hlength : ((List.range count).flatMap fun j =>
      widened coffset bypp (cpixelAt cbytes raw j)).length = count * bypp :=
    Raster.length_flatMap_range fun j hj => length_widened (hsize j hj)
  unfold expandCpixels
  split_ifs with hwhole
  · -- nothing was left out
    subst hwhole
    obtain rfl : coffset = 0 := by omega
    refine congrArg Except.ok ?_
    have hpieces : (List.range count).flatMap (fun j => widened 0 cbytes (cpixelAt cbytes raw j)) =
        (List.range count).flatMap fun j => cpixelAt cbytes raw j := by
      refine List.flatMap_congr fun j hj => ?_
      rw [widened, length_cpixelAt hraw (List.mem_range.mp hj)]
      simp
    rw [hpieces]
    have hrender := Raster.render_ofRaster (n := cbytes) (w := count) (h := 1) (by rw [hraw]; ring)
    simp only [Raster.render, Raster.ofRaster, List.range_one, List.flatMap_singleton, Nat.zero_mul,
      Nat.zero_add] at hrender
    exact hrender.symm
  · rw [widen_bytes hraw hfits (Nat.le_refl cbytes)]
    refine congrArg Except.ok (eq_cells hlength fun j k hj hk => ?_).symm
    have hcpixel := length_cpixelAt hraw hj
    rw [Raster.getElem?_flatMap_range (fun i hi => length_widened (hsize i hi)) hj hk,
      getElem?_widened (hsize j hj) hk, hcpixel]
    refine congrArg some ?_
    by_cases hplace : coffset ≤ k ∧ k < coffset + cbytes
    · rw [if_pos hplace, if_pos hplace, cpixelAt, List.getD_eq_getElem?_getD,
        List.getElem?_take_of_lt (by omega), List.getElem?_drop, Nat.add_comm,
        List.getD_eq_getElem?_getD]
    · rw [if_neg hplace, if_neg hplace]

/-! ## Narrowing -/

/-- The bytes of a pixel that are sent. -/
def narrowed (cbytes coffset : ℕ) (pixel : Bytes) : Bytes := (pixel.drop coffset).take cbytes

/-- A pixel whose other bytes are zero. -/
def Representable (cbytes coffset bypp : ℕ) (pixel : Bytes) : Prop :=
  pixel.length = bypp ∧
    ∀ k, k < bypp → ¬(coffset ≤ k ∧ k < coffset + cbytes) → byteAt pixel k = 0

variable {cbytes coffset bypp : ℕ}

theorem length_narrowed {pixel : Bytes} (h : Representable cbytes coffset bypp pixel)
    (hfits : coffset + cbytes ≤ bypp) : (narrowed cbytes coffset pixel).length = cbytes := by
  rw [narrowed, List.length_take, List.length_drop, h.1]
  omega

/-- Such a pixel is found again. -/
theorem widened_narrowed {pixel : Bytes} (h : Representable cbytes coffset bypp pixel)
    (hfits : coffset + cbytes ≤ bypp) :
    widened coffset bypp (narrowed cbytes coffset pixel) = pixel := by
  have hlength := length_narrowed h hfits
  apply List.ext_getElem?
  intro k
  by_cases hk : k < bypp
  · have hpixel : k < pixel.length := by rwa [h.1]
    rw [getElem?_widened (by omega) hk, hlength, List.getElem?_eq_getElem hpixel]
    refine congrArg some ?_
    by_cases hplace : coffset ≤ k ∧ k < coffset + cbytes
    · have hindex : coffset + (k - coffset) = k := by omega
      rw [if_pos hplace, narrowed, List.getD_eq_getElem?_getD, List.getElem?_take_of_lt (by omega),
        List.getElem?_drop, hindex, List.getElem?_eq_getElem hpixel, Option.getD_some]
    · have hzero := h.2 k hk hplace
      unfold byteAt at hzero
      rw [List.getD_eq_getElem _ _ hpixel] at hzero
      rw [if_neg hplace]
      exact (UInt8.toNat_inj.mp hzero).symm
  · rw [List.getElem?_eq_none (by rw [length_widened (by omega)]; omega),
      List.getElem?_eq_none (by rw [h.1]; omega)]

/-- A run of such pixels is found again. -/
theorem expandCpixels_narrowed {pixels : List Bytes} (hfits : coffset + cbytes ≤ bypp)
    (h : ∀ pixel ∈ pixels, Representable cbytes coffset bypp pixel) :
    expandCpixels (pixels.flatMap (narrowed cbytes coffset)) pixels.length cbytes bypp coffset =
      .ok pixels.flatten := by
  have hlength : ∀ pixel ∈ pixels, (narrowed cbytes coffset pixel).length = cbytes :=
    fun pixel hpixel => length_narrowed (h pixel hpixel) hfits
  have hpieces : (List.range pixels.length).map
      (cpixelAt cbytes (pixels.flatMap (narrowed cbytes coffset))) =
        pixels.map (narrowed cbytes coffset) := Raster.pieces_flatMap hlength
  rw [expandCpixels_eq (Raster.length_flatMap hlength) hfits, ← List.flatMap_map, hpieces,
    List.flatMap_map, ← List.flatMap_id]
  refine congrArg Except.ok (List.flatMap_congr fun pixel hpixel => ?_)
  exact widened_narrowed (h pixel hpixel) hfits

/-! ## What a format leaves out -/

open PixelFormat

variable {pf : PixelFormat} {colour : Intensities}

/-- The bytes from an offset on hold every colour of the format: the other bytes of a pixel are
zero. -/
def HoldsColours (pf : PixelFormat) (coffset : ℕ) : Prop :=
  ∀ colour, pf.Allows colour → Representable 3 coffset pf.bypp (pf.pack colour)

/-- A byte that is zero, counted from the other end in a big-endian pixel. -/
theorem representable_pack {k : ℕ} (hbypp : pf.bypp = 4) (hk : k < 4)
    (hzero : (pf.value colour >>> (8 * k)) % 256 = 0)
    (hplace : ∀ i, i < 4 → ¬(coffset ≤ i ∧ i < coffset + 3) →
      i = if pf.bigendian then 3 - k else k) :
    Representable 3 coffset pf.bypp (pf.pack colour) := by
  refine ⟨length_pack pf colour, fun i hi hout => ?_⟩
  rw [hbypp] at hi
  have hplaced := hplace i hi hout
  unfold pack
  dsimp only
  split_ifs at hplaced ⊢
  · have hsame : 4 - 1 - i = k := by omega
    rw [byteAt_reverse (by rw [length_lowBytes, hbypp]; omega), length_lowBytes, hbypp, hsame,
      byteAt_lowBytes hk, hzero]
  · rw [hplaced, hbypp, byteAt_lowBytes hk, hzero]

/-- The three bytes of a CPIXEL hold every colour. -/
theorem holdsColours_of_cpixelBytes (hbpp : pf.bpp = 32) (h : pf.cpixelBytes = 3) :
    pf.cpixelOffset ≤ 1 ∧ HoldsColours pf pf.cpixelOffset := by
  have hbypp : pf.bypp = 4 := bypp_of_bpp hbpp
  have hplacement : pf.cpixelPlacement ≠ none := by
    intro hnone
    rw [cpixelBytes, if_neg (fun hall => hall.2.2 hnone), hbypp] at h
    exact absurd h (by decide)
  unfold cpixelPlacement at hplacement
  dsimp only [channelWidths] at hplacement
  split_ifs at hplacement with hlow hhigh
  · -- the highest byte of the value is left out
    have hplaced : pf.cpixelPlacement = some .low := if_pos hlow
    have hoffset : pf.cpixelOffset = if pf.bigendian then 1 else 0 := by
      rw [cpixelOffset, if_neg (not_not_intro h), hplaced, hbypp]
      cases pf.bigendian <;> rfl
    rw [hoffset]
    refine ⟨by split_ifs <;> decide, fun colour hcolour => ?_⟩
    refine representable_pack hbypp (k := 3) (by decide) ?_ fun i hi hout => ?_
    · have hlt := value_lt_two_pow hlow.1 hlow.2.1 hlow.2.2 hcolour
      rw [Nat.shiftRight_eq_div_pow, Nat.div_eq_of_lt hlt]
    · split_ifs at hout ⊢ <;> omega
  · -- the lowest byte is
    have hplaced : pf.cpixelPlacement = some .high := (if_neg hlow).trans (if_pos hhigh)
    have hoffset : pf.cpixelOffset = if pf.bigendian then 0 else 1 := by
      rw [cpixelOffset, if_neg (not_not_intro h), hplaced, hbypp]
      cases pf.bigendian <;> rfl
    rw [hoffset]
    refine ⟨by split_ifs <;> decide, fun colour hcolour => ?_⟩
    refine representable_pack hbypp (k := 0) (by decide) ?_ fun i hi hout => ?_
    · exact value_mod_two_pow hhigh.1 hhigh.2.1 hhigh.2.2
    · split_ifs at hout ⊢ <;> omega
  · exact absurd rfl hplacement

/-- Pixels are found again in their CPIXELs, where these have three bytes; and where no three bytes hold
every colour, they have four. -/
theorem cpixels_lose_nothing {pf : PixelFormat} (hbpp : pf.bpp = 32) :
    (pf.cpixelBytes = 3 → ∀ colours : List Intensities, (∀ colour ∈ colours, pf.Allows colour) →
      expandCpixels (colours.flatMap fun colour =>
          ((pf.pack colour).drop pf.cpixelOffset).take 3) colours.length pf.cpixelBytes pf.bypp
        pf.cpixelOffset = .ok (colours.flatMap pf.pack)) ∧
    ((¬∃ coffset, coffset ≤ 1 ∧ HoldsColours pf coffset) → pf.cpixelBytes = 4) := by
  have hbypp : pf.bypp = 4 := bypp_of_bpp hbpp
  constructor
  · intro h colours hcolours
    obtain ⟨hoffset, hholds⟩ := holdsColours_of_cpixelBytes hbpp h
    have hpixels : ∀ pixel ∈ colours.map pf.pack,
        Representable 3 pf.cpixelOffset pf.bypp pixel := by
      intro pixel hpixel
      obtain ⟨colour, hmem, rfl⟩ := List.mem_map.mp hpixel
      exact hholds colour (hcolours colour hmem)
    have hfound := expandCpixels_narrowed (by omega) hpixels
    rw [List.flatMap_map, List.length_map, ← List.flatMap_def] at hfound
    rw [h]
    exact hfound
  · intro hnone
    by_contra hfour
    have hthree : pf.cpixelBytes = 3 := by
      unfold cpixelBytes at hfour ⊢
      split_ifs at hfour ⊢
      · rfl
      · exact absurd hbypp hfour
    exact hnone ⟨_, holdsColours_of_cpixelBytes hbpp hthree⟩

/-- Two pixels of three bytes, widened at the end of each. -/
theorem cpixels_lose_nothing_big_endian :
    expandCpixels [1, 2, 3, 4, 5, 6] 2 3 4 0 = .ok [1, 2, 3, 0, 4, 5, 6, 0] := by
  have hfound := (@cpixels_lose_nothing
      { bigendian := true, redshift := 24, greenshift := 16, blueshift := 8 } rfl).1
    (by decide) [(1, 2, 3), (4, 5, 6)] (by unfold Allows; decide)
  exact hfound

end Decoders

end VncDoTool
