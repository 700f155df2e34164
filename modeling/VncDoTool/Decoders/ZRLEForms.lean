import VncDoTool.Decoders.TightImages
import VncDoTool.Decoders.ZRLEBounds

/-!
# The forms of a ZRLE tile

What a sender may make of a tile, RFC 6143 §7.7.6, and how the decoder takes the parts of it.

* `ZRLEForm`: the pixels, one colour, indices into a palette, or runs of either.
* `ZRLEForm.serialise`: its bytes; `ZRLEForm.Encodes`: it is a form of an image.
* `Decoders.packIndices_spec`: indices are found in the byte that packs them.
* `Decoders.zrleRuns_eq`: runs are found in their bytes.
-/

namespace VncDoTool

open Raster Decoders

/-! ## Bytes of a form -/

/-- Indices of `bits` bits in a byte, the first in the highest place. -/
def packIndices (bits : ℕ) (index : ℕ → ℕ) : ℕ :=
  ((List.range (8 / bits)).map fun slot => index slot * 2 ^ (8 - bits - slot * bits)).sum

/-- A row of indices; those behind its end pad the last byte. -/
def packRow (bits width : ℕ) (index : ℕ → ℕ) : Bytes :=
  let perByte := 8 / bits
  (List.range ((width + perByte - 1) / perByte)).map fun k =>
    UInt8.ofNat (packIndices bits fun slot => index (k * perByte + slot))

/-- The length of a run, less one: bytes of 255 and a last one. -/
def runBytes (length : ℕ) : Bytes :=
  List.replicate ((length - 1) / 255) 255 ++ [UInt8.ofNat ((length - 1) % 255)]

/-- A run of a colour of the palette. One of a single pixel may do without its length. -/
structure PaletteRun : Type where
  index : ℕ
  length : ℕ
  /-- The length is sent. -/
  explicit : Bool

/-- What a sender may make of a tile. -/
inductive ZRLEForm : Type
  | raw
  | solid (colour : Bytes)
  /-- Indices of a few bits. Those behind the end of a row are its padding. -/
  | packed (palette : List Bytes) (index : ℕ → ℕ → ℕ)
  | plainRuns (runs : List (Bytes × ℕ))
  | paletteRuns (palette : List Bytes) (runs : List PaletteRun)

/-- The pixels of a tile, row by row. -/
def tilePixels (image : Picture UInt8) (tile : Rect) : List Bytes :=
  (List.range tile.height).flatMap fun y => (List.range tile.width).map fun x =>
    image (tile.x + x) (tile.y + y)

namespace ZRLEForm

/-- The bytes of a run of a pixel. -/
def plainRun (widths : ZRLEWidths) (run : Bytes × ℕ) : Bytes :=
  narrowed widths.cbytes widths.coffset run.1 ++ runBytes run.2

/-- The bytes of a run of a colour of the palette. -/
def paletteRun (run : PaletteRun) : Bytes :=
  if run.explicit then UInt8.ofNat (128 + run.index) :: runBytes run.length
  else [UInt8.ofNat run.index]

/-- The bytes of a form. -/
def serialise (widths : ZRLEWidths) (image : Picture UInt8) (tile : Rect) : ZRLEForm → Bytes
  | raw => 0 :: (tilePixels image tile).flatMap (narrowed widths.cbytes widths.coffset)
  | solid colour => 1 :: narrowed widths.cbytes widths.coffset colour
  | packed palette index =>
    UInt8.ofNat palette.length :: (palette.flatMap (narrowed widths.cbytes widths.coffset) ++
      (List.range tile.height).flatMap fun y =>
        packRow (indexBits palette.length) tile.width fun x => index x y)
  | plainRuns runs => 128 :: runs.flatMap (plainRun widths)
  | paletteRuns palette runs =>
    UInt8.ofNat (128 + palette.length) ::
      (palette.flatMap (narrowed widths.cbytes widths.coffset) ++ runs.flatMap paletteRun)

/-- A palette of `size` or fewer colours, and more than one. -/
structure Palette (widths : ZRLEWidths) (size : ℕ) (palette : List Bytes) : Prop where
  several : 2 ≤ palette.length
  few : palette.length ≤ size
  colours : ∀ colour ∈ palette,
    Representable widths.cbytes widths.coffset widths.bypp colour

/-- The form is one of the tile's part of an image. -/
def Encodes (widths : ZRLEWidths) (image : Picture UInt8) (tile : Rect) : ZRLEForm → Prop
  | raw => True
  | solid colour => ∀ pixel ∈ tilePixels image tile, pixel = colour
  | packed palette index =>
    Palette widths 16 palette ∧ (∀ x y, index x y < 2 ^ indexBits palette.length) ∧
      ∀ x, x < tile.width → ∀ y, y < tile.height →
        palette[index x y]? = some (image (tile.x + x) (tile.y + y))
  | plainRuns runs =>
    (∀ run ∈ runs, 1 ≤ run.2) ∧
      runs.flatMap (fun run => List.replicate run.2 run.1) = tilePixels image tile
  | paletteRuns palette runs =>
    Palette widths 127 palette ∧
      (∀ run ∈ runs, 1 ≤ run.length ∧ run.index < palette.length ∧
        (run.explicit = false → run.length = 1)) ∧
      runs.flatMap (fun run => List.replicate run.length (palette.getD run.index [])) =
        tilePixels image tile

end ZRLEForm

namespace Decoders

variable {widths : ZRLEWidths} {tile : Rect} {rest : Bytes}

/-! ## Numbers -/

/-- A slot of a byte. -/
theorem slot_eq (bits byte shift : ℕ) :
    (byte >>> shift) &&& ((1 <<< bits) - 1) = byte / 2 ^ shift % 2 ^ bits := by
  rw [Nat.one_shiftLeft, Nat.and_two_pow_sub_one_eq_mod, Nat.shiftRight_eq_div_pow]

/-- Indices are found in the byte that packs them. -/
theorem packIndices_spec {bits : ℕ} (hbits : bits = 1 ∨ bits = 2 ∨ bits = 4) {index : ℕ → ℕ}
    (hindex : ∀ slot, index slot < 2 ^ bits) :
    packIndices bits index < 256 ∧
      packedIndices bits (packIndices bits index) = (List.range (8 / bits)).map index := by
  have h₀ := hindex 0
  have h₁ := hindex 1
  have h₂ := hindex 2
  have h₃ := hindex 3
  have h₄ := hindex 4
  have h₅ := hindex 5
  have h₆ := hindex 6
  have h₇ := hindex 7
  unfold packedIndices
  simp only [slot_eq]
  -- One, two or four bits an index: eight, four or two to a byte.
  rcases hbits with rfl | rfl | rfl
  · have hsum : packIndices 1 index = index 0 * 128 + index 1 * 64 + index 2 * 32 + index 3 * 16 +
        index 4 * 8 + index 5 * 4 + index 6 * 2 + index 7 := by
      simp [packIndices, List.range_succ]
      omega
    rw [hsum]
    refine ⟨by omega, List.map_congr_left fun slot hslot => ?_⟩
    have hlt : slot < 8 := List.mem_range.mp hslot
    interval_cases slot <;> norm_num <;> omega
  · have hsum : packIndices 2 index = index 0 * 64 + index 1 * 16 + index 2 * 4 + index 3 := by
      simp [packIndices, List.range_succ]
      omega
    rw [hsum]
    refine ⟨by omega, List.map_congr_left fun slot hslot => ?_⟩
    have hlt : slot < 4 := List.mem_range.mp hslot
    interval_cases slot <;> norm_num <;> omega
  · have hsum : packIndices 4 index = index 0 * 16 + index 1 := by
      simp [packIndices, List.range_succ]
    rw [hsum]
    refine ⟨by omega, List.map_congr_left fun slot hslot => ?_⟩
    have hlt : slot < 2 := List.mem_range.mp hslot
    interval_cases slot <;> norm_num <;> omega

/-- The bytes of a length that goes on. -/
theorem runMinusOne_full {n last : ℕ} (hlast : last < 255) :
    runMinusOne tile (List.replicate n 255 ++ UInt8.ofNat last :: rest) =
      .ok (255 * n + last, rest) := by
  induction n with
  | zero =>
    have hbyte : (UInt8.ofNat last).toNat = last := by
      rw [UInt8.toNat_ofNat', Nat.mod_eq_of_lt (by omega)]
    have hsmall : ¬UInt8.ofNat last = 255 := by
      intro hfull
      rw [hfull] at hbyte
      exact absurd hbyte.symm (Nat.ne_of_lt hlast)
    rw [List.replicate_zero, List.nil_append, runMinusOne, if_neg hsmall, hbyte, Nat.mul_zero,
      Nat.zero_add]
  | succ n ih =>
    rw [List.replicate_succ, List.cons_append, runMinusOne, if_pos rfl, ih, Nat.mul_succ,
      Nat.add_comm (255 * n) 255, Nat.add_assoc]
    rfl

/-- The length of a run is found in its bytes. -/
theorem runMinusOne_runBytes (length : ℕ) :
    runMinusOne tile (runBytes length ++ rest) = .ok (length - 1, rest) := by
  unfold runBytes
  rw [List.append_assoc, List.singleton_append, runMinusOne_full (Nat.mod_lt _ (by decide)),
    Nat.div_add_mod]

/-! ## Pixels -/

/-- As many bytes as are asked for. -/
theorem takeData_append {need : ℕ} {block : Bytes} (h : block.length = need) :
    takeData tile need (block ++ rest) = .ok (block, rest) := by
  subst h
  unfold takeData
  rw [if_neg (by rw [List.length_append]; omega), List.take_left, List.drop_left]

/-- CPIXELs at the front of the data. -/
theorem length_flatMap_narrowed {pixels : List Bytes} (hwidths : Fitting widths)
    (h : ∀ pixel ∈ pixels, Representable widths.cbytes widths.coffset widths.bypp pixel) :
    (pixels.flatMap (narrowed widths.cbytes widths.coffset)).length =
      pixels.length * widths.cbytes :=
  Raster.length_flatMap fun pixel hpixel => length_narrowed (h pixel hpixel) hwidths

/-- A palette is found in its bytes. -/
theorem zrlePalette_eq {palette : List Bytes} (hwidths : Fitting widths)
    (h : ∀ colour ∈ palette, Representable widths.cbytes widths.coffset widths.bypp colour) :
    zrlePalette widths tile palette.length
        (palette.flatMap (narrowed widths.cbytes widths.coffset) ++ rest) =
      .ok (palette, rest) := by
  unfold zrlePalette
  refine Fallible.bind_eq_ok.mpr
    ⟨_, takeData_append (length_flatMap_narrowed hwidths h), ?_⟩
  refine Fallible.bind_eq_ok.mpr ⟨_, expandCpixels_narrowed hwidths h, ?_⟩
  have hpieces := Raster.pieces_flatMap (f := fun colour : Bytes => colour)
    (fun colour hcolour => (h colour hcolour).1)
  rw [List.flatMap_id', List.map_id'] at hpieces
  rw [hpieces]

/-! ## Packed palettes -/

theorem indexBits_cases {size : ℕ} : indexBits size = 1 ∨ indexBits size = 2 ∨ indexBits size = 4 := by
  unfold indexBits
  split_ifs
  · exact .inl rfl
  · exact .inr (.inl rfl)
  · exact .inr (.inr rfl)

/-- What the bytes of a row pack, index by index. -/
theorem flatMap_packRow {α : Type} {bits width : ℕ} (hbits : bits = 1 ∨ bits = 2 ∨ bits = 4)
    {index : ℕ → ℕ} (hindex : ∀ x, index x < 2 ^ bits) (f : ℕ → List α) :
    ((packRow bits width index).flatMap fun b => (packedIndices bits b.toNat).flatMap f) =
      (List.range ((width + 8 / bits - 1) / (8 / bits) * (8 / bits))).flatMap fun x =>
        f (index x) := by
  unfold packRow
  rw [List.flatMap_map, Raster.flatMap_range_mul]
  refine List.flatMap_congr fun k _ => ?_
  obtain ⟨hlt, hslots⟩ := packIndices_spec hbits fun slot => hindex (k * (8 / bits) + slot)
  rw [UInt8.toNat_ofNat', Nat.mod_eq_of_lt hlt, hslots, List.flatMap_map]

/-- A row of a packed-palette tile. -/
theorem packedRow_packRow {palette : List Bytes} {width bypp : ℕ} {index : ℕ → ℕ}
    {pixel : ℕ → Bytes} (hsome : palette ≠ []) (hpalette : ∀ colour ∈ palette, colour.length = bypp)
    (hindex : ∀ x, index x < 2 ^ indexBits palette.length)
    (hpixel : ∀ x, x < width → palette[index x]? = some (pixel x)) :
    packedRow palette width bypp (packRow (indexBits palette.length) width index) =
      .ok ((List.range width).flatMap pixel) := by
  have hbits := @indexBits_cases palette.length
  generalize hb : indexBits palette.length = bits at hbits hindex
  have hper : 0 < 8 / bits := by rcases hbits with rfl | rfl | rfl <;> decide
  have hroom : width ≤ (width + 8 / bits - 1) / (8 / bits) * (8 / bits) := by
    have hceil := Nat.lt_div_mul_add (a := width + 8 / bits - 1) hper
    omega
  -- the flags and the pixels of the row, with those of its padding behind
  have hflags : ((packRow bits width index).flatMap fun b =>
      undefinedByte palette bits b.toNat).take width =
        (List.range width).map fun x => decide (index x ≥ palette.length) := by
    have hall : ((packRow bits width index).flatMap fun b => undefinedByte palette bits b.toNat) =
        (List.range ((width + 8 / bits - 1) / (8 / bits) * (8 / bits))).flatMap fun x =>
          [decide (index x ≥ palette.length)] := by
      rw [← flatMap_packRow hbits hindex fun i => [decide (i ≥ palette.length)]]
      refine List.flatMap_congr fun b _ => ?_
      rw [undefinedByte, List.map_eq_flatMap]
    have htake := Raster.take_flatMap_range (n := 1)
      (f := fun x => [decide (index x ≥ palette.length)]) (fun _ _ => rfl) hroom
    rw [Nat.mul_one] at htake
    rw [hall, htake, List.map_eq_flatMap]
  have hpixels : ((packRow bits width index).flatMap fun b =>
      expandedByte palette bits b.toNat).take (width * bypp) = (List.range width).flatMap pixel := by
    have hblank : (palette.headD []).length = bypp := by
      cases palette with
      | nil => exact absurd rfl hsome
      | cons colour more => exact hpalette colour List.mem_cons_self
    have hentry : ∀ i, (palette.getD i (List.replicate (palette.headD []).length 0)).length = bypp := by
      intro i
      cases hi : palette[i]? with
      | none => rw [List.getD_eq_getElem?_getD, hi, Option.getD_none, List.length_replicate, hblank]
      | some colour =>
        rw [List.getD_eq_getElem?_getD, hi, Option.getD_some]
        exact hpalette colour (List.mem_of_getElem? hi)
    have hall : ((packRow bits width index).flatMap fun b => expandedByte palette bits b.toNat) =
        (List.range ((width + 8 / bits - 1) / (8 / bits) * (8 / bits))).flatMap fun x =>
          palette.getD (index x) (List.replicate (palette.headD []).length 0) :=
      flatMap_packRow hbits hindex _
    rw [hall, Raster.take_flatMap_range (fun x _ => hentry (index x)) hroom]
    refine List.flatMap_congr fun x hx => ?_
    rw [List.getD_eq_getElem?_getD, hpixel x (List.mem_range.mp hx), Option.getD_some]
  unfold packedRow
  dsimp only
  rw [hb, hflags, hpixels, if_neg]
  rintro ⟨-, hany⟩
  rw [List.any_map, List.any_eq_true] at hany
  obtain ⟨x, hx, hbad⟩ := hany
  have hlt := (List.getElem?_eq_some_iff.mp (hpixel x (List.mem_range.mp hx))).1
  simp only [Function.comp_apply, id_eq, decide_eq_true_eq] at hbad
  omega

theorem length_packRow (bits width : ℕ) (index : ℕ → ℕ) :
    (packRow bits width index).length = (width + 8 / bits - 1) / (8 / bits) := by
  unfold packRow
  rw [List.length_map, List.length_range]

/-- The rows of a packed-palette tile. -/
theorem packedPixels_eq {palette : List Bytes} {bypp : ℕ} {index : ℕ → ℕ → ℕ}
    {image : Picture UInt8} (hsome : palette ≠ [])
    (hpalette : ∀ colour ∈ palette, colour.length = bypp)
    (hindex : ∀ x y, index x y < 2 ^ indexBits palette.length)
    (hpixel : ∀ x, x < tile.width → ∀ y, y < tile.height →
      palette[index x y]? = some (image (tile.x + x) (tile.y + y))) :
    packedPixels palette tile bypp
        (((List.range tile.height).flatMap fun y =>
          packRow (indexBits palette.length) tile.width fun x => index x y) ++ rest) =
      .ok ((tilePixels image tile).flatten, rest) := by
  unfold packedPixels
  dsimp only
  have hrows : ∀ y, y < tile.height →
      (packRow (indexBits palette.length) tile.width fun x => index x y).length =
        (tile.width + 8 / indexBits palette.length - 1) / (8 / indexBits palette.length) :=
    fun y _ => length_packRow _ _ _
  have hlength := Raster.length_flatMap_range hrows
  rw [Nat.mul_comm] at hlength
  refine Fallible.bind_eq_ok.mpr ⟨_, takeData_append hlength, ?_⟩
  dsimp only
  -- Row by row, the bytes of its indices are cut out and looked up.
  have hmap : (List.range tile.height).mapM (m := Except PyErr) (fun i =>
      packedRow palette tile.width bypp
        ((((List.range tile.height).flatMap fun y =>
          packRow (indexBits palette.length) tile.width fun x => index x y).drop
            (i * ((tile.width + 8 / indexBits palette.length - 1) / (8 / indexBits palette.length)))).take
          ((tile.width + 8 / indexBits palette.length - 1) / (8 / indexBits palette.length)))) =
      .ok ((List.range tile.height).map fun y =>
        (List.range tile.width).flatMap fun x => image (tile.x + x) (tile.y + y)) := by
    refine Fallible.mapM_eq_ok fun y hy => ?_
    rw [Raster.piece_flatMap_range hrows (List.mem_range.mp hy)]
    exact packedRow_packRow hsome hpalette (fun x => hindex x y)
      fun x hx => hpixel x hx y (List.mem_range.mp hy)
  refine Fallible.bind_eq_ok.mpr ⟨_, hmap, ?_⟩
  refine congrArg (fun pixels => Except.ok (pixels, rest)) ?_
  unfold tilePixels
  rw [← List.flatMap_def, List.flatten_eq_flatMap, List.flatMap_assoc]
  refine List.flatMap_congr fun y _ => ?_
  rw [List.flatMap_map]
  rfl

/-! ## Runs -/

/-- A run of a pixel is found in its bytes. -/
theorem zrleRun_plain (hwidths : Fitting widths) {run : Bytes × ℕ}
    (hpixel : Representable widths.cbytes widths.coffset widths.bypp run.1) :
    zrleRun widths tile [] (ZRLEForm.plainRun widths run ++ rest) =
      .ok ((run.1, run.2 - 1 + 1), rest) := by
  have hnarrow : (narrowed widths.cbytes widths.coffset run.1).length = widths.cbytes :=
    length_narrowed hpixel hwidths
  have hwiden : expandCpixels (narrowed widths.cbytes widths.coffset run.1) 1 widths.cbytes
      widths.bypp widths.coffset = .ok run.1 := by
    have hlist := @expandCpixels_narrowed _ _ _ [run.1] hwidths (by simpa using hpixel)
    simpa using hlist
  unfold zrleRun ZRLEForm.plainRun
  rw [if_pos (show ([] : List Bytes).length = 0 from rfl), List.append_assoc]
  refine Fallible.bind_eq_ok.mpr ⟨_, takeData_append hnarrow, ?_⟩
  refine Fallible.bind_eq_ok.mpr ⟨_, hwiden, ?_⟩
  exact Fallible.bind_eq_ok.mpr ⟨_, runMinusOne_runBytes run.2, rfl⟩

/-- A run of a colour of the palette is found in its bytes. -/
theorem zrleRun_palette {palette : List Bytes} {run : PaletteRun} (hfew : palette.length ≤ 127)
    (hindex : run.index < palette.length) (hsingle : run.explicit = false → run.length = 1)
    (hlength : 1 ≤ run.length) :
    zrleRun widths tile palette (ZRLEForm.paletteRun run ++ rest) =
      .ok ((palette.getD run.index [], run.length), rest) := by
  have hcolour : palette[run.index]? = some (palette.getD run.index []) := by
    rw [List.getD_eq_getElem _ _ hindex, List.getElem?_eq_getElem hindex]
  unfold zrleRun ZRLEForm.paletteRun
  rw [if_neg (by omega)]
  -- With bit 7 clear the index is all; with it set the length follows.
  cases hexplicit : run.explicit with
  | false =>
    have hbyte : (UInt8.ofNat run.index).toNat = run.index := by
      rw [UInt8.toNat_ofNat', Nat.mod_eq_of_lt (by omega)]
    have hentry : run.index &&& 0x7F = run.index := by
      rw [and_0x7F, Nat.mod_eq_of_lt (by omega)]
    have hlow : run.index &&& 0x80 = 0 := (and_0x80_eq_zero_iff (by omega)).mpr (by omega)
    rw [if_neg (by decide)]
    refine Fallible.bind_eq_ok.mpr ⟨(run.index, rest), congrArg (fun n => Except.ok (n, rest)) hbyte, ?_⟩
    dsimp only
    rw [hentry, hcolour]
    dsimp only
    rw [if_pos hlow, hsingle hexplicit]
  | true =>
    have hbyte : (UInt8.ofNat (128 + run.index)).toNat = 128 + run.index := by
      rw [UInt8.toNat_ofNat', Nat.mod_eq_of_lt (by omega)]
    have hentry : (128 + run.index) &&& 0x7F = run.index := by
      rw [and_0x7F]
      omega
    have hhigh : ¬(128 + run.index) &&& 0x80 = 0 := fun hzero =>
      absurd ((and_0x80_eq_zero_iff (by omega)).mp hzero) (by omega)
    rw [if_pos rfl]
    refine Fallible.bind_eq_ok.mpr ⟨(128 + run.index, runBytes run.length ++ rest),
      congrArg (fun n => Except.ok (n, runBytes run.length ++ rest)) hbyte, ?_⟩
    dsimp only
    rw [hentry, hcolour]
    dsimp only
    rw [if_neg hhigh]
    refine Fallible.bind_eq_ok.mpr ⟨_, runMinusOne_runBytes run.length, ?_⟩
    dsimp only
    rw [Nat.sub_add_cancel hlength]

/-- Runs are found in their bytes, up to the last pixel of the tile. -/
theorem zrleRuns_eq {ρ : Type} {palette : List Bytes} {wire : ρ → Bytes} {pixel : ρ → Bytes}
    {length : ρ → ℕ} {runs : List ρ} {fuel numPixels : ℕ} {pixelData : Bytes}
    (hrun : ∀ run ∈ runs, ∀ rest, zrleRun widths tile palette (wire run ++ rest) =
      .ok ((pixel run, length run), rest))
    (hlength : ∀ run ∈ runs, 1 ≤ length run)
    (htotal : numPixels + (runs.map length).sum = tile.width * tile.height)
    (hfuel : tile.width * tile.height ≤ numPixels + fuel) :
    zrleRuns widths tile palette fuel numPixels pixelData (runs.flatMap wire ++ rest) =
      .ok ((pixelData ++ runs.flatMap fun run => RectBuffer.repeated (pixel run) (length run),
        tile.width * tile.height), rest) := by
  induction runs generalizing fuel numPixels pixelData with
  | nil =>
    have hdone : numPixels = tile.width * tile.height := by simpa using htotal
    subst hdone
    cases fuel with
    | zero => simp [zrleRuns]
    | succ fuel => simp [zrleRuns]
  | cons run runs ih =>
    have hone := hlength run List.mem_cons_self
    rw [List.map_cons, List.sum_cons] at htotal
    cases fuel with
    | zero => omega
    | succ fuel =>
      rw [zrleRuns, if_pos (by omega), List.flatMap_cons, List.append_assoc]
      refine Fallible.bind_eq_ok.mpr ⟨_, hrun run List.mem_cons_self _, ?_⟩
      dsimp only
      rw [ih (fun run hrun' => hrun run (List.mem_cons_of_mem _ hrun'))
        (fun run hrun' => hlength run (List.mem_cons_of_mem _ hrun')) (by omega) (by omega),
        List.flatMap_cons, List.append_assoc]

end Decoders

end VncDoTool
