import VncDoTool.Decoders.HextilePainting
import VncDoTool.Decoders.Stored
import VncDoTool.Decoders.ZRLEForms

/-!
# The images ZRLE carries

A rectangle whose tiles a sender gave any of their forms, and what the decoder makes of it.

* `Decoders.Laid`: a part of the image was laid over the picture of a buffer.
* `Decoders.zrleTile_form`: a tile is found in its bytes, and no other bytes are taken.
* `Decoders.zrle_decodes`: the decoder takes exactly the bytes of the rectangle, and fills it with the
  image.
-/

namespace VncDoTool

open Raster (Picture render overlay ofRaster Sized)

namespace Decoders

/-- The bytes of tiles, each in a form. -/
def zrleSerialise (widths : ZRLEWidths) (image : Picture UInt8) :
    List Rect → List ZRLEForm → Bytes
  | tile :: places, form :: forms =>
    form.serialise widths image tile ++ zrleSerialise widths image places forms
  | _, _ => []

variable {widths : ZRLEWidths} {tile : Rect} {rest : Bytes} {target target' : RectBuffer}
  {image p : Picture UInt8}

/-! ## What is laid over a picture -/

/-- The pixel lies in the tile. -/
def InTile (tile : Rect) (x y : ℕ) : Prop :=
  (tile.x ≤ x ∧ x < tile.x + tile.width) ∧ tile.y ≤ y ∧ y < tile.y + tile.height

/-- The buffer shows the image where it showed it before, and all over some tiles. -/
structure Laid (image : Picture UInt8) (places : List Rect) (p : Picture UInt8)
    (target target' : RectBuffer) (p' : Picture UInt8) : Prop where
  shows : target'.Shows p'
  writes : target.Writes target'
  covered : places ≠ [] ∨ target.covered = true → target'.covered = true
  agrees : ∀ x y, p x y = image x y ∨ (∃ tile ∈ places, InTile tile x y) → p' x y = image x y

theorem Laid.nil (h : target.Shows p) : Laid image [] p target target p where
  shows := h
  writes := RectBuffer.Writes.refl target
  covered hor := hor.resolve_left fun hnil => hnil rfl
  agrees _ _ hor := hor.resolve_right fun ⟨_, hmem, _⟩ => absurd hmem List.not_mem_nil

/-- A tile, and those behind it. -/
theorem Laid.cons {places : List Rect} {target₁ : RectBuffer} {p₁ p₂ : Picture UInt8}
    (h : Laid image [tile] p target target₁ p₁) (h' : Laid image places p₁ target₁ target' p₂) :
    Laid image (tile :: places) p target target' p₂ where
  shows := h'.shows
  writes := h.writes.trans h'.writes
  covered _ := h'.covered (.inr (h.covered (.inl (List.cons_ne_nil tile []))))
  agrees x y hor := by
    refine h'.agrees x y ?_
    rcases hor with hsame | ⟨tile', hmem, hin⟩
    · exact .inl (h.agrees x y (.inl hsame))
    · rcases List.mem_cons.mp hmem with rfl | hmem
      · exact .inl (h.agrees x y (.inr ⟨tile', List.mem_singleton_self tile', hin⟩))
      · exact .inr ⟨tile', hmem, hin⟩

/-- A picture with the tile's part of the image laid over it. -/
theorem laid_overlay {q : Picture UInt8} (hwrites : target.Writes target')
    (hcovered : target'.covered = true)
    (hshows : target'.Shows (overlay p tile.x tile.y tile.width tile.height q))
    (hq : ∀ x, x < tile.width → ∀ y, y < tile.height → q x y = image (tile.x + x) (tile.y + y)) :
    Laid image [tile] p target target' (overlay p tile.x tile.y tile.width tile.height q) where
  shows := hshows
  writes := hwrites
  covered _ := hcovered
  agrees x y hor := by
    by_cases hin : InTile tile x y
    · obtain ⟨hx, hy⟩ := hin
      rw [Raster.overlay_inside hx hy, hq _ (by omega) _ (by omega), Nat.add_sub_cancel' hx.1,
        Nat.add_sub_cancel' hy.1]
    · rw [Raster.overlay_outside hin]
      refine hor.resolve_right ?_
      rintro ⟨tile', hmem, hin'⟩
      obtain rfl := List.mem_singleton.mp hmem
      exact hin hin'

/-! ## The pixels of a tile -/

/-- The image, from the corner of a tile on. -/
theorem flatten_tilePixels (image : Picture UInt8) (tile : Rect) :
    (tilePixels image tile).flatten =
      render tile.width tile.height fun x y => image (tile.x + x) (tile.y + y) := by
  unfold tilePixels render
  rw [List.flatten_eq_flatMap, List.flatMap_assoc]
  refine List.flatMap_congr fun y _ => ?_
  rw [List.flatMap_map]
  rfl

theorem length_tilePixels (image : Picture UInt8) (tile : Rect) :
    (tilePixels image tile).length = tile.width * tile.height := by
  unfold tilePixels
  rw [Raster.length_flatMap_range fun y _ => by rw [List.length_map, List.length_range],
    Nat.mul_comm]

theorem mem_tilePixels {x y : ℕ} (hx : x < tile.width) (hy : y < tile.height) :
    image (tile.x + x) (tile.y + y) ∈ tilePixels image tile :=
  List.mem_flatMap.mpr ⟨y, List.mem_range.mpr hy,
    List.mem_map.mpr ⟨x, List.mem_range.mpr hx, rfl⟩⟩

/-- The tile lies in the buffer as a rectangle that may be written. -/
theorem Within.inside (h : Within tile target) :
    target.Inside tile.x tile.y tile.width tile.height := by
  obtain ⟨hright, hbottom⟩ := h
  unfold RectBuffer.Inside
  omega

/-- The pixels of a tile are pasted. -/
theorem pasteTile_laid (hshows : target.Shows p) (hwithin : Within tile target)
    (hsized : ∀ pixel ∈ tilePixels image tile, pixel.length = target.bypp) :
    ∃ target' p', pasteTile target tile (tilePixels image tile).flatten = .ok target' ∧
      Laid image [tile] p target target' p' := by
  have hpart : Sized target.bypp tile.width tile.height
      fun x y => image (tile.x + x) (tile.y + y) :=
    fun x hx y hy => hsized _ (mem_tilePixels hx hy)
  rw [flatten_tilePixels]
  obtain ⟨target', hblit⟩ := (RectBuffer.blit_succeeds_iff target tile.x tile.y tile.width
    tile.height (render tile.width tile.height fun x y => image (tile.x + x) (tile.y + y))).1
    ⟨hwithin.inside, Raster.length_render hpart⟩
  obtain ⟨hshown, hcovered, hwrites⟩ := RectBuffer.shows_blit hshows hblit
  simp only [Int.toNat_natCast] at hshown
  refine ⟨target', _, hblit, laid_overlay hwrites hcovered hshown fun x hx y hy => ?_⟩
  exact Raster.ofRaster_render hpart hx hy

/-- A tile of one colour is filled. -/
theorem fillTile_laid {colour : Bytes} (hshows : target.Shows p) (hwithin : Within tile target)
    (hcolour : ∀ pixel ∈ tilePixels image tile, pixel = colour)
    (hlength : colour.length = target.bypp) :
    ∃ target' p', target.fill tile.x tile.y tile.width tile.height colour = .ok target' ∧
      Laid image [tile] p target target' p' := by
  obtain ⟨target', hfill⟩ := (RectBuffer.fill_succeeds_iff target tile.x tile.y tile.width
    tile.height colour).1 ⟨hwithin.inside, hlength⟩
  obtain ⟨hshown, hcovered, hwrites⟩ := RectBuffer.shows_fill hshows hfill
  simp only [Int.toNat_natCast] at hshown
  refine ⟨target', _, hfill, laid_overlay hwrites hcovered hshown fun x hx y hy => ?_⟩
  exact (hcolour _ (mem_tilePixels hx hy)).symm

/-! ## Tiles -/

theorem tileBody_congr {rle rle' : Prop} [Decidable rle] [Decidable rle'] (h : rle ↔ rle')
    (st : List Bytes × Bytes) :
    tileBody widths target tile rle st = tileBody widths target tile rle' st := by
  unfold tileBody
  exact if_congr h rfl rfl

/-- A tile whose subencoding and palette are taken. -/
theorem zrleTile_subencoding (rle : Bool) (size : ℕ) {data rest' : Bytes} {palette : List Bytes}
    (hsize : size ≤ 127) (hplain : rle = false → size ≤ 16)
    (hpalette : (if size = 0 then .ok ([], data) else zrlePalette widths tile size data) =
      .ok (palette, rest')) :
    zrleTile widths (target, UInt8.ofNat ((if rle then 128 else 0) + size) :: data) tile =
      tileBody widths target tile (rle = true) (palette, rest') := by
  have hbyte : (UInt8.ofNat ((if rle then 128 else 0) + size)).toNat =
      (if rle then 128 else 0) + size := by
    rw [UInt8.toNat_ofNat', Nat.mod_eq_of_lt]
    split_ifs <;> omega
  -- Bit 7 says run lengths, the rest counts the palette; plain palettes have at most 16 colours.
  have hlow : ((if rle then 128 else 0) + size) &&& 127 = size := by
    rw [and_0x7F]
    split_ifs <;> omega
  have hhigh : ((if rle then 128 else 0) + size) &&& 0x80 ≠ 0 ↔ rle = true := by
    rw [ne_eq, and_0x80_eq_zero_iff (by split_ifs <;> omega)]
    cases rle with
    | false =>
      have hsmall := hplain rfl
      simp
      omega
    | true => simp
  rw [zrleTile_eq]
  refine Eq.trans (b := _ >>= _) (congrArg (· >>= _)
    (show takeByte tile (_ :: data) = .ok ((if rle then 128 else 0) + size, data) from
      congrArg (fun n => Except.ok (n, data)) hbyte)) ?_
  show (if _ then _ else _) = _
  rw [hlow, if_neg, hpalette]
  · exact tileBody_congr hhigh (palette, rest')
  · rintro ⟨hnot, hmany⟩
    have hfalse : rle = false := by
      cases hrle : rle with
      | false => rfl
      | true => exact absurd (hhigh.mpr hrle) hnot
    exact absurd (hplain hfalse) (by omega)

/-- Runs that come to the pixels of the tile. -/
theorem rlePixels_eq {ρ : Type} {palette : List Bytes} {wire pixel : ρ → Bytes}
    {length : ρ → ℕ} {runs : List ρ}
    (hrun : ∀ run ∈ runs, ∀ rest, zrleRun widths tile palette (wire run ++ rest) =
      .ok ((pixel run, length run), rest))
    (hlength : ∀ run ∈ runs, 1 ≤ length run)
    (hpixels : runs.flatMap (fun run => List.replicate (length run) (pixel run)) =
      tilePixels image tile) :
    rlePixels widths tile palette (runs.flatMap wire ++ rest) =
      .ok ((tilePixels image tile).flatten, rest) := by
  have htotal : 0 + (runs.map length).sum = tile.width * tile.height := by
    rw [← length_tilePixels image, ← hpixels, List.length_flatMap, Nat.zero_add]
    simp only [List.length_replicate]
  have hflatten : (runs.flatMap fun run => RectBuffer.repeated (pixel run) (length run)) =
      (tilePixels image tile).flatten := by
    rw [← hpixels, List.flatten_eq_flatMap, List.flatMap_assoc]
    refine List.flatMap_congr fun run _ => ?_
    rw [List.flatMap_id]
    rfl
  unfold rlePixels
  dsimp only
  refine Fallible.bind_eq_ok.mpr ⟨_, zrleRuns_eq hrun hlength htotal (by omega), ?_⟩
  dsimp only
  rw [if_neg (not_not_intro rfl), List.nil_append, hflatten]

/-- The pixels of a tile can be sent. -/
def Sendable (widths : ZRLEWidths) (image : Picture UInt8) (tile : Rect) : Prop :=
  ∀ pixel ∈ tilePixels image tile,
    Representable widths.cbytes widths.coffset widths.bypp pixel

/-- A tile is found in the bytes of any of its forms, and no others are taken. -/
theorem zrleTile_form (rest : Bytes) (hwidths : Fitting widths) (hbypp : target.bypp = widths.bypp)
    (hsendable : Sendable widths image tile) (htile : 1 ≤ tile.width * tile.height)
    (hshows : target.Shows p) (hwithin : Within tile target) {form : ZRLEForm}
    (hform : form.Encodes widths image tile) :
    ∃ target' p', zrleTile widths (target, form.serialise widths image tile ++ rest) tile =
        .ok (target', rest) ∧ Laid image [tile] p target target' p' := by
  have hsized : ∀ pixel ∈ tilePixels image tile, pixel.length = target.bypp :=
    fun pixel hpixel => (hsendable pixel hpixel).1.trans hbypp.symm
  obtain ⟨pasted, p', hpaste, hlaid⟩ := pasteTile_laid hshows hwithin hsized
  -- what is behind the palette of a tile whose pixels are pasted
  have hbody : pasteTile target tile (tilePixels image tile).flatten >>= (fun target =>
      (.ok (target, rest) : Except PyErr (RectBuffer × Bytes))) = .ok (pasted, rest) :=
    Fallible.bind_eq_ok.mpr ⟨pasted, hpaste, rfl⟩
  cases form with
  | raw =>
    refine ⟨pasted, p', ?_, hlaid⟩
    refine (zrleTile_subencoding false 0 (by decide) (fun _ => by decide) (if_pos rfl)).trans ?_
    unfold tileBody
    rw [if_neg (by decide)]
    refine Fallible.bind_eq_ok.mpr ⟨_, takeData_append ?_, ?_⟩
    · rw [length_flatMap_narrowed hwidths hsendable, length_tilePixels]
    · dsimp only
      rw [← length_tilePixels image tile]
      exact Fallible.bind_eq_ok.mpr ⟨_, expandCpixels_narrowed hwidths hsendable, hbody⟩
  | solid colour =>
    have hcolour : Representable widths.cbytes widths.coffset widths.bypp colour := by
      have hlength := length_tilePixels image tile
      cases hpixels : tilePixels image tile with
      | nil =>
        rw [hpixels, List.length_nil] at hlength
        omega
      | cons pixel more =>
        have hmem : pixel ∈ tilePixels image tile := hpixels ▸ List.mem_cons_self
        exact hform pixel hmem ▸ hsendable pixel hmem
    obtain ⟨filled, q, hfill, hlaid'⟩ := fillTile_laid hshows hwithin hform
      (hcolour.1.trans hbypp.symm)
    refine ⟨filled, q, ?_, hlaid'⟩
    have hpalette : zrlePalette widths tile 1
        (narrowed widths.cbytes widths.coffset colour ++ rest) = .ok ([colour], rest) := by
      rw [← List.flatMap_singleton (narrowed widths.cbytes widths.coffset) colour]
      exact zrlePalette_eq hwidths fun c hc => List.mem_singleton.mp hc ▸ hcolour
    refine (zrleTile_subencoding false 1 (by decide) (fun _ => by decide)
      ((if_neg (by decide)).trans hpalette)).trans ?_
    unfold tileBody
    rw [if_neg (by decide)]
    exact Fallible.bind_eq_ok.mpr ⟨filled, hfill, rfl⟩
  | packed palette index =>
    obtain ⟨⟨hseveral, hfew, hcolours⟩, hindex, hpixel⟩ := hform
    refine ⟨pasted, p', ?_, hlaid⟩
    unfold ZRLEForm.serialise
    rw [List.cons_append, List.append_assoc]
    nth_rewrite 1 [← Nat.zero_add palette.length]
    refine (zrleTile_subencoding false palette.length (by omega) (fun _ => hfew)
      ((if_neg (by omega)).trans (zrlePalette_eq hwidths hcolours))).trans ?_
    have hpixels : packedPixels palette tile widths.bypp
        (((List.range tile.height).flatMap fun y =>
          packRow (indexBits palette.length) tile.width fun x => index x y) ++ rest) =
        .ok ((tilePixels image tile).flatten, rest) :=
      packedPixels_eq (List.ne_nil_of_length_pos (by omega))
        (fun colour hcolour => (hcolours colour hcolour).1) hindex hpixel
    unfold tileBody
    rw [if_neg (by decide)]
    match palette, hseveral with
    | colour :: colour' :: more, _ => exact Fallible.bind_eq_ok.mpr ⟨_, hpixels, hbody⟩
  | plainRuns runs =>
    obtain ⟨hlength, hpixels⟩ := hform
    refine ⟨pasted, p', ?_, hlaid⟩
    refine (zrleTile_subencoding true 0 (by decide) (fun h => absurd h (by decide))
      (if_pos rfl)).trans ?_
    have hruns : rlePixels widths tile [] (runs.flatMap (ZRLEForm.plainRun widths) ++ rest) =
        .ok ((tilePixels image tile).flatten, rest) := by
      refine rlePixels_eq (fun run hrun rest => ?_) hlength hpixels
      -- a run has a pixel, and the image has it there
      have hone := hlength run hrun
      have hmem : run.1 ∈ tilePixels image tile := by
        rw [← hpixels]
        exact List.mem_flatMap.mpr ⟨run, hrun, List.mem_replicate.mpr ⟨by omega, rfl⟩⟩
      rw [zrleRun_plain hwidths (hsendable _ hmem), Nat.sub_add_cancel hone]
    unfold tileBody
    rw [if_pos rfl]
    exact Fallible.bind_eq_ok.mpr ⟨_, hruns, hbody⟩
  | paletteRuns palette runs =>
    obtain ⟨⟨hseveral, hfew, hcolours⟩, hruns, hpixels⟩ := hform
    refine ⟨pasted, p', ?_, hlaid⟩
    unfold ZRLEForm.serialise
    rw [List.cons_append, List.append_assoc]
    refine (zrleTile_subencoding true palette.length hfew (fun h => absurd h (by decide))
      ((if_neg (by omega)).trans (zrlePalette_eq hwidths hcolours))).trans ?_
    have hfound : rlePixels widths tile palette (runs.flatMap ZRLEForm.paletteRun ++ rest) =
        .ok ((tilePixels image tile).flatten, rest) := by
      refine rlePixels_eq (fun run hrun rest => ?_) (fun run hrun => (hruns run hrun).1) hpixels
      obtain ⟨hone, hindex, hsingle⟩ := hruns run hrun
      exact zrleRun_palette hfew hindex hsingle hone
    unfold tileBody
    rw [if_pos rfl]
    exact Fallible.bind_eq_ok.mpr ⟨_, hfound, hbody⟩

/-- Tiles are found one after the other. -/
theorem zrleTiles_forms (rest : Bytes) (hwidths : Fitting widths) {places : List Rect} {forms : List ZRLEForm}
    (hforms : List.Forall₂ (fun tile form => ZRLEForm.Encodes widths image tile form) places forms)
    (hbypp : target.bypp = widths.bypp)
    (hplaces : ∀ tile ∈ places, Sendable widths image tile ∧ 1 ≤ tile.width * tile.height ∧
      Within tile target) (hshows : target.Shows p) :
    ∃ target' p', places.foldlM (zrleTile widths)
        (target, zrleSerialise widths image places forms ++ rest) = .ok (target', rest) ∧
      Laid image places p target target' p' := by
  induction hforms generalizing target p with
  | nil => exact ⟨target, p, rfl, .nil hshows⟩
  | @cons tile form places forms hform hforms ih =>
    obtain ⟨hsendable, htile, hwithin⟩ := hplaces tile List.mem_cons_self
    obtain ⟨target₁, p₁, hfirst, hlaid⟩ := zrleTile_form
      (zrleSerialise widths image places forms ++ rest) hwidths hbypp hsendable htile hshows hwithin
      hform
    obtain ⟨target', p', hrest, hlaid'⟩ := ih (hlaid.writes.bypp.trans hbypp)
      (fun t ht => ⟨(hplaces t (List.mem_cons_of_mem tile ht)).1,
        (hplaces t (List.mem_cons_of_mem tile ht)).2.1,
        (hplaces t (List.mem_cons_of_mem tile ht)).2.2.writes hlaid.writes⟩) hlaid.shows
    refine ⟨target', p', ?_, hlaid.cons hlaid'⟩
    rw [List.foldlM_cons, zrleSerialise, List.append_assoc]
    exact Fallible.bind_eq_ok.mpr ⟨_, hfirst, hrest⟩

/-! ## Rectangles -/

/-- A pixel of a tile is one of the rectangle. -/
theorem sendable_of_mem_tiles {width height : ℕ}
    (himage : ∀ x, x < width → ∀ y, y < height →
      Representable widths.cbytes widths.coffset widths.bypp (image x y))
    (h : tile ∈ tiles zrleTileSize width height) : Sendable widths image tile := by
  obtain ⟨hright, hbottom⟩ := within_of_mem_tiles (by decide) h
  intro pixel hpixel
  obtain ⟨y, hy, hrow⟩ := List.mem_flatMap.mp hpixel
  obtain ⟨x, hx, rfl⟩ := List.mem_map.mp hrow
  have hy' := List.mem_range.mp hy
  have hx' := List.mem_range.mp hx
  exact himage _ (by omega) _ (by omega)

/-- The tiles of a rectangle are found in their bytes, and the image in the tiles. -/
theorem zrleTiles_image {pf : PixelFormat} {width height : ℕ} {backing : Bytes}
    (hcreate : RectBuffer.create width height pf.bypp backing = .ok target)
    (himage : ∀ x, x < width → ∀ y, y < height →
      Representable pf.cpixelBytes pf.cpixelOffset pf.bypp (image x y))
    {forms : List ZRLEForm}
    (hforms : List.Forall₂ (fun tile form =>
      ZRLEForm.Encodes ⟨pf.cpixelBytes, pf.cpixelOffset, pf.bypp⟩ image tile form)
      (tiles zrleTileSize width height) forms) (extra : Bytes) :
    ∃ target', (tiles zrleTileSize width height).foldlM
        (zrleTile ⟨pf.cpixelBytes, pf.cpixelOffset, pf.bypp⟩)
        (target, zrleSerialise ⟨pf.cpixelBytes, pf.cpixelOffset, pf.bypp⟩ image
          (tiles zrleTileSize width height) forms ++ extra) = .ok (target', extra) ∧
      target'.tobytes = render width height image := by
  have hroom : width * height * pf.bypp ≤ backing.length := by
    by_contra hsmall
    unfold RectBuffer.create at hcreate
    rw [if_pos (Nat.not_le.mp hsmall)] at hcreate
    cases hcreate
  obtain ⟨hcreated, hblank⟩ := RectBuffer.shows_create hroom
  obtain rfl := Except.ok.inj (hcreated.symm.trans hcreate)
  -- Every tile of the cutting lies in the rectangle and has a pixel.
  have hplaces : ∀ tile ∈ tiles zrleTileSize width height,
      Sendable ⟨pf.cpixelBytes, pf.cpixelOffset, pf.bypp⟩ image tile ∧
        1 ≤ tile.width * tile.height ∧
          Within tile { width, height, bypp := pf.bypp, backing } := by
    intro tile htile
    obtain ⟨hright, hbottom⟩ := within_of_mem_tiles (by decide) htile
    exact ⟨sendable_of_mem_tiles himage htile, tile_pixels (by decide) htile, hright, hbottom⟩
  obtain ⟨target', p', hloop, hlaid⟩ :=
    zrleTiles_forms extra (fitting_widths pf) hforms rfl hplaces hblank
  refine ⟨target', hloop, ?_⟩
  have hwidth : target'.width = width := hlaid.writes.width
  have hheight : target'.height = height := hlaid.writes.height
  -- A rectangle without tiles has no pixels, so that nothing needs to be written.
  have htobytes : target'.tobytes = render target'.width target'.height p' := by
    refine tobytes_of_covered hlaid.shows fun hw hh => ?_
    rw [hwidth] at hw
    rw [hheight] at hh
    exact hlaid.covered (.inl (tiles_ne_nil (by decide) hw hh))
  rw [htobytes, hwidth, hheight]
  refine Raster.render_congr fun x hx y hy => ?_
  obtain ⟨tile, htile, hin⟩ := exists_tile (by decide : 0 < zrleTileSize) hx hy
  exact hlaid.agrees x y (.inr ⟨tile, htile, hin⟩)

open RFBClient Coroutine

variable {codecs : Codecs} {S : Type}

/-- A rectangle whose data is inflated. -/
theorem decodes_zrleData (target : RectBuffer) (pf : PixelFormat) {block data tail : Bytes}
    {stream' : codecs.Stream} (hblock : block.length < 2 ^ 32) {a : DAttrs codecs S}
    (hinflates : codecs.decompress a.decoding.zlibStream block 0 = .ok (data, tail, stream')) :
    (∀ target', zrleTiles pf target data = .ok target' →
      Decodes (zrleDecodePixels target pf) a (be32 block.length ++ block) target'
        { a with decoding := { a.decoding with zlibStream := stream' } }) ∧
    (∀ text, zrleTiles pf target data = .error ⟨.decodeError, text⟩ →
      Refuses (zrleDecodePixels target pf) a (be32 block.length ++ block)) := by
  have hlength : u32At (Block.of (n := 4) (be32 block.length) (length_be32 _)).bytes 0 =
      block.length := by
    rw [Block.bytes_of]
    simpa using u32At_be32 hblock []
  have hinflated : Decodes (zrleDecompress block) a [] data
      { a with decoding := { a.decoding with zlibStream := stream' } } := by
    unfold zrleDecompress
    refine (Consumes.get a).bind_nil ?_
    rw [hinflates]
    exact (Consumes.modify _ a).bind_nil (Consumes.pure data _)
  unfold zrleDecodePixels
  constructor
  · intro target' htarget
    refine decodes_read_bind (length_be32 _) ?_
    rw [hlength]
    refine (decodes_read rfl a).bind_pure ?_
    rw [Block.bytes_of]
    exact hinflated.bind_nil (decodes_ofExcept htarget _)
  · intro text htext
    refine refuses_read_bind (length_be32 _) ?_
    rw [hlength]
    refine (congrArg (Refuses _ a) (List.append_nil block)).mp ?_
    refine Rejects.bind_right (decodes_read rfl a) ?_
    rw [Block.bytes_of]
    exact Rejects.bind_nil hinflated (refuses_ofExcept htext _ [])

/-- Fed a rectangle whose tiles have any of their forms, the decoder takes exactly its bytes, keeps
the stream for the next one, and fills the rectangle with the image; where more was deflated than the
tiles, it raises a `DecodeError`. -/
theorem zrle_decodes {pf : PixelFormat} {width height : ℕ} {backing : Bytes}
    (hcreate : RectBuffer.create width height pf.bypp backing = .ok target)
    (himage : ∀ x, x < width → ∀ y, y < height →
      Representable pf.cpixelBytes pf.cpixelOffset pf.bypp (image x y))
    {forms : List ZRLEForm}
    (hforms : List.Forall₂ (fun tile form =>
      ZRLEForm.Encodes ⟨pf.cpixelBytes, pf.cpixelOffset, pf.bypp⟩ image tile form)
      (tiles zrleTileSize width height) forms)
    {block extra tail : Bytes} {stream' : codecs.Stream} (hblock : block.length < 2 ^ 32)
    {a : DAttrs codecs S}
    (hinflates : codecs.decompress a.decoding.zlibStream block 0 =
      .ok (zrleSerialise ⟨pf.cpixelBytes, pf.cpixelOffset, pf.bypp⟩ image
        (tiles zrleTileSize width height) forms ++ extra, tail, stream')) :
    (extra = [] → ∃ target',
      Decodes (zrleDecodePixels target pf) a (be32 block.length ++ block) target'
        { a with decoding := { a.decoding with zlibStream := stream' } } ∧
      target'.tobytes = render width height image) ∧
    (extra ≠ [] → Refuses (zrleDecodePixels target pf) a (be32 block.length ++ block)) := by
  obtain ⟨target', hloop, htobytes⟩ := zrleTiles_image hcreate himage hforms extra
  obtain ⟨hdecodes, hrefuses⟩ := decodes_zrleData target pf hblock hinflates
  have hsize : target.width = width ∧ target.height = height ∧ target.bypp = pf.bypp := by
    unfold RectBuffer.create at hcreate
    dsimp only at hcreate
    split_ifs at hcreate
    obtain rfl := Except.ok.inj hcreate
    exact ⟨rfl, rfl, rfl⟩
  -- The loop leaves what was deflated behind the tiles, and a rest is refused.
  unfold zrleTiles at hdecodes hrefuses
  dsimp only at hdecodes hrefuses
  rw [hsize.1, hsize.2.1, hsize.2.2, hloop] at hdecodes hrefuses
  constructor
  · rintro rfl
    refine ⟨target', hdecodes target' (Fallible.bind_eq_ok.mpr ⟨_, rfl, ?_⟩), htobytes⟩
    exact if_neg (not_not_intro rfl)
  · intro hextra
    exact hrefuses _ (if_pos hextra)

/-- A rectangle of two tiles: a run over all of the first, and a single pixel in the second. -/
abbrev dotted : Picture UInt8 := fun x _ => if x < 64 then [1, 2, 3, 0] else [4, 5, 6, 0]

abbrev dottedForms : List ZRLEForm := [.plainRuns [([1, 2, 3, 0], 64)], .solid [4, 5, 6, 0]]

/-- The two tiles are decoded, and a byte too many behind them is refused. -/
theorem zrle_decodes_dotted :
    let target : RectBuffer := ⟨65, 1, 4, List.replicate 260 9, none, false⟩
    let a : DAttrs storedCodecs Unit := { factory := {}, decoding := {}, own := () }
    (∃ target', Decodes (zrleDecodePixels target {}) a
      ([0, 0, 0, 21] ++ (zlibHeader ++ flushedBlock [128, 1, 2, 3, 63, 1, 4, 5, 6])) target'
        { a with decoding := { zlibStream := .block [] } } ∧
      target'.tobytes = render 65 1 dotted) ∧
    Refuses (zrleDecodePixels target {}) a
      ([0, 0, 0, 22] ++ (zlibHeader ++ flushedBlock [128, 1, 2, 3, 63, 1, 4, 5, 6, 0])) := by
  have hcreate : RectBuffer.create 65 1 (PixelFormat.bypp {}) (List.replicate 260 9) =
      .ok ⟨65, 1, 4, List.replicate 260 9, none, false⟩ :=
    (RectBuffer.shows_create (List.length_replicate (n := 260)).ge).1
  have himage : ∀ x, x < 65 → ∀ y, y < 1 → Representable (PixelFormat.cpixelBytes {})
      (PixelFormat.cpixelOffset {}) (PixelFormat.bypp {}) (dotted x y) := by
    intro x _ y _
    unfold dotted
    split_ifs
    · exact ⟨rfl, by decide⟩
    · exact ⟨rfl, by decide⟩
  have hforms : List.Forall₂ (fun tile form => ZRLEForm.Encodes ⟨PixelFormat.cpixelBytes {},
      PixelFormat.cpixelOffset {}, PixelFormat.bypp {}⟩ dotted tile form)
      (tiles zrleTileSize 65 1) dottedForms := by
    -- A row of 65 pixels is two tiles: 64 pixels and one.
    have hplaces : tiles zrleTileSize 65 1 = [⟨0, 0, 64, 1⟩, ⟨64, 0, 1, 1⟩] := by decide
    rw [hplaces]
    refine .cons ⟨by decide, ?_⟩ (.cons ?_ .nil)
    · decide
    · intro pixel hpixel
      exact List.mem_singleton.mp hpixel
  refine ⟨?_, ?_⟩
  · exact (@zrle_decodes _ _ storedCodecs Unit {} 65 1 _ hcreate himage _ hforms
      (zlibHeader ++ flushedBlock [128, 1, 2, 3, 63, 1, 4, 5, 6]) [] [] (.block []) (by decide) _
      (decompress_first (by decide) (.inl rfl))).1 rfl
  · exact (@zrle_decodes _ _ storedCodecs Unit {} 65 1 _ hcreate himage _ hforms
      (zlibHeader ++ flushedBlock [128, 1, 2, 3, 63, 1, 4, 5, 6, 0]) [0] [] (.block []) (by decide) _
      (decompress_first (by decide) (.inl rfl))).2 (by decide)

end Decoders

end VncDoTool
