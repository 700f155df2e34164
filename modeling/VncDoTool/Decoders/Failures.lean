import VncDoTool.Client.Effects
import VncDoTool.Decoders.Table
import VncDoTool.Decoders.ZRLEBounds

/-!
# What decoders raise

Every decoder of the table raises nothing but what the pump catches, with one exception: pixels of a
Tight palette for which there is no image mode, which are found when the last of the rectangle's bytes
are read.

* `Decoders.Caught`: the exceptions that abort a connection.
* `Decoders.Unmatched`: palette indices whose pixels no image mode fits; `Decoders.unpalette_error`.
* `Decoders.awaitingIndices`, `Decoders.awaitingPacked`: where a decoder waits for such indices.
* `Decoders.fails_forConnection`: every decoder of the table.
-/

namespace VncDoTool

namespace Decoders

open RFBClient Coroutine

variable {codecs : Codecs} {S : Type}

/-- `_DECODE_ERRORS`: what `_pump` catches of a decoder. -/
def Caught (e : PyErr) : Prop := ∀ rect, (Task.rectangle rect).catches e.cls = true

theorem caught_of_isDecodeError {e : PyErr} (h : IsDecodeError e) : Caught e := fun _ => by
  rw [h]
  rfl

section

variable {α β : Type} {a : DAttrs codecs S} {P : PyErr → Prop}
  {known : (y : Request) → (Answer y → DAttrs codecs S → GenStep (Decoding codecs) S β) → Prop}

theorem fails_bind {m : Gen (Decoding codecs) S α} {f : α → Gen (Decoding codecs) S β}
    (hm : (m.run a).FailsOnly P) (hf : ∀ v t, ((f v).run t).Fails P known) :
    ((m >>= f).run a).Fails P known := hm.bind hf

theorem fails_get_bind {f : DAttrs codecs S → Gen (Decoding codecs) S β}
    (h : ((f a).run a).Fails P known) : ((Coroutine.get >>= f).run a).Fails P known := h

theorem failsOnly_read (n : ℕ) :
    ((Gen.read n : Gen (Decoding codecs) S (Block n)).run a).FailsOnly Caught :=
  .inr fun _ _ => trivial

theorem failsOnly_raise {cls : ErrorClass} {message : String} (h : Caught ⟨cls, message⟩) :
    ((Gen.raise cls message : Gen (Decoding codecs) S α).run a).FailsOnly Caught := h

/-- A call that may raise. -/
theorem failsOnly_ofExcept {v : Except PyErr α} (h : ∀ e, v = .error e → Caught e) :
    ((Gen.lift (RFBClient.ofExcept v) : Gen (Decoding codecs) S α).run a).FailsOnly Caught := by
  cases v with
  | ok x => trivial
  | error e => exact h e rfl

/-- A loop over a list. -/
theorem failsOnly_foldlM {f : α → β → Gen (Decoding codecs) S α}
    (hf : ∀ x b t, ((f x b).run t).FailsOnly Caught) (bs : List β) (x : α) (a : DAttrs codecs S) :
    ((bs.foldlM f x).run a).FailsOnly Caught := by
  induction bs generalizing x a with
  | nil => trivial
  | cons b bs ih =>
    rw [List.foldlM_cons]
    exact (hf x b a).bind fun x' t => ih x' t

end

/-! ## Decoders that raise nothing else -/

section

variable {a : DAttrs codecs S}

theorem failsOnly_requireFits (width height : ℕ) :
    ((requireFits width height : Gen (Decoding codecs) S Unit).run a).FailsOnly Caught := by
  unfold requireFits
  refine fails_get_bind ?_
  dsimp only
  split_ifs
  · trivial
  · exact failsOnly_raise fun _ => rfl

/-- The buffer of a rectangle, if the rectangle fits, has room for it, and pixels as wide as the
client's. What it is filled with decides what is raised. -/
theorem failsOnly_rectBuffer_bind {width height : ℕ} {α : Type}
    {f : RectBuffer → Gen (Decoding codecs) S α}
    (h : ∀ backing target t, RectBuffer.create width height a.pixelFormat.bypp backing = .ok target →
      ((f target).run t).FailsOnly Caught) :
    ((rectBuffer width height >>= f).run a).FailsOnly Caught := by
  unfold rectBuffer requireFits
  simp only [run_bind, run_get, Step.bind_done]
  by_cases hfits : width ≤ sizeLimit a.width ∧ height ≤ sizeLimit a.height
  · rw [if_neg (not_not_intro hfits), run_pure]
    simp only [Step.bind_done, run_modify, Gen.run_lift]
    have hroom : width * height * a.pixelFormat.bypp ≤
        (growBacking (width * height * a.pixelFormat.bypp) a.decoding).rectBacking.length := by
      unfold growBacking
      split_ifs with hsmall
      · rw [List.length_replicate]
      · exact Nat.not_lt.mp hsmall
    have hcreate := (RectBuffer.shows_create hroom).1
    rw [hcreate]
    exact h _ _ _ hcreate
  · rw [if_pos hfits, Gen.run_raise]
    exact fun _ => rfl

theorem failsOnly_pixelDecode
    {decodePixels : RectBuffer → PixelFormat → Gen (Decoding codecs) S RectBuffer} {rect : Rect}
    (h : ∀ backing target t,
      RectBuffer.create rect.width rect.height a.pixelFormat.bypp backing = .ok target →
      ((decodePixels target a.pixelFormat).run t).FailsOnly Caught) :
    ((pixelDecode decodePixels rect a.pixelFormat).run a).FailsOnly Caught := by
  unfold pixelDecode
  refine failsOnly_rectBuffer_bind fun backing target t hcreate => ?_
  exact fails_bind (h backing target t hcreate) fun _ _ => trivial

theorem failsOnly_rawDecode (rect : Rect) (pixelFormat : PixelFormat) :
    ((rawDecode rect pixelFormat).run a).FailsOnly Caught := by
  unfold rawDecode
  refine fails_bind (failsOnly_requireFits rect.width rect.height) fun _ a => ?_
  exact fails_bind (failsOnly_read _) fun _ _ => trivial

theorem failsOnly_rreDecodePixels (coords : Coords) (target : RectBuffer)
    (pixelFormat : PixelFormat) :
    ((rreDecodePixels coords target pixelFormat).run a).FailsOnly Caught := by
  unfold rreDecodePixels
  refine fails_bind (failsOnly_read _) fun header a => ?_
  refine fails_bind (failsOnly_ofExcept fun _ h => caught_of_isDecodeError (fill_error h))
    fun target a => ?_
  split_ifs
  · trivial
  · exact failsOnly_raise fun _ => rfl
  · refine fails_bind (failsOnly_read _) fun data a => ?_
    exact failsOnly_foldlM (fun _ _ _ => failsOnly_ofExcept fun _ h =>
      caught_of_isDecodeError (fill_error h)) _ _ _

theorem paintTileSubrect_error {tile : Rect} {coloured : Bool} {foreground entry : Bytes}
    {target : RectBuffer} {e : PyErr}
    (h : paintTileSubrect tile coloured foreground target entry = .error e) : IsDecodeError e := by
  unfold paintTileSubrect at h
  dsimp only at h
  split_ifs at h
  all_goals first
    | exact fill_error h
    | rw [← Except.error.inj h]; rfl

theorem failsOnly_hextileSubrects (flags : HextileFlags) (tile : Rect) (count : ℕ)
    (st : HextileState) : ((hextileSubrects flags tile count st).run a).FailsOnly Caught := by
  unfold hextileSubrects
  dsimp only
  split_ifs
  all_goals first
    | exact failsOnly_raise fun _ => rfl
    | refine fails_bind (failsOnly_read _) fun data a => ?_
      refine fails_bind (failsOnly_foldlM (fun _ _ _ => failsOnly_ofExcept fun _ h =>
        caught_of_isDecodeError (paintTileSubrect_error h)) _ _ _) fun _ _ => trivial

theorem failsOnly_hextileFill (flags : HextileFlags) (tile : Rect) (block : Bytes)
    (st : HextileState) : ((hextileFill flags tile block st).run a).FailsOnly Caught := by
  unfold hextileFill
  dsimp only
  by_cases hbackground :
      (if flags.backgroundSpecified then block.take st.target.bypp else st.background) = []
  · rw [if_pos hbackground]
    exact failsOnly_raise fun _ => rfl
  · rw [if_neg hbackground]
    refine fails_bind (failsOnly_ofExcept fun _ h => caught_of_isDecodeError (fill_error h))
      fun target a => ?_
    by_cases hsubrects : flags.anySubrects = true
    · rw [if_pos hsubrects]
      exact failsOnly_hextileSubrects flags tile _ _
    · rw [if_neg hsubrects]
      trivial

theorem failsOnly_hextileTile (st : HextileState) (tile : Rect) (a : DAttrs codecs S) :
    ((hextileTile st tile).run a).FailsOnly Caught := by
  unfold hextileTile
  refine fails_bind (failsOnly_read _) fun subencoding a => ?_
  dsimp only
  split_ifs
  · refine fails_bind (failsOnly_read _) fun pixels a => ?_
    exact fails_bind (failsOnly_ofExcept fun _ h => caught_of_isDecodeError (blit_error h))
      fun _ _ => trivial
  · exact failsOnly_hextileFill _ tile [] st
  · refine fails_bind (failsOnly_read _) fun block a => ?_
    exact failsOnly_hextileFill _ tile block.bytes st

theorem failsOnly_hextileDecodePixels (target : RectBuffer) (pixelFormat : PixelFormat) :
    ((hextileDecodePixels target pixelFormat).run a).FailsOnly Caught := by
  unfold hextileDecodePixels
  exact fails_bind (failsOnly_foldlM failsOnly_hextileTile _ _ a) fun _ _ => trivial

/-- On a buffer of the client's format the tile loop raises as its checked twin does. -/
theorem zrleTiles_error {width height : ℕ} {pixelFormat : PixelFormat} {backing data : Bytes}
    {target : RectBuffer} {e : PyErr}
    (hcreate : RectBuffer.create width height pixelFormat.bypp backing = .ok target)
    (h : zrleTiles pixelFormat target data = .error e) : IsDecodeError e := by
  have hbypp : target.bypp = pixelFormat.bypp := by
    unfold RectBuffer.create at hcreate
    dsimp only at hcreate
    split_ifs at hcreate
    rw [← Except.ok.inj hcreate]
  have hagrees := agrees_tiles (RectBuffer.valid_create hcreate) hbypp data
  rw [h] at hagrees
  generalize checkedTiles pixelFormat target data = c at hagrees
  cases hagrees with
  | raised hgood => exact hgood

theorem failsOnly_zrleDecompress (block : Bytes) :
    ((zrleDecompress block).run a).FailsOnly Caught := by
  unfold zrleDecompress
  refine fails_get_bind ?_
  split
  · exact failsOnly_raise fun _ => rfl
  · trivial

theorem failsOnly_zrleDecodePixels {width height : ℕ} {pixelFormat : PixelFormat} {backing : Bytes}
    {target : RectBuffer}
    (hcreate : RectBuffer.create width height pixelFormat.bypp backing = .ok target) :
    ((zrleDecodePixels target pixelFormat).run a).FailsOnly Caught := by
  unfold zrleDecodePixels
  refine fails_bind (failsOnly_read _) fun lengthBlock a => ?_
  refine fails_bind (failsOnly_read _) fun block a => ?_
  refine fails_bind (failsOnly_zrleDecompress block.bytes) fun data a => ?_
  exact failsOnly_ofExcept fun _ h => caught_of_isDecodeError (zrleTiles_error hcreate h)

end

/-! ## Palettes without an image mode -/

/-- Indices that a palette defines, for pixels of a width no image mode has. Two colours make a
bitmap, which needs none. -/
structure Unmatched (palette : List Bytes) (data : Bytes) : Prop where
  some : data ≠ []
  indexed : palette.length ≠ 2
  defined : ∀ b ∈ data, b.toNat < palette.length
  wide : (palette.headD []).length ∉ [1, 2, 3, 4]

theorem mem_defined {palette : List Bytes} {b : UInt8} :
    b ∈ (paletteTables palette).2 ↔ b.toNat < palette.length := by
  simp only [paletteTables, List.mem_map, List.mem_range]
  constructor
  · rintro ⟨i, hi, rfl⟩
    rw [UInt8.toNat_ofNat']
    exact (Nat.mod_le _ _).trans_lt hi
  · intro h
    exact ⟨b.toNat, h, by simp⟩

/-- What is raised on palette indices is caught, or there is no image mode. -/
theorem unpalette_error {data : Bytes} {palette : List Bytes} {width height rowSize : ℕ} {e : PyErr}
    (h : unpalette codecs data palette width height rowSize = .error e) :
    Caught e ∨ Unmatched palette data := by
  unfold unpalette at h
  by_cases hnone : data = []
  · rw [if_pos hnone] at h
    cases h
  rw [if_neg hnone] at h
  -- Two colours are unpacked from bits, and nothing of that raises.
  split at h
  · dsimp only at h
    split_ifs at h
  next _ hnot =>
    have hlength : palette.length ≠ 2 := by
      intro htwo
      obtain ⟨zero, one, rfl⟩ := List.length_eq_two.mp htwo
      exact hnot zero one rfl
    split at h
    next channels defined htables =>
    have hdefined : defined = (paletteTables palette).2 := by rw [htables]
    have hchannels : channels.length = (palette.headD []).length := by
      have hfst : channels = (paletteTables palette).1 := by rw [htables]
      simp [hfst, paletteTables]
    split_ifs at h with hleft
    · -- An index without a colour: a `DecodeError`.
      obtain rfl := Except.error.inj h
      exact .inl fun _ => rfl
    · -- One channel needs no image mode; for more of them one is looked up.
      split at h
      · cases h
      next hsingle =>
        split_ifs at h with hmode
        refine .inr ⟨hnone, hlength, fun b hb => ?_, ?_⟩
        · rw [← mem_defined, ← hdefined]
          by_contra hmem
          refine hleft fun hempty => ?_
          have hkept : b ∈ data.filter fun b => b ∉ defined :=
            List.mem_filter.mpr ⟨hb, by simpa using hmem⟩
          rw [hempty] at hkept
          cases hkept
        · rw [← hchannels]
          intro hmem
          rcases List.mem_cons.mp hmem with hone | hmore
          · obtain ⟨channel, rfl⟩ := List.length_eq_one_iff.mp hone
            exact hsingle channel rfl
          · exact hmode hmore

/-- Without an image mode a `KeyError` is raised. -/
theorem unpalette_of_unmatched {data : Bytes} {palette : List Bytes} (width height rowSize : ℕ)
    (h : Unmatched palette data) :
    unpalette codecs data palette width height rowSize =
      .error ⟨.keyError, s!"{(palette.headD []).length}"⟩ := by
  have hchannels : (paletteTables palette).1.length = (palette.headD []).length := by
    simp [paletteTables]
  -- Every index is one of the palette, so the check for undefined ones passes.
  have hleft : (data.filter fun b => b ∉ (paletteTables palette).2) = [] := by
    rw [List.filter_eq_nil_iff]
    intro b hb
    simpa using mem_defined.mpr (h.defined b hb)
  have hwide := h.wide
  rw [← hchannels] at hwide ⊢
  unfold unpalette
  rw [if_neg h.some]
  split
  · exact absurd rfl h.indexed
  · rw [show paletteTables _ = ((paletteTables _).1, (paletteTables _).2) from rfl]
    simp only
    rw [if_neg (not_not_intro hleft)]
    split
    next channel hone => simp [hone] at hwide
    · rw [if_pos fun hmem => hwide (List.mem_cons_of_mem _ hmem)]

/-! ## Where a palette is applied -/

/-- The bytes of a row of palette indices. -/
def indexRow (palette : List Bytes) (width : ℕ) : ℕ :=
  if palette.length = 2 then (width + 7) / 8 else width

/-- The last part of a Tight rectangle with a palette, once its indices are there. -/
def finishPalette (rect : Rect) (pixelFormat : PixelFormat) (palette : List Bytes) (data : Bytes) :
    Gen (Decoding codecs) S Outcome := do
  let pixels ← Gen.lift (RFBClient.ofExcept
    (unpalette codecs data palette rect.width rect.height (indexRow palette rect.width)))
  pure { changed := true, paste := some (pixels, tightOutputFormat pixelFormat) }

/-- The handler that waits for palette indices. -/
def awaitingIndices (rect : Rect) (pixelFormat : PixelFormat) (palette : List Bytes) :
    Expected (Decoding codecs) S :=
  .pump (.rectangle rect) (rect.height * indexRow palette rect.width : ℕ) fun block t =>
    (finishPalette rect pixelFormat palette block.bytes).run t

/-- The handler that waits for palette indices that are compressed. -/
def awaitingPacked (rect : Rect) (pixelFormat : PixelFormat) (palette : List Bytes)
    (streamId length : ℕ) : Expected (Decoding codecs) S :=
  .pump (.rectangle rect) length fun block t =>
    (tightDecompress streamId block.bytes (rect.height * indexRow palette rect.width) >>=
      finishPalette rect pixelFormat palette).run t

/-- A suspension at which one of these handlers is parked. -/
def AwaitsPalette (rect : Rect) :
    (y : Request) → (Answer y → DAttrs codecs S → GenStep (Decoding codecs) S Outcome) → Prop
  | .bytes n, resume =>
    (∃ pixelFormat palette,
      Expected.pump (.rectangle rect) n resume = awaitingIndices rect pixelFormat palette) ∨
    ∃ pixelFormat palette streamId length, Expected.pump (.rectangle rect) n resume =
      awaitingPacked rect pixelFormat palette streamId length
  | .packet, _ => False

section

variable {a : DAttrs codecs S}

theorem decompressLoop_error {streamId size : ℕ} {stream : codecs.Stream} {out data : Bytes}
    {e : PyErr} (h : decompressLoop codecs streamId size stream out data = .error e) : Caught e := by
  fun_induction decompressLoop codecs streamId size stream out data
  all_goals first
    | (rename_i ih; exact ih h)
    | (obtain rfl := Except.error.inj h; exact fun _ => rfl)
    | cases h

theorem failsOnly_tightDecompress (streamId : ℕ) (block : Bytes) (size : ℕ) :
    ((tightDecompress streamId block size).run a).FailsOnly Caught := by
  unfold tightDecompress
  refine fails_get_bind ?_
  refine fails_bind (failsOnly_ofExcept fun _ h => decompressLoop_error h) fun result a => ?_
  refine fails_bind (m := Coroutine.modify _) trivial fun _ a => ?_
  split_ifs
  · exact failsOnly_raise fun _ => rfl
  · trivial

theorem failsOnly_compactLength :
    ((compactLength : Gen (Decoding codecs) S ℕ).run a).FailsOnly Caught := by
  unfold compactLength
  refine fails_bind (failsOnly_read _) fun first a => ?_
  dsimp only
  split_ifs
  · trivial
  · refine fails_bind (failsOnly_read _) fun second a => ?_
    split_ifs
    · trivial
    · exact fails_bind (failsOnly_read _) fun _ _ => trivial

theorem failsOnly_tightData (streamId dataSize : ℕ) :
    ((tightData streamId dataSize).run a).FailsOnly Caught := by
  unfold tightData
  split_ifs
  · trivial
  · exact fails_bind (failsOnly_read _) fun _ _ => trivial
  · refine fails_bind failsOnly_compactLength fun length a => ?_
    refine fails_bind (failsOnly_read _) fun block a => ?_
    exact failsOnly_tightDecompress streamId block.bytes dataSize

/-- The indices of a palette are read last, or there are none. -/
theorem fails_tightData_palette (rect : Rect) (pixelFormat : PixelFormat) (palette : List Bytes)
    (streamId : ℕ) :
    ((tightData streamId (rect.height * indexRow palette rect.width) >>=
      finishPalette rect pixelFormat palette).run a).Fails Caught (AwaitsPalette rect) := by
  unfold tightData
  split_ifs with hzero hsmall
  · -- No indices, and no pixels.
    have hnone : unpalette codecs [] palette rect.width rect.height (indexRow palette rect.width) =
        .ok [] := if_pos rfl
    change ((finishPalette rect pixelFormat palette []).run a).Fails _ _
    unfold finishPalette
    rw [hnone]
    trivial
  · exact .inl (.inl ⟨pixelFormat, palette, rfl⟩)
  · have hassoc : ((compactLength >>= fun length => Gen.read length >>= fun block =>
          tightDecompress streamId block.bytes (rect.height * indexRow palette rect.width)) >>=
        finishPalette rect pixelFormat palette).run a =
        (compactLength >>= fun length => Gen.read length >>= fun block =>
          tightDecompress streamId block.bytes (rect.height * indexRow palette rect.width) >>=
            finishPalette rect pixelFormat palette).run a := by
      simp only [run_bind, Step.bind_assoc]
    rw [hassoc]
    refine fails_bind failsOnly_compactLength fun length a => ?_
    exact .inl (.inr ⟨pixelFormat, palette, streamId, length, rfl⟩)

/-- The pixels of a whole rectangle are left to paste. -/
def pasteWhole (pixels : Bytes × PixelFormat) : Gen (Decoding codecs) S Outcome :=
  pure { changed := true, paste := some (pixels.1, pixels.2) }

theorem fails_tightFiltered (filterId streamId : ℕ) (rect : Rect) (pixelFormat : PixelFormat) :
    ((tightFiltered filterId streamId rect.width rect.height pixelFormat >>= pasteWhole).run
      a).Fails Caught (AwaitsPalette rect) := by
  unfold tightFiltered
  dsimp only
  split_ifs
  · exact fails_bind (fails_bind (failsOnly_tightData streamId _) fun _ _ => trivial)
      fun _ _ => trivial
  · rw [run_bind, run_bind, Step.bind_assoc]
    refine Step.FailsOnly.bind (failsOnly_read _) fun size a => ?_
    rw [run_bind, Step.bind_assoc]
    refine Step.FailsOnly.bind (failsOnly_read _) fun raw a => ?_
    rw [run_bind, Step.bind_assoc]
    generalize hpalette : ((List.range (byteAt size.bytes 0 + 1)).map fun i =>
      (raw.bytes.drop (i * pixelFormat.tpixelBytes)).take pixelFormat.tpixelBytes) = palette
    -- A row of a palette of two colours is packed, eight pixels a byte.
    have hrow : (if byteAt size.bytes 0 + 1 = 2 then (rect.width + 7) / 8 else rect.width) =
        indexRow palette rect.width := by
      rw [indexRow, ← hpalette, List.length_map, List.length_range]
    rw [hrow]
    have hfails := fails_tightData_palette (a := a) rect pixelFormat palette streamId
    rw [run_bind] at hfails
    unfold finishPalette at hfails
    simp only [run_bind, Step.bind_assoc] at hfails ⊢
    exact hfails
  · exact fun _ => rfl
  · exact fun _ => rfl

theorem fails_tightDecodeBasic (compCtl : ℕ) (rect : Rect) (pixelFormat : PixelFormat) :
    ((tightDecodeBasic compCtl rect.width rect.height pixelFormat >>= pasteWhole).run a).Fails
      Caught (AwaitsPalette rect) := by
  unfold tightDecodeBasic
  dsimp only
  split_ifs
  · rw [run_bind, run_bind, Step.bind_assoc]
    refine Step.FailsOnly.bind (failsOnly_read _) fun filter a => ?_
    exact fails_tightFiltered _ _ rect pixelFormat
  · exact fails_tightFiltered _ _ rect pixelFormat

theorem decodeJpeg_error {block : Bytes} {width height : ℕ} {e : PyErr}
    (h : decodeJpeg codecs block width height = .error e) : Caught e := by
  unfold decodeJpeg at h
  split at h
  · obtain rfl := Except.error.inj h
    exact fun _ => rfl
  · split_ifs at h
    obtain rfl := Except.error.inj h
    exact fun _ => rfl

theorem fails_tightDecodeRect (rect : Rect) (pixelFormat : PixelFormat) :
    ((tightDecodeRect rect.width rect.height pixelFormat >>= pasteWhole).run a).Fails Caught
      (AwaitsPalette rect) := by
  unfold tightDecodeRect
  rw [run_bind, run_bind, Step.bind_assoc]
  refine Step.FailsOnly.bind (failsOnly_read _) fun control a => ?_
  rw [run_bind, Step.bind_assoc, run_modify, Step.bind_done]
  dsimp only
  split_ifs
  · refine fails_bind (fails_bind (failsOnly_read _) ?_) ?_ <;> exact fun _ _ => trivial
  · exact fun _ => rfl
  · refine fails_bind (fails_get_bind ?_) fun _ _ => trivial
    split_ifs
    · refine fails_bind failsOnly_compactLength fun length a => ?_
      refine fails_bind (failsOnly_read _) fun block a => ?_
      exact fails_bind (failsOnly_ofExcept fun _ h => decodeJpeg_error h) fun _ _ => trivial
    · exact failsOnly_raise fun _ => rfl
  · exact fun _ => rfl
  · exact fun _ => rfl
  · exact fails_tightDecodeBasic _ rect pixelFormat

end

/-! ## The table -/

section

variable {library : Library} {rect : Rect} {a : DAttrs codecs S}

/-- A painting method of the base class returns. -/
theorem failsOnly_invoke {method : RFBClient.Callback} (hpaints : method.paints = true)
    (changed : Bool) :
    ((do
      Gen.lift (invoke (baseCallback library) method)
      pure { changed := changed } : Gen (Decoding codecs) S Outcome).run a).FailsOnly Caught := by
  rw [run_bind, Gen.run_lift, run_invoke_of_paints hpaints]
  trivial

theorem failsOnly_copyRectDecoder (pixelFormat : PixelFormat) :
    (((copyRectDecoder (baseCallback library)).decode rect pixelFormat).run a).FailsOnly Caught := by
  change ((copyRectDecodeForClient rect pixelFormat >>= _).run a).FailsOnly Caught
  unfold copyRectDecodeForClient
  rw [run_bind, run_bind, Step.bind_assoc]
  refine Step.FailsOnly.bind (failsOnly_read _) fun block a => ?_
  rw [run_bind, run_get, Step.bind_done]
  split_ifs
  · exact fun _ => rfl
  · exact failsOnly_invoke rfl true

theorem failsOnly_cursorDecoder (pixelFormat : PixelFormat) :
    (((cursorDecoder (baseCallback library)).decode rect pixelFormat).run a).FailsOnly Caught := by
  change ((cursorDecodeForClient rect pixelFormat >>= _).run a).FailsOnly Caught
  unfold cursorDecodeForClient
  rw [run_bind, run_bind, Step.bind_assoc]
  refine Step.FailsOnly.bind (failsOnly_read _) fun block a => ?_
  exact failsOnly_invoke rfl true

/-- Every decoder of the table, on the client's pixel format. -/
theorem fails_forConnection {encoding : ℤ} {decoder : Decoder (baseCallback library)}
    (h : @forConnection codecs S (baseCallback library) encoding = some decoder)
    (rect : Rect) (a : DAttrs codecs S) :
    ((decoder.decode rect a.pixelFormat).run a).Fails Caught (AwaitsPalette rect) := by
  obtain ⟨k, hmem⟩ := mem_of_lookup h
  simp only [decoders, List.mem_cons, Prod.mk.injEq, List.not_mem_nil, or_false] at hmem
  -- Tight is the one that `AwaitsPalette` is for: each other only fails in ways `_pump` catches.
  rcases hmem with ⟨-, rfl⟩ | ⟨-, rfl⟩ | ⟨-, rfl⟩ | ⟨-, rfl⟩ | ⟨-, rfl⟩ | ⟨-, rfl⟩ | ⟨-, rfl⟩ |
    ⟨-, rfl⟩ | ⟨-, rfl⟩ | ⟨-, rfl⟩ | ⟨-, rfl⟩
  · exact (failsOnly_rawDecode rect a.pixelFormat).fails
  · exact (failsOnly_copyRectDecoder a.pixelFormat).fails
  · exact (failsOnly_pixelDecode fun _ _ _ _ => failsOnly_rreDecodePixels rreCoords _ _).fails
  · exact (failsOnly_pixelDecode fun _ _ _ _ => failsOnly_rreDecodePixels corReCoords _ _).fails
  · exact (failsOnly_pixelDecode fun _ _ _ _ => failsOnly_hextileDecodePixels _ _).fails
  · exact (failsOnly_pixelDecode fun _ _ _ hcreate => failsOnly_zrleDecodePixels hcreate).fails
  · change ((wholeRectDecode tightDecodeRect rect a.pixelFormat).run a).Fails _ _
    unfold wholeRectDecode
    refine fails_bind (failsOnly_requireFits rect.width rect.height) fun _ a' => ?_
    exact fails_tightDecodeRect rect a.pixelFormat
  · exact (failsOnly_cursorDecoder a.pixelFormat).fails
  · exact (failsOnly_invoke rfl false).fails
  · exact (failsOnly_invoke rfl false).fails
  · trivial

end

end Decoders

end VncDoTool
