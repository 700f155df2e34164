import VncDoTool.Decoders.HextilePainting
import VncDoTool.Decoders.RREPainting
import VncDoTool.Decoders.Table

/-!
# Rectangles, as a server sends them

What a server may send behind the head of a rectangle, in the encodings whose decoders keep nothing from
one rectangle to the next.

* `Display`: what a rectangle is read against; `RectangleBody`: what the rectangle carries.
* `RectangleBody.WellFormed`: the decoder will not refuse it.
* `RectangleBody.callback`, `RectangleBody.changed`: what it has the client do, and whether it counts as
  a screen change.
* `RectangleBody.decodes`: the decoder of its encoding takes exactly its bytes and does that.
-/

namespace VncDoTool

open Raster (Picture render Sized)

/-- The framebuffer, as its client knows it. -/
structure Display : Type where
  width : ℕ
  height : ℕ
  pixelFormat : PixelFormat

/-- What follows the head of a rectangle. -/
inductive RectangleBody : Type where
  | raw (pixels : Bytes)
  | copy (srcx srcy : ℕ)
  | rre (d : RREDescription)
  | corre (d : RREDescription)
  | hextile (descriptions : List TileDescription)
  | cursor (image mask : Bytes)
  | desktopSize
  | pointerPos
  | extendedKey

namespace RectangleBody

/-- The rectangle passes `requireFits`. -/
def Fits (display : Display) (rect : Rect) : Prop :=
  rect.width ≤ Decoders.sizeLimit display.width ∧ rect.height ≤ Decoders.sizeLimit display.height

/-- The encoding that the head names. -/
def encoding : RectangleBody → ℤ
  | raw _ => Encoding.raw
  | copy _ _ => Encoding.copyRectangle
  | rre _ => Encoding.rre
  | corre _ => Encoding.corre
  | hextile _ => Encoding.hextile
  | cursor _ _ => Encoding.pseudoCursor
  | desktopSize => Encoding.pseudoDesktopSize
  | pointerPos => Encoding.pseudoPointerPos
  | extendedKey => Encoding.pseudoQemuExtendedKeyEvent

/-- The encoding fits its field, and does not end an update. -/
theorem encoding_spec (body : RectangleBody) :
    body.encoding ≠ Encoding.pseudoLastRect ∧ -2 ^ 31 ≤ body.encoding ∧ body.encoding < 2 ^ 31 := by
  cases body <;> (dsimp only [encoding]; decide)

/-- The bytes behind the head. -/
def serialise : RectangleBody → Bytes
  | raw pixels => pixels
  | copy srcx srcy => be16 srcx ++ be16 srcy
  | rre d => d.serialise rreForm
  | corre d => d.serialise corReForm
  | hextile descriptions => descriptions.flatMap TileDescription.serialise
  | cursor image mask => image ++ mask
  | desktopSize | pointerPos | extendedKey => []

/-- The body is one of a rectangle: it is as long as the rectangle wants, it can be written, and what it
paints or copies lies inside. -/
def WellFormed (display : Display) (rect : Rect) : RectangleBody → Prop
  | raw pixels =>
    Fits display rect ∧ pixels.length = rect.width * rect.height * display.pixelFormat.bypp
  | copy srcx srcy =>
    (srcx < 65536 ∧ srcy < 65536) ∧ srcx + rect.width ≤ display.width ∧
      srcy + rect.height ≤ display.height
  | rre d =>
    Fits display rect ∧ d.Encodable rreForm display.pixelFormat.bypp ∧ d.Fits rect.width rect.height
  | corre d =>
    Fits display rect ∧ d.Encodable corReForm display.pixelFormat.bypp ∧ d.Fits rect.width rect.height
  | hextile descriptions =>
    Fits display rect ∧ 1 ≤ display.pixelFormat.bypp ∧
      List.Forall₂ (fun tile t => TileDescription.Encodable display.pixelFormat.bypp tile t)
        (Decoders.tiles Decoders.hextileTileSize rect.width rect.height) descriptions ∧
      ∃ p, Decoders.hextilePaint display.pixelFormat.bypp rect.width rect.height descriptions = some p
  | cursor image mask =>
    image.length = rect.width * rect.height * display.pixelFormat.bypp ∧
      mask.length = (rect.width + 7) / 8 * rect.height
  | desktopSize | pointerPos | extendedKey => True

/-- The method of the client that the rectangle has called. -/
def callback (display : Display) (rect : Rect) : RectangleBody → Option RFBClient.Callback
  | raw pixels => some (.updateRectangle rect pixels display.pixelFormat)
  | copy srcx srcy => some (.copyRectangle srcx srcy rect)
  | rre d | corre d =>
    some (.updateRectangle rect (render rect.width rect.height d.paint) display.pixelFormat)
  | hextile descriptions =>
    (Decoders.hextilePaint display.pixelFormat.bypp rect.width rect.height descriptions).map
      fun p => .updateRectangle rect (render rect.width rect.height p) display.pixelFormat
  | cursor image mask => some (.updateCursor rect image mask)
  | desktopSize => some (.updateDesktopSize rect.width rect.height)
  | pointerPos => some (.updatePointerPos rect.x rect.y)
  | extendedKey => none

/-- Whether the rectangle counts as a screen change. -/
def changed : RectangleBody → Bool
  | desktopSize | pointerPos | extendedKey => false
  | _ => true

end RectangleBody

namespace Decoders

open RFBClient Coroutine

variable {codecs : Codecs} {S : Type} {a a' : DAttrs codecs S} {rect : Rect} {input : Bytes}

/-- What a client knows of its framebuffer. -/
def display (a : DAttrs codecs S) : Display := ⟨a.width, a.height, a.pixelFormat⟩

/-! ## Sizes -/

/-- What an RRE rectangle paints has the bytes of its pixels. -/
theorem sized_paint {form : SubrectForm} {bypp : ℕ} {d : RREDescription} (h : d.Encodable form bypp)
    (width height : ℕ) : Sized bypp width height d.paint := by
  have hlaid : ∀ (entries : List (Bytes × Rect)), (∀ entry ∈ entries, entry.1.length = bypp) →
      ∀ p : Picture UInt8, Sized bypp width height p →
        Sized bypp width height (entries.foldl RREDescription.paintEntry p) := by
    intro entries hentries
    induction entries with
    | nil => exact fun _ hp => hp
    | cons entry entries ih =>
      intro p hp
      apply ih fun entry' hentry' => hentries entry' (List.mem_cons_of_mem _ hentry')
      exact hp.overlay fun _ _ _ _ => hentries entry List.mem_cons_self
  exact hlaid d.subrects h.colours _ fun _ _ _ _ => h.background

/-- What the tiles of a rectangle paint has the bytes of its pixels. -/
theorem sized_hextilePaint {bypp width height : ℕ} (hbypp : 1 ≤ bypp)
    {descriptions : List TileDescription}
    (hdescriptions : List.Forall₂ (fun tile t => TileDescription.Encodable bypp tile t)
      (tiles hextileTileSize width height) descriptions)
    {p : Picture UInt8} (hpaint : hextilePaint bypp width height descriptions = some p) :
    Sized bypp width height p := by
  obtain ⟨⟨q, carried⟩, hfold, hresult⟩ := Option.bind_eq_some_iff.mp hpaint
  obtain rfl := Option.some.inj hresult
  -- any buffer of this size will do, and shows the picture in the end
  obtain ⟨-, hblank⟩ := @RectBuffer.shows_create width height bypp
    (List.replicate (width * height * bypp) 0) List.length_replicate.ge
  have htracks : Tracks _ ⟨_, [], []⟩ (RectBuffer.blank bypp) {} :=
    ⟨hblank, RectBuffer.Writes.refl _, ⟨rfl, by simp⟩, ⟨rfl, by simp⟩⟩
  have hwithin : ∀ tile ∈ tiles hextileTileSize width height, Within tile
      { width, height, bypp, backing := List.replicate (width * height * bypp) 0 } := by
    intro tile htile
    obtain ⟨hright, hbottom⟩ := within_of_mem_tiles (by decide) htile
    exact ⟨hright, hbottom⟩
  obtain ⟨st, -, htracks', -⟩ := (decodes_hextileTiles hbypp hwithin hdescriptions htracks
    ({ factory := {}, decoding := {}, own := () } : DAttrs sampleCodecs Unit)).1 q carried hfold
  have hsized := htracks'.shows.sized
  rw [htracks'.writes.width, htracks'.writes.height, htracks'.writes.bypp] at hsized
  exact hsized

/-! ## The kinds of decoders -/

/-- A rectangle that fits may be decoded. -/
theorem decodes_requireFits (hfits : RectangleBody.Fits (display a) rect) :
    Decodes (requireFits rect.width rect.height) a [] () a := by
  have hlimits : rect.width ≤ sizeLimit a.width ∧ rect.height ≤ sizeLimit a.height := hfits
  unfold requireFits
  refine (Consumes.get a).bind_nil ?_
  dsimp only
  rw [if_neg (not_not_intro hlimits)]
  exact Consumes.pure () a

/-- The buffer of a rectangle that fits. -/
theorem decodes_rectBuffer (hfits : RectangleBody.Fits (display a) rect) :
    ∃ backing target, RectBuffer.create rect.width rect.height a.pixelFormat.bypp backing = .ok target ∧
      Decodes (rectBuffer rect.width rect.height) a [] target
        { a with decoding := growBacking (rect.width * rect.height * a.pixelFormat.bypp) a.decoding } := by
  have hroom : rect.width * rect.height * a.pixelFormat.bypp ≤
      (growBacking (rect.width * rect.height * a.pixelFormat.bypp) a.decoding).rectBacking.length := by
    unfold growBacking
    split_ifs with hsmall
    · exact List.length_replicate.ge
    · exact Nat.not_lt.mp hsmall
  obtain ⟨hcreate, -⟩ := RectBuffer.shows_create hroom
  refine ⟨_, _, hcreate, ?_⟩
  unfold rectBuffer
  refine (decodes_requireFits hfits).bind_nil ?_
  refine (Consumes.get a).bind_nil ?_
  dsimp only
  refine (Consumes.modify _ a).bind_nil ?_
  refine (Consumes.get _).bind_nil ?_
  exact decodes_ofExcept hcreate _

/-- A decoder that fills a buffer. -/
theorem decodes_pixelDecode
    {decodePixels : RectBuffer → PixelFormat → Gen (Decoding codecs) S RectBuffer} {pixels : Bytes}
    (hfits : RectangleBody.Fits (display a) rect)
    (hpixels : ∀ backing target a',
      RectBuffer.create rect.width rect.height a.pixelFormat.bypp backing = .ok target →
      ∃ target', Decodes (decodePixels target a.pixelFormat) a' input target' a' ∧
        target'.tobytes = pixels) :
    ∃ decoding, Decodes (pixelDecode decodePixels rect a.pixelFormat) a input
      { changed := true, paste := some (pixels, a.pixelFormat) } { a with decoding := decoding } := by
  obtain ⟨backing, target, hcreate, hbuffer⟩ := decodes_rectBuffer hfits
  obtain ⟨target', hdecodes, rfl⟩ := hpixels backing target _ hcreate
  refine ⟨{ growBacking (rect.width * rect.height * a.pixelFormat.bypp) a.decoding with
    rectBacking := target'.backing }, hbuffer.bind_nil (hdecodes.bind_pure ?_)⟩
  exact (Consumes.modify _ _).bind_nil (Consumes.pure _ _)

/-- A decoder that has the client do something. -/
theorem decodes_invoke {library : Library} {method : RFBClient.Callback}
    (hmethod : method ≠ .vncRequestPassword) (changed : Bool) (a : DAttrs codecs S) :
    Decodes (do
      Gen.lift (invoke (baseCallback library) method)
      pure { changed := changed } : Gen (Decoding codecs) S Outcome) a [] { changed := changed }
      { a with log := a.log ++ [.called method] } := by
  intro rest
  have hcall : (invoke (baseCallback library) method).run a =
      .ok () { a with log := a.log ++ [.called method] } := by
    cases method with
    | vncRequestPassword => exact absurd rfl hmethod
    | _ => rfl
  rw [run_bind, Gen.run_lift, hcall]
  rfl

/-! ## Bodies -/

/-- The pixels to paste are as many as the rectangle has. -/
def Sizes (rect : Rect) (outcome : Outcome) : Prop :=
  ∀ pixels pixelFormat, outcome.paste = some (pixels, pixelFormat) →
    pixels.length = rect.width * rect.height * pixelFormat.bypp

/-- What a decoder leaves: the call that is due has been made, or is left to the pump as a paste. -/
structure Leaves (a : DAttrs codecs S) (rect : Rect) (body : RectangleBody) (outcome : Outcome)
    (a' : DAttrs codecs S) : Prop where
  changed : outcome.changed = body.changed
  sizes : Sizes rect outcome
  log : a'.log ++ (outcome.paste.map fun paste =>
      Event.called (.updateRectangle rect paste.1 paste.2)).toList =
    a.log ++ ((body.callback (display a) rect).map Event.called).toList
  keeps : ∃ decoding encodings log, a' = { a with
    decoding := decoding
    negotiatedEncodings := encodings
    log := log }

/-- A buffer that is filled is left to paste. -/
theorem leaves_pixels (decoding : Decoding codecs) {body : RectangleBody} {pixels : Bytes}
    (hcallback : body.callback (display a) rect = some (.updateRectangle rect pixels a.pixelFormat))
    (hchanged : body.changed = true)
    (hlength : pixels.length = rect.width * rect.height * a.pixelFormat.bypp) :
    Leaves a rect body { changed := true, paste := some (pixels, a.pixelFormat) }
      { a with decoding := decoding } where
  changed := hchanged.symm
  sizes := by
    rintro _ _ ⟨rfl, rfl⟩
    exact hlength
  log := by rw [hcallback]; rfl
  keeps := ⟨decoding, a.negotiatedEncodings, a.log, rfl⟩

/-- A method that was called leaves nothing to paste. -/
theorem leaves_call {body : RectangleBody} {method : RFBClient.Callback}
    (hcallback : body.callback (display a) rect = some method) :
    Leaves a rect body { changed := body.changed } { a with log := a.log ++ [.called method] } where
  changed := rfl
  sizes _ _ hpaste := absurd hpaste (by simp)
  log := by rw [hcallback]; simp
  keeps := ⟨a.decoding, a.negotiatedEncodings, _, rfl⟩

/-- The decoder of a well-formed body takes exactly its bytes, and does what it says. -/
theorem decodes_body (library : Library) {body : RectangleBody} {pixelFormat : PixelFormat}
    (hformat : pixelFormat = a.pixelFormat) (h : body.WellFormed (display a) rect) :
    ∃ decoder outcome a', @forConnection codecs S (baseCallback library) body.encoding = some decoder ∧
      Decodes (decoder.decode rect pixelFormat) a body.serialise outcome a' ∧
      Leaves a rect body outcome a' := by
  subst hformat
  cases body with
  | raw pixels =>
    obtain ⟨hfits, hlength⟩ := h
    refine ⟨_, _, _, rfl, ?_, leaves_pixels a.decoding rfl rfl hlength⟩
    show Decodes (rawDecode rect a.pixelFormat) a pixels _ _
    refine (decodes_requireFits hfits).bind_nil ?_
    exact (decodes_read hlength a).bind_pure (Consumes.pure _ a)
  | copy srcx srcy =>
    obtain ⟨⟨hx, hy⟩, hwidth, hheight⟩ := h
    -- The four bytes of the source, and the check that it lies within the framebuffer.
    have hinside : srcx + rect.width ≤ a.width ∧ srcy + rect.height ≤ a.height := ⟨hwidth, hheight⟩
    have hreadx : u16At (be16 srcx ++ be16 srcy) 0 = srcx := u16At_be16 hx _
    have hready : u16At (be16 srcx ++ be16 srcy) 2 = srcy := by
      have hread := u16At_be16 hy []
      rwa [List.append_nil] at hread
    refine ⟨_, _, _, rfl, ?_, leaves_call rfl⟩
    refine Consumes.bind_pure (a := RFBClient.Callback.copyRectangle srcx srcy rect) ?_
      (decodes_invoke (by simp) true a)
    have hfour : (be16 srcx ++ be16 srcy).length = 4 := rfl
    refine (decodes_read hfour a).bind_pure ?_
    rw [Block.bytes_of, hreadx, hready]
    refine (Consumes.get a).bind_nil ?_
    rw [if_neg (by omega)]
    exact Consumes.pure _ a
  | rre d =>
    obtain ⟨hfits, hd, hinside⟩ := h
    obtain ⟨decoding, hdecodes⟩ := decodes_pixelDecode hfits fun backing target a' hcreate =>
      (rre_decodes rreForm hcreate hd a.pixelFormat a').1 hinside
    exact ⟨_, _, _, rfl, hdecodes, leaves_pixels _ rfl rfl (Raster.length_render (sized_paint hd _ _))⟩
  | corre d =>
    obtain ⟨hfits, hd, hinside⟩ := h
    obtain ⟨decoding, hdecodes⟩ := decodes_pixelDecode hfits fun backing target a' hcreate =>
      (rre_decodes corReForm hcreate hd a.pixelFormat a').1 hinside
    exact ⟨_, _, _, rfl, hdecodes, leaves_pixels _ rfl rfl (Raster.length_render (sized_paint hd _ _))⟩
  | hextile descriptions =>
    obtain ⟨hfits, hbypp, hdescriptions, p, hpaint⟩ := h
    obtain ⟨decoding, hdecodes⟩ := decodes_pixelDecode hfits fun backing target a' hcreate =>
      (hextile_decodes hcreate hbypp hdescriptions a.pixelFormat a').1 p hpaint
    refine ⟨_, _, _, rfl, hdecodes, leaves_pixels _ ?_ rfl
      (Raster.length_render (sized_hextilePaint hbypp hdescriptions hpaint))⟩
    exact congrArg (Option.map _) hpaint
  -- Image and mask come in one block, cut where the pixels end.
  | cursor image mask =>
    obtain ⟨himage, hmask⟩ := h
    have hpixels : image.length = rect.width * rect.height * a.pixelFormat.bypp := himage
    have hblock : (image ++ mask).length =
        rect.width * rect.height * a.pixelFormat.bypp + (rect.width + 7) / 8 * rect.height := by
      rw [List.length_append, hpixels, hmask]
    refine ⟨_, _, _, rfl, ?_, leaves_call rfl⟩
    refine Consumes.bind_pure (a := RFBClient.Callback.updateCursor rect image mask) ?_
      (decodes_invoke (by simp) true a)
    refine (decodes_read hblock a).bind_pure ?_
    rw [Block.bytes_of, List.take_left' hpixels, List.drop_left' hpixels]
    exact Consumes.pure _ a
  | desktopSize => exact ⟨_, _, _, rfl, decodes_invoke (by simp) false a, leaves_call rfl⟩
  | pointerPos => exact ⟨_, _, _, rfl, decodes_invoke (by simp) false a, leaves_call rfl⟩
  | extendedKey =>
    refine ⟨_, _, _, rfl, (Consumes.modify _ a).bind_nil (Consumes.pure _ _), rfl, ?_, ?_, ?_⟩
    · exact fun _ _ hpaste => absurd hpaste (by simp)
    · rfl
    · exact ⟨_, _, _, rfl⟩

end Decoders

end VncDoTool
