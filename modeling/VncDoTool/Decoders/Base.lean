import VncDoTool.PixelLayout
import VncDoTool.Client.Security
import VncDoTool.Decoders.Buffer

/-!
# Decoders

What the decoders of `decoders/` share: the state they keep for a connection, what they may ask of the
client, and the four kinds of decoder of `decoders/base.py`.

* `Codecs`: the library code decoders call; `Decoding`: what the decoders of a connection keep.
* `Decoders.contract`: a decoder leaves the client alone but for that, and only reads.
* `Decoders.requireFits`, `Decoders.rectBuffer`: what a decoder may ask of the client.
* `Decoders.pixelDecoder`, `Decoders.wholeRectDecoder`, `Decoders.clientDecoder`,
  `Decoders.controlDecoder`: a decoder of each kind, from the method that is its own.
-/

namespace VncDoTool

/-- zlib, and what Pillow does with images. -/
structure Codecs : Type 1 where
  /-- A decompressor object. -/
  Stream : Type
  /-- `zlib.decompressobj()`. -/
  decompressobj : Stream
  /-- `decompress(data, max_length)`, unlimited where `max_length` is 0: the output, the input that is
  left, and the stream; or the text of the `zlib.error` it raises. -/
  decompress : Stream → (data : Bytes) → (maxLength : ℕ) → Except String (Bytes × Bytes × Stream)
  /-- The output keeps to the limit, and input is left only where it reaches it. -/
  limit : ∀ {stream data maxLength output tail stream'}, maxLength ≠ 0 →
    decompress stream data maxLength = .ok (output, tail, stream') →
      output.length ≤ maxLength ∧ (tail ≠ [] → output.length = maxLength)
  /-- `Image.open(io.BytesIO(block)).convert("RGB")`: the size and the pixels of the image, or the
  text of what it raises. -/
  jpeg : Bytes → Except String (ℕ × ℕ × Bytes)
  /-- `Image.merge(mode, bands).tobytes()`, of bands that `Image.frombytes("L", size, data)` made of
  these bytes. -/
  merge : (width height : ℕ) → (bands : List Bytes) → Bytes
  /-- A pixel of the image is a byte of each band, and its pixels are row by row as those of the
  bands. -/
  interleaves : ∀ width height bands, (∀ band ∈ bands, band.length = width * height) →
    bands.length ∈ [2, 3, 4] → merge width height bands =
      (List.range (width * height)).flatMap fun i => bands.map fun band => band.getD i 0

/-- What the decoders of a connection keep, and the memory the client lends them. -/
structure Decoding (codecs : Codecs) : Type where
  /-- `_rect_backing`. -/
  rectBacking : Bytes := []
  /-- ZRLE's `_zlib_stream`. -/
  zlibStream : codecs.Stream := codecs.decompressobj
  /-- Tight's `_streams`. -/
  streams : List (Option codecs.Stream) := [none, none, none, none]
  /-- Tight's `_jpeg_offered`. -/
  jpegOffered : Bool := false

namespace Decoders

open RFBClient Coroutine

variable {codecs : Codecs} {S : Type}

/-- The attributes of a client with these decoders. -/
abbrev DAttrs (codecs : Codecs) (S : Type) : Type := Attrs (Decoding codecs) S

/-- Library code for runs that unpack nothing. -/
def sampleCodecs : Codecs where
  Stream := Unit
  decompressobj := ()
  decompress _ data maxLength :=
    if maxLength = 0 then .ok (data, [], ()) else .ok (data.take maxLength, data.drop maxLength, ())
  limit hmax h := by
    rw [if_neg hmax] at h
    cases h
    refine ⟨List.length_take_le _ _, fun htail => ?_⟩
    rw [ne_eq, List.drop_eq_nil_iff, not_le] at htail
    exact List.length_take_of_le htail.le
  jpeg _ := .error "cannot identify image file"
  merge width height bands :=
    (List.range (width * height)).flatMap fun i => bands.map fun band => band.getD i 0
  interleaves _ _ _ _ _ := rfl

/-- The contract of a decoder up to the callback it may make. -/
def contract : Contract Request PyErr (DAttrs codecs S) where
  meanwhile _ _ := True
  does := Quiet
  asks y := ∃ n : ℕ, y = .bytes n
  raises _ := True
  refl := Quiet.refl
  trans := Quiet.trans

/-- Nothing more is promised. -/
abbrev anything {α : Type} : DAttrs codecs S → α → Prop := fun _ _ => True

section

variable {α : Type} {a : DAttrs codecs S} {Q : DAttrs codecs S → α → Prop}

theorem honours_read (n : ℕ) {Q : DAttrs codecs S → Block n → Prop} (hQ : ∀ block t, Q t block) :
    ((Gen.read n).run a).Honours contract Q a :=
  Coroutine.honours_yield ⟨n, rfl⟩ fun block t _ => hQ block t

theorem honours_raise {cls : ErrorClass} {message : String} :
    ((Gen.raise cls message : Gen (Decoding codecs) S α).run a).Honours contract Q a :=
  Coroutine.honours_throw trivial

/-- A call that may raise. -/
theorem honours_ofExcept {v : Except PyErr α} (hQ : ∀ x, v = .ok x → Q a x) :
    ((Gen.lift (RFBClient.ofExcept v)).run a).Honours contract Q a := by
  cases v with
  | ok x => exact ⟨Quiet.refl a, hQ x rfl⟩
  | error e => exact ⟨Quiet.refl a, trivial⟩

/-- A change of what the decoders keep. -/
theorem honours_decoding (f : Decoding codecs → Decoding codecs) {Q : DAttrs codecs S → Unit → Prop}
    (hQ : Q { a with decoding := f a.decoding } ()) :
    ((Coroutine.modify fun a : DAttrs codecs S => { a with decoding := f a.decoding } :
      Gen (Decoding codecs) S Unit).run a).Honours contract Q a :=
  Coroutine.honours_modify ⟨f a.decoding, a.negotiatedEncodings, rfl⟩ hQ

end

/-! ## What a decoder may ask of the client -/

/-- `MAX_DESKTOP_SIZE`. -/
def maxDesktopSize : ℕ := 0x10000

/-- `size or MAX_DESKTOP_SIZE`. -/
def sizeLimit (size : ℕ) : ℕ := if size = 0 then maxDesktopSize else size

/-- `requireFits`: raise unless a rectangle fits the framebuffer. -/
def requireFits (width height : ℕ) : Gen (Decoding codecs) S Unit := do
  let a ← Coroutine.get
  let limitW := sizeLimit a.width
  let limitH := sizeLimit a.height
  if ¬(width ≤ limitW ∧ height ≤ limitH) then
    Gen.raise .decodeError s!"{width}x{height} does not fit a {limitW}x{limitH} framebuffer"
  else pure ()

/-- `_rect_backing`, if it is too small replaced by a larger one. -/
def growBacking (needed : ℕ) (d : Decoding codecs) : Decoding codecs :=
  if d.rectBacking.length < needed then { d with rectBacking := List.replicate needed 0 } else d

/-- `rectBuffer`: a buffer for one rectangle, in memory that is reused across rectangles. -/
def rectBuffer (width height : ℕ) : Gen (Decoding codecs) S RectBuffer := do
  requireFits width height
  let a ← Coroutine.get
  let needed := width * height * a.pixelFormat.bypp
  Coroutine.modify fun a => { a with decoding := growBacking needed a.decoding }
  let a ← Coroutine.get
  Gen.lift (RFBClient.ofExcept (RectBuffer.create width height a.pixelFormat.bypp a.decoding.rectBacking))

theorem honours_requireFits (width height : ℕ) (a : DAttrs codecs S) :
    ((requireFits width height : Gen (Decoding codecs) S Unit).run a).Honours contract anything a := by
  unfold requireFits
  refine honours_get_bind ?_
  dsimp only
  split_ifs
  · exact honours_pure trivial
  · exact honours_raise

/-- The buffer is valid, and as large as the rectangle. -/
theorem honours_rectBuffer (width height : ℕ) (a : DAttrs codecs S) :
    ((rectBuffer width height : Gen (Decoding codecs) S RectBuffer).run a).Honours contract
      (fun _ b => b.Valid ∧ b.width = width ∧ b.height = height) a := by
  unfold rectBuffer
  refine honours_bind (honours_requireFits width height a) fun _ a _ => ?_
  refine honours_get_bind ?_
  refine honours_bind (Q := anything) (honours_decoding _ trivial) fun _ a _ => ?_
  refine honours_get_bind ?_
  refine honours_ofExcept ?_
  intro b hcreate
  refine ⟨RectBuffer.valid_create hcreate, ?_⟩
  unfold RectBuffer.create at hcreate
  dsimp only at hcreate
  split_ifs at hcreate
  obtain rfl := Except.ok.inj hcreate
  exact ⟨rfl, rfl⟩

/-- `range(0, limit, step)`. -/
def steps (step limit : ℕ) : List ℕ := (List.range ((limit + step - 1) / step)).map (step * ·)

/-- The tiles of a rectangle, row by row; those at its right and bottom edges are cut off. -/
def tiles (tile width height : ℕ) : List Rect :=
  (steps tile height).flatMap fun ty => (steps tile width).map fun tx =>
    ⟨tx, ty, min tile (width - tx), min tile (height - ty)⟩

/-! ## Kinds of decoders -/

variable (callback : RFBClient.Callback → Py (DAttrs codecs S) Unit)

/-- A decoder that keeps the contract paints nothing. -/
theorem paintsLast_of_honours {a : DAttrs codecs S} {x : GenStep (Decoding codecs) S Outcome}
    (h : x.Honours contract anything a) : PaintsLast callback a x := by
  induction x generalizing a with
  | done a' outcome => exact .inl h.1
  | failed a' e => exact .inl h.1
  | yielded a' y resume ih => exact ⟨h.1, fun answer t => ih answer t (h.2.2 answer t trivial)⟩

/-- What comes before the last part paints nothing. -/
theorem paintsLast_bind {α : Type} {m : Gen (Decoding codecs) S α}
    {f : α → Gen (Decoding codecs) S Outcome} {a : DAttrs codecs S}
    {Q : DAttrs codecs S → α → Prop} (hm : (m.run a).Honours contract Q a)
    (hf : ∀ v t, Q t v → PaintsLast callback t ((f v).run t)) :
    PaintsLast callback a ((m >>= f).run a) := by
  rw [run_bind]
  revert hm
  generalize hx : m.run a = x
  clear hx
  intro hm
  induction x generalizing a with
  | done t v => exact (hf v t hm.2).from_earlier hm.1
  | failed t e => exact .inl hm.1
  | yielded t y resume ih => exact ⟨hm.1, fun answer s => ih answer s (hm.2.2 answer s trivial)⟩

/-- A painting call is the last thing a decoder does. -/
theorem paintsLast_invoke {method : RFBClient.Callback} (hpaints : method.paints = true) (changed : Bool)
    (a : DAttrs codecs S) :
    PaintsLast callback a ((do
      Gen.lift (invoke callback method)
      pure { changed := changed } : Gen (Decoding codecs) S Outcome).run a) := by
  rw [run_bind, Gen.run_lift]
  cases hrun : (invoke callback method).run a with
  | ok u a' => exact .inr ⟨rfl, a, method, Quiet.refl a, hpaints, hrun⟩
  | error e a' => exact .inr ⟨a, method, Quiet.refl a, hpaints, hrun⟩

/-- `PixelDecoder.decode`: fill a buffer, and leave its pixels to paste. The buffer's memory is the
client's, so that what was written to it is what the next buffer arrives holding. -/
def pixelDecode (decodePixels : RectBuffer → PixelFormat → Gen (Decoding codecs) S RectBuffer)
    (rect : Rect) (pixelFormat : PixelFormat) : Gen (Decoding codecs) S Outcome := do
  let target ← rectBuffer rect.width rect.height
  let target ← decodePixels target pixelFormat
  Coroutine.modify fun a => { a with
    decoding := { a.decoding with rectBacking := target.backing } }
  pure { changed := true, paste := some (target.tobytes, pixelFormat) }

theorem honours_pixelDecode
    {decodePixels : RectBuffer → PixelFormat → Gen (Decoding codecs) S RectBuffer}
    (h : ∀ target pixelFormat a,
      ((decodePixels target pixelFormat).run a).Honours contract anything a)
    (rect : Rect) (pixelFormat : PixelFormat) (a : DAttrs codecs S) :
    ((pixelDecode decodePixels rect pixelFormat).run a).Honours contract anything a := by
  unfold pixelDecode
  refine honours_bind (honours_rectBuffer rect.width rect.height a) fun target a _ => ?_
  refine honours_bind (h target pixelFormat a) fun target a _ => ?_
  refine honours_bind (Q := anything)
    (honours_decoding (fun d => { d with rectBacking := target.backing }) trivial) fun _ a _ => ?_
  exact honours_pure trivial

/-- `WholeRectDecoder.decode`: produce the whole rectangle. -/
def wholeRectDecode
    (decodeRect : ℕ → ℕ → PixelFormat → Gen (Decoding codecs) S (Bytes × PixelFormat)) (rect : Rect)
    (pixelFormat : PixelFormat) : Gen (Decoding codecs) S Outcome := do
  requireFits rect.width rect.height
  let (pixels, outputFormat) ← decodeRect rect.width rect.height pixelFormat
  pure { changed := true, paste := some (pixels, outputFormat) }

theorem honours_wholeRectDecode
    {decodeRect : ℕ → ℕ → PixelFormat → Gen (Decoding codecs) S (Bytes × PixelFormat)}
    (h : ∀ width height pixelFormat a,
      ((decodeRect width height pixelFormat).run a).Honours contract anything a)
    (rect : Rect) (pixelFormat : PixelFormat) (a : DAttrs codecs S) :
    ((wholeRectDecode decodeRect rect pixelFormat).run a).Honours contract anything a := by
  unfold wholeRectDecode
  refine honours_bind (honours_requireFits rect.width rect.height a) fun _ a _ => ?_
  refine honours_bind (h rect.width rect.height pixelFormat a) fun outcome a _ => ?_
  exact honours_pure trivial

/-- A decoder that paints nothing itself. -/
def ofHonours (decode : Rect → PixelFormat → Gen (Decoding codecs) S Outcome)
    (h : ∀ rect pixelFormat a, ((decode rect pixelFormat).run a).Honours contract anything a) :
    Decoder callback where
  decode := decode
  paintsLast rect pixelFormat a := paintsLast_of_honours callback (h rect pixelFormat a)

/-- It only reads. -/
theorem reads_ofHonours {decode : Rect → PixelFormat → Gen (Decoding codecs) S Outcome}
    (h : ∀ rect pixelFormat a, ((decode rect pixelFormat).run a).Honours contract anything a)
    (rect : Rect) (pixelFormat : PixelFormat) (a : DAttrs codecs S) :
    Reads (((ofHonours callback decode h).decode rect pixelFormat).run a) :=
  (h rect pixelFormat a).asks fun _ _ => trivial

/-- `ClientDecoder.decode`: read, then change the framebuffer through a client method, which is the last
thing that `decodeForClient` does. -/
def clientDecoder (decodeForClient : Rect → PixelFormat → Gen (Decoding codecs) S RFBClient.Callback)
    (h : ∀ rect pixelFormat a, ((decodeForClient rect pixelFormat).run a).Honours contract
      (fun _ method => method.paints = true) a) : Decoder callback where
  decode rect pixelFormat := do
    let method ← decodeForClient rect pixelFormat
    Gen.lift (invoke callback method)
    pure { changed := true }
  paintsLast rect pixelFormat a :=
    paintsLast_bind callback (h rect pixelFormat a) fun _ t hpaints =>
      paintsLast_invoke callback hpaints true t

theorem reads_lift {α : Type} (m : Py (DAttrs codecs S) α) (a : DAttrs codecs S) :
    Reads ((Gen.lift m).run a) := by
  rw [Gen.run_lift]
  cases m.run a <;> trivial

theorem reads_clientDecoder {decodeForClient : Rect → PixelFormat → Gen (Decoding codecs) S RFBClient.Callback}
    (h : ∀ rect pixelFormat a, ((decodeForClient rect pixelFormat).run a).Honours contract
      (fun _ method => method.paints = true) a)
    (rect : Rect) (pixelFormat : PixelFormat) (a : DAttrs codecs S) :
    Reads (((clientDecoder callback decodeForClient h).decode rect pixelFormat).run a) := by
  have hreads : Reads ((decodeForClient rect pixelFormat).run a) :=
    (h rect pixelFormat a).asks fun _ _ => trivial
  refine hreads.bind fun method t => ?_
  exact Coroutine.Step.Asks.bind (reads_lift (invoke callback method) t) fun _ _ => trivial

end Decoders

end VncDoTool
