import VncDoTool.Decoders.Base

/-!
# Raw, CopyRect, RRE and the pseudo-encodings

The decoders of `decoders/raw.py`, `copyrect.py`, `rre.py`, `cursor.py` and `control.py`, each with
what it promises.
-/

namespace VncDoTool

namespace Decoders

open RFBClient Coroutine

variable {codecs : Codecs} {S : Type} (callback : RFBClient.Callback → Py (DAttrs codecs S) Unit)

/-! ## Raw -/

/-- `RawDecoder.decode`: the bytes on the wire are the pixels. -/
def rawDecode (rect : Rect) (pixelFormat : PixelFormat) : Gen (Decoding codecs) S Outcome := do
  requireFits rect.width rect.height
  let data ← Gen.read (rect.width * rect.height * pixelFormat.bypp)
  pure { changed := true, paste := some (data.bytes, pixelFormat) }

theorem honours_rawDecode (rect : Rect) (pixelFormat : PixelFormat) (a : DAttrs codecs S) :
    ((rawDecode rect pixelFormat).run a).Honours contract anything a := by
  unfold rawDecode
  refine honours_bind (honours_requireFits rect.width rect.height a) fun _ a _ => ?_
  refine honours_bind (honours_read _ fun _ _ => trivial) fun data a _ => ?_
  exact honours_pure trivial

def rawDecoder : Decoder callback := ofHonours callback rawDecode honours_rawDecode

/-! ## CopyRect -/

/-- `CopyRectDecoder.decodeForClient`: copy from inside the framebuffer. -/
def copyRectDecodeForClient (rect : Rect) (_ : PixelFormat) : Gen (Decoding codecs) S RFBClient.Callback := do
  let block ← Gen.read 4
  let srcx := u16At block.bytes 0
  let srcy := u16At block.bytes 2
  let a ← Coroutine.get
  if srcx + rect.width > a.width ∨ srcy + rect.height > a.height then
    Gen.raise .decodeError (s!"copy source ({srcx},{srcy},{rect.width},{rect.height}) is outside a " ++
      s!"{a.width}x{a.height} framebuffer")
  else pure (.copyRectangle srcx srcy rect)

theorem honours_copyRectDecodeForClient (rect : Rect) (pixelFormat : PixelFormat)
    (a : DAttrs codecs S) :
    ((copyRectDecodeForClient rect pixelFormat).run a).Honours contract
      (fun _ method => method.paints = true) a := by
  unfold copyRectDecodeForClient
  refine honours_bind (Q := anything) (honours_read _ fun _ _ => trivial) fun block a _ => ?_
  refine honours_get_bind ?_
  split_ifs
  · exact honours_raise
  · exact honours_pure rfl

def copyRectDecoder : Decoder callback :=
  clientDecoder callback copyRectDecodeForClient honours_copyRectDecodeForClient

/-! ## RRE and CoRRE -/

/-- How a subrectangle gives its place and size. -/
structure Coords : Type where
  size : ℕ
  /-- `unpack_from`. -/
  unpack : Bytes → Rect

/-- The struct `!HHHH`. -/
def rreCoords : Coords where
  size := 8
  unpack b := ⟨u16At b 0, u16At b 2, u16At b 4, u16At b 6⟩

/-- The struct `!BBBB`. -/
def corReCoords : Coords where
  size := 4
  unpack b := ⟨byteAt b 0, byteAt b 1, byteAt b 2, byteAt b 3⟩

/-- Paint one subrectangle. -/
def paintSubrect (coords : Coords) (target : RectBuffer) (entry : Bytes) : Except PyErr RectBuffer :=
  let rect := coords.unpack (entry.drop target.bypp)
  target.fill rect.x rect.y rect.width rect.height (entry.take target.bypp)

/-- `RREDecoder.decodePixels`: a background, and subrectangles over it. -/
def rreDecodePixels (coords : Coords) (target : RectBuffer) (_ : PixelFormat) :
    Gen (Decoding codecs) S RectBuffer := do
  let bypp := target.bypp
  let header ← Gen.read (4 + bypp)
  let count := u32At header.bytes 0
  let target ← Gen.lift (RFBClient.ofExcept
    (target.fill 0 0 target.width target.height (header.bytes.drop 4)))
  if count = 0 then pure target
  else if count > target.width * target.height then
    -- A subrectangle covers a pixel at least, and there are no more of them than pixels.
    Gen.raise .decodeError s!"{count} subrectangles in a {target.width}x{target.height} rectangle"
  else
    let nbytes := bypp + coords.size
    let data ← Gen.read (nbytes * count)
    (List.range count).foldlM (fun target i => Gen.lift (RFBClient.ofExcept
      (paintSubrect coords target ((data.bytes.drop (i * nbytes)).take nbytes)))) target

theorem honours_rreDecodePixels (coords : Coords) (target : RectBuffer) (pixelFormat : PixelFormat)
    (a : DAttrs codecs S) :
    ((rreDecodePixels coords target pixelFormat).run a).Honours contract anything a := by
  unfold rreDecodePixels
  refine honours_bind (Q := anything) (honours_read _ fun _ _ => trivial) fun header a _ => ?_
  refine honours_bind (Q := anything) (honours_ofExcept fun _ _ => trivial) fun target a _ => ?_
  split_ifs
  · exact honours_pure trivial
  · exact honours_raise
  · refine honours_bind (Q := anything) (honours_read _ fun _ _ => trivial) fun data a _ => ?_
    exact honours_foldlM (fun target i a _ => honours_ofExcept fun _ _ => trivial) _ trivial

def rreDecoder : Decoder callback :=
  ofHonours callback (pixelDecode (rreDecodePixels rreCoords))
    (honours_pixelDecode (honours_rreDecodePixels rreCoords))

def corReDecoder : Decoder callback :=
  ofHonours callback (pixelDecode (rreDecodePixels corReCoords))
    (honours_pixelDecode (honours_rreDecodePixels corReCoords))

/-! ## Cursor -/

/-- `CursorDecoder.decodeForClient`: the pixels of the cursor, then its mask. -/
def cursorDecodeForClient (rect : Rect) (pixelFormat : PixelFormat) :
    Gen (Decoding codecs) S RFBClient.Callback := do
  let pixelLen := rect.width * rect.height * pixelFormat.bypp
  let maskLen := (rect.width + 7) / 8 * rect.height
  let block ← Gen.read (pixelLen + maskLen)
  pure (.updateCursor rect (block.bytes.take pixelLen) (block.bytes.drop pixelLen))

theorem honours_cursorDecodeForClient (rect : Rect) (pixelFormat : PixelFormat)
    (a : DAttrs codecs S) :
    ((cursorDecodeForClient rect pixelFormat).run a).Honours contract
      (fun _ method => method.paints = true) a := by
  unfold cursorDecodeForClient
  refine honours_bind (Q := anything) (honours_read _ fun _ _ => trivial) fun block a _ => ?_
  exact honours_pure rfl

def cursorDecoder : Decoder callback :=
  clientDecoder callback cursorDecodeForClient honours_cursorDecodeForClient

/-! ## The pseudo-encodings without bytes -/

/-- `ControlDecoder.decode`, where `decodeForControl` calls a client method. -/
def controlDecoder (decodeForControl : Rect → RFBClient.Callback)
    (h : ∀ rect, (decodeForControl rect).paints = true) : Decoder callback where
  decode rect _ := do
    Gen.lift (invoke callback (decodeForControl rect))
    pure { changed := false }
  paintsLast rect _ a := paintsLast_invoke callback (h rect) false a

theorem reads_controlDecoder {decodeForControl : Rect → RFBClient.Callback}
    (h : ∀ rect, (decodeForControl rect).paints = true) (rect : Rect) (pixelFormat : PixelFormat)
    (a : DAttrs codecs S) :
    Reads (((controlDecoder callback decodeForControl h).decode rect pixelFormat).run a) :=
  Coroutine.Step.Asks.bind (reads_lift _ a) fun _ _ => trivial

def desktopSizeDecoder : Decoder callback :=
  controlDecoder callback (fun rect => .updateDesktopSize rect.width rect.height) fun _ => rfl

def pointerPosDecoder : Decoder callback :=
  controlDecoder callback (fun rect => .updatePointerPos rect.x rect.y) fun _ => rfl

/-- `QemuExtendedKeyDecoder`: the server knows of the extended key event. -/
def qemuExtendedKeyDecode (_ : Rect) (_ : PixelFormat) : Gen (Decoding codecs) S Outcome := do
  Coroutine.modify fun a => { a with
    negotiatedEncodings :=
      if Encoding.pseudoQemuExtendedKeyEvent ∈ a.negotiatedEncodings then a.negotiatedEncodings
      else a.negotiatedEncodings ++ [Encoding.pseudoQemuExtendedKeyEvent] }
  pure { changed := false }

theorem honours_qemuExtendedKeyDecode (rect : Rect) (pixelFormat : PixelFormat)
    (a : DAttrs codecs S) :
    ((qemuExtendedKeyDecode rect pixelFormat).run a).Honours contract anything a :=
  ⟨⟨a.decoding, _, rfl⟩, trivial⟩

def qemuExtendedKeyDecoder : Decoder callback :=
  ofHonours callback qemuExtendedKeyDecode honours_qemuExtendedKeyDecode

end Decoders

end VncDoTool
