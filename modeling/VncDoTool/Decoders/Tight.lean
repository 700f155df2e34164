import VncDoTool.Decoders.Base

/-!
# Tight

`TightDecoder` of `decoders/tight.py`: a rectangle of one colour, a JPEG image, or pixels that are
filtered and then compressed in one of four zlib streams.

* `Decoders.decompressLoop`: what a block decompresses to; it terminates, since zlib leaves input only
  where it reached the limit on its output.
* `Decoders.unpalette`: the pixels of palette indices.
* `Decoders.tightDecodeRect`, `Decoders.tightDecoder`: the decoder.
-/

namespace VncDoTool

namespace Decoders

open RFBClient Coroutine

/-- `MIN_TO_COMPRESS`. -/
def minToCompress : ℕ := 12

/-- `MAX_WIDTH`. -/
def maxTightWidth : ℕ := 2048

/-- `_output_format`: the layout the pixels are left in. -/
def tightOutputFormat (pixelFormat : PixelFormat) : PixelFormat :=
  if pixelFormat.tpixelBytes = 3 then PixelFormat.tpixelFormat else pixelFormat

/-! ## Palettes -/

/-- `_mono_table`: the eight pixels of a byte of a 1-bit row. -/
def monoPixels (zero one : Bytes) (byte : ℕ) : Bytes :=
  (List.range 8).flatMap fun bit => if byte &&& (0x80 >>> bit) ≠ 0 then one else zero

/-- `data.translate(table)`. -/
def translate (table data : Bytes) : Bytes := data.map fun b => table.getD b.toNat 0

/-- `_palette_tables`: a translation table for each channel, and the indices the palette defines. -/
def paletteTables (palette : List Bytes) : List Bytes × Bytes :=
  ((List.range (palette.headD []).length).map fun offset =>
      palette.map (fun entry => entry.getD offset 0) ++ List.replicate (256 - palette.length) 0,
    (List.range palette.length).map UInt8.ofNat)

/-- `_unpalette`: the pixels of palette indices. -/
def unpalette (codecs : Codecs) (data : Bytes) (palette : List Bytes) (width height rowSize : ℕ) :
    Except PyErr Bytes :=
  if data = [] then .ok []
  else
    match palette with
    | [zero, one] =>
      let pixels := data.flatMap fun b => monoPixels zero one b.toNat
      let stride := width * zero.length
      let padded := rowSize * 8 * zero.length
      if padded = stride then .ok pixels
      else
        -- Whole bytes overshoot the padding of each row.
        .ok ((List.range height).flatMap fun row => (pixels.drop (row * padded)).take stride)
    | palette =>
      let (channels, defined) := paletteTables palette
      -- What is left of the data without the indices that are defined.
      if (data.filter fun b => b ∉ defined) ≠ [] then
        .error ⟨.decodeError,
          s!"Tight palette index out of range for a {palette.length}-colour palette"⟩
      else
        match channels with
        | [channel] => .ok (translate channel data)
        | channels =>
          -- `_BAND_MODES` has a mode for two, three and four channels.
          if channels.length ∉ [2, 3, 4] then .error ⟨.keyError, s!"{channels.length}"⟩
          else .ok (codecs.merge width height (channels.map fun c => translate c data))

/-! ## Decompressing -/

/-- The loop of `_decompress`: at most `size` bytes, and no more than those. -/
def decompressLoop (codecs : Codecs) (streamId size : ℕ) (stream : codecs.Stream) (out tail : Bytes) :
    Except PyErr (Bytes × codecs.Stream) :=
  if _hremaining : out.length < size then
    match _hstep : codecs.decompress stream tail (size - out.length) with
    | .error message => .error ⟨.zlibError, message⟩
    | .ok (more, rest, stream') =>
      if _htail : rest = [] then .ok (out ++ more, stream')
      else decompressLoop codecs streamId size stream' (out ++ more) rest
  else
    -- A sync-flush marker decompresses to no bytes.
    match codecs.decompress stream tail 1 with
    | .error message => .error ⟨.zlibError, message⟩
    | .ok (extra, _, stream') =>
      if extra ≠ [] then
        .error ⟨.decodeError, s!"Tight stream {streamId} carries more than the {size} bytes " ++
          "this rectangle declares"⟩
      else .ok (out, stream')
termination_by size - out.length
decreasing_by
  have hlimit := (codecs.limit (Nat.sub_ne_zero_of_lt _hremaining) _hstep).2 _htail
  rw [List.length_append]
  omega

variable {codecs : Codecs} {S : Type}

/-- `_decompress`. A stream that was reset is a new one. -/
def tightDecompress (streamId : ℕ) (block : Bytes) (size : ℕ) : Gen (Decoding codecs) S Bytes := do
  let a ← Coroutine.get
  let stream := (a.decoding.streams.getD streamId none).getD codecs.decompressobj
  let (out, stream) ← Gen.lift (RFBClient.ofExcept
    (decompressLoop codecs streamId size stream [] block))
  Coroutine.modify fun a => { a with
    decoding := { a.decoding with streams := a.decoding.streams.set streamId (some stream) } }
  if out.length ≠ size then
    Gen.raise .decodeError s!"Tight stream {streamId} produced {out.length} bytes, wanted {size}"
  else pure out

/-- `_compactLength`: one to three bytes, seven bits of each but the third. -/
def compactLength : Gen (Decoding codecs) S ℕ := do
  let first ← Gen.read 1
  let low := byteAt first.bytes 0
  if low &&& 0x80 = 0 then pure (low &&& 0x7F)
  else
    let second ← Gen.read 1
    let middle := byteAt second.bytes 0
    let length := (low &&& 0x7F) ||| ((middle &&& 0x7F) <<< 7)
    if middle &&& 0x80 = 0 then pure length
    else
      let third ← Gen.read 1
      pure (length ||| (byteAt third.bytes 0 <<< 14))

/-- `_decodeJpeg`. -/
def decodeJpeg (codecs : Codecs) (block : Bytes) (width height : ℕ) : Except PyErr Bytes :=
  match codecs.jpeg block with
  | .error message => .error ⟨.decodeError, s!"Tight JPEG rectangle did not decode: {message}"⟩
  | .ok (imageWidth, imageHeight, pixels) =>
    if (imageWidth, imageHeight) ≠ (width, height) then
      .error ⟨.decodeError, s!"Tight JPEG rectangle carries a {imageWidth}x{imageHeight} image " ++
        s!"for a {width}x{height} rectangle"⟩
    else .ok pixels

/-! ## Rectangles -/

/-- The compressed or raw bytes of BasicCompression. -/
def tightData (streamId dataSize : ℕ) : Gen (Decoding codecs) S Bytes := do
  if dataSize = 0 then pure []
  else if dataSize < minToCompress then
    let data ← Gen.read dataSize
    pure data.bytes
  else
    let length ← compactLength
    let block ← Gen.read length
    tightDecompress streamId block.bytes dataSize

/-- `_decodeBasic`, once the filter is known. -/
def tightFiltered (filterId streamId width height : ℕ) (pixelFormat : PixelFormat) :
    Gen (Decoding codecs) S (Bytes × PixelFormat) := do
  let tbytes := pixelFormat.tpixelBytes
  if filterId = 0 then
    let data ← tightData streamId (height * (width * tbytes))
    pure (data, tightOutputFormat pixelFormat)
  else if filterId = 1 then
    let size ← Gen.read 1
    let paletteSize := byteAt size.bytes 0 + 1
    let raw ← Gen.read (paletteSize * tbytes)
    let palette := (List.range paletteSize).map fun i => (raw.bytes.drop (i * tbytes)).take tbytes
    let rowSize := if paletteSize = 2 then (width + 7) / 8 else width
    let data ← tightData streamId (height * rowSize)
    let pixels ← Gen.lift (RFBClient.ofExcept (unpalette codecs data palette width height rowSize))
    pure (pixels, tightOutputFormat pixelFormat)
  else if filterId = 2 then Gen.raise .decodeError "Tight GradientFilter is not supported"
  else Gen.raise .decodeError s!"Tight filter id {filterId} is not defined"

/-- `_decodeBasic`. -/
def tightDecodeBasic (compCtl width height : ℕ) (pixelFormat : PixelFormat) :
    Gen (Decoding codecs) S (Bytes × PixelFormat) := do
  let streamId := compCtl &&& 0x03
  if compCtl &&& 0x04 ≠ 0 then
    let filter ← Gen.read 1
    tightFiltered (byteAt filter.bytes 0) streamId width height pixelFormat
  else tightFiltered 0 streamId width height pixelFormat

/-- The streams that the low bits of a compression control reset. -/
def resetStreams (compCtl : ℕ) (streams : List (Option codecs.Stream)) :
    List (Option codecs.Stream) :=
  streams.mapIdx fun streamId stream => if compCtl &&& (1 <<< streamId) ≠ 0 then none else stream

/-- A hexadecimal digit. -/
def hexDigit (n : ℕ) : String := String.singleton (Nat.digitChar n)

/-- `TightDecoder.decodeRect`. -/
def tightDecodeRect (width height : ℕ) (pixelFormat : PixelFormat) :
    Gen (Decoding codecs) S (Bytes × PixelFormat) := do
  let control ← Gen.read 1
  let resets := byteAt control.bytes 0
  Coroutine.modify fun a => { a with
    decoding := { a.decoding with streams := resetStreams resets a.decoding.streams } }
  let compCtl := resets >>> 4
  if compCtl = 0x08 then
    let pixel ← Gen.read pixelFormat.tpixelBytes
    pure (RectBuffer.repeated pixel.bytes (width * height), tightOutputFormat pixelFormat)
  else if width > maxTightWidth then
    Gen.raise .decodeError s!"Tight rectangle is {width} pixels wide, over the {maxTightWidth} limit"
  else if compCtl = 0x09 then
    let a ← Coroutine.get
    if ¬a.decoding.jpegOffered then
      Gen.raise .decodeError ("Tight JpegCompression arrived without a JPEG Quality Level " ++
        "offered; it is lossy, so the capture would not be exact")
    else
      let length ← compactLength
      let block ← Gen.read length
      let pixels ← Gen.lift (RFBClient.ofExcept (decodeJpeg codecs block.bytes width height))
      pure (pixels, PixelFormat.tpixelFormat)
  else if compCtl &&& 0x08 ≠ 0 then
    if compCtl = 0x0A ∨ compCtl = 0x0E then
      Gen.raise .decodeError ("Tight BasicCompression Without Zlib, which needs the -317 " ++
        "pseudo-encoding this client never advertises")
    else
      Gen.raise .decodeError s!"Tight compression control 0x{hexDigit compCtl}0 is not defined"
  else tightDecodeBasic compCtl width height pixelFormat

/-! ## The contract -/

theorem honours_compactLength (a : DAttrs codecs S) :
    ((compactLength : Gen (Decoding codecs) S ℕ).run a).Honours contract anything a := by
  unfold compactLength
  refine honours_bind (Q := anything) (honours_read _ fun _ _ => trivial) fun first a _ => ?_
  dsimp only
  split_ifs
  · exact honours_pure trivial
  · refine honours_bind (Q := anything) (honours_read _ fun _ _ => trivial) fun second a _ => ?_
    split_ifs
    · exact honours_pure trivial
    · refine honours_bind (Q := anything) (honours_read _ fun _ _ => trivial) fun third a _ => ?_
      exact honours_pure trivial

/-- What is decompressed is as long as the rectangle needs. -/
theorem honours_tightDecompress (streamId : ℕ) (block : Bytes) (size : ℕ) (a : DAttrs codecs S) :
    ((tightDecompress streamId block size).run a).Honours contract
      (fun _ out => out.length = size) a := by
  unfold tightDecompress
  refine honours_get_bind ?_
  refine honours_bind (Q := anything) (honours_ofExcept fun _ _ => trivial) fun result a _ => ?_
  refine honours_bind (Q := anything) (honours_decoding
    (fun d => { d with streams := d.streams.set streamId (some result.2) }) trivial) fun _ a _ => ?_
  split_ifs with hlength
  · exact honours_raise
  · exact honours_pure (Decidable.not_not.mp hlength)

theorem honours_tightData (streamId dataSize : ℕ) (a : DAttrs codecs S) :
    ((tightData streamId dataSize).run a).Honours contract
      (fun _ data => data.length = dataSize) a := by
  unfold tightData
  split_ifs with hzero
  · exact honours_pure hzero.symm
  · refine honours_bind (Q := anything) (honours_read _ fun _ _ => trivial) fun data a _ => ?_
    exact honours_pure (Block.length_bytes data)
  · refine honours_bind (honours_compactLength a) fun length a _ => ?_
    refine honours_bind (Q := anything) (honours_read _ fun _ _ => trivial) fun block a _ => ?_
    exact honours_tightDecompress streamId block.bytes dataSize a

theorem honours_tightFiltered (filterId streamId width height : ℕ) (pixelFormat : PixelFormat)
    (a : DAttrs codecs S) :
    ((tightFiltered filterId streamId width height pixelFormat).run a).Honours contract
      anything a := by
  unfold tightFiltered
  dsimp only
  split_ifs
  · refine honours_bind (honours_tightData streamId _ a) fun data a _ => ?_
    exact honours_pure trivial
  · refine honours_bind (Q := anything) (honours_read _ fun _ _ => trivial) fun size a _ => ?_
    refine honours_bind (Q := anything) (honours_read _ fun _ _ => trivial) fun raw a _ => ?_
    refine honours_bind (honours_tightData streamId _ a) fun data a _ => ?_
    refine honours_bind (Q := anything) (honours_ofExcept fun _ _ => trivial) fun pixels a _ => ?_
    exact honours_pure trivial
  · exact honours_raise
  · exact honours_raise

theorem honours_tightDecodeBasic (compCtl width height : ℕ) (pixelFormat : PixelFormat)
    (a : DAttrs codecs S) :
    ((tightDecodeBasic compCtl width height pixelFormat).run a).Honours contract anything a := by
  unfold tightDecodeBasic
  dsimp only
  split_ifs
  · refine honours_bind (Q := anything) (honours_read _ fun _ _ => trivial) fun filter a _ => ?_
    exact honours_tightFiltered _ _ width height pixelFormat a
  · exact honours_tightFiltered 0 _ width height pixelFormat a

theorem honours_tightDecodeRect (width height : ℕ) (pixelFormat : PixelFormat)
    (a : DAttrs codecs S) :
    ((tightDecodeRect width height pixelFormat).run a).Honours contract anything a := by
  unfold tightDecodeRect
  refine honours_bind (Q := anything) (honours_read _ fun _ _ => trivial) fun control a _ => ?_
  refine honours_bind (Q := anything) (honours_decoding (fun d => { d with
    streams := resetStreams (byteAt control.bytes 0) d.streams }) trivial) fun _ a _ => ?_
  dsimp only
  split_ifs
  · refine honours_bind (Q := anything) (honours_read _ fun _ _ => trivial) fun pixel a _ => ?_
    exact honours_pure trivial
  · exact honours_raise
  · refine honours_get_bind ?_
    split_ifs
    · refine honours_bind (honours_compactLength a) fun length a _ => ?_
      refine honours_bind (Q := anything) (honours_read _ fun _ _ => trivial) fun block a _ => ?_
      refine honours_bind (Q := anything) (honours_ofExcept fun _ _ => trivial) fun pixels a _ => ?_
      exact honours_pure trivial
    · exact honours_raise
  · exact honours_raise
  · exact honours_raise
  · exact honours_tightDecodeBasic _ width height pixelFormat a

def tightDecoder (callback : RFBClient.Callback → Py (DAttrs codecs S) Unit) : Decoder callback :=
  ofHonours callback (wholeRectDecode tightDecodeRect)
    (honours_wholeRectDecode honours_tightDecodeRect)

end Decoders

end VncDoTool
