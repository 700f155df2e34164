import VncDoTool.Decoders.Base

/-!
# ZRLE

`ZRLEDecoder` of `decoders/zrle.py`, RFC 6143 §7.7.6: a rectangle in tiles of 64 by 64 pixels, all of
them compressed with zlib, in one stream for the whole connection.

* `Decoders.zrleTile`: one tile, taken off the front of the decompressed data.
* `Decoders.zrleTiles`: all of them, which use up the data.
* `Decoders.zrleDecodePixels`, `Decoders.zrleDecoder`: the decoder.
-/

namespace VncDoTool

/-! ## Strided slices -/

/-- How many places `start`, `start + step`, … there are below `length`. -/
def strideCount (length start step : ℕ) : ℕ := (length - start + step - 1) / step

/-- `xs[start::step]`. -/
def everyNth (xs : Bytes) (start step : ℕ) : Bytes :=
  (List.range (strideCount xs.length start step)).map fun k => xs.getD (start + k * step) 0

/-- `buf[start::step] = values`. -/
def setEveryNth (buf : Bytes) (start step : ℕ) (values : Bytes) : Except PyErr Bytes :=
  if values.length ≠ strideCount buf.length start step then
    .error ⟨.valueError, s!"attempt to assign sequence of size {values.length} to extended slice " ++
      s!"of size {strideCount buf.length start step}"⟩
  else .ok (buf.mapIdx fun i b =>
    if start ≤ i ∧ (i - start) % step = 0 then values.getD ((i - start) / step) 0 else b)

namespace Decoders

open RFBClient Coroutine

/-- `TILE`. -/
def zrleTileSize : ℕ := 64

/-- `_expand_cpixels`: compressed pixels widened to pixels. -/
def expandCpixels (raw : Bytes) (count cbytes bypp coffset : ℕ) : Except PyErr Bytes :=
  if cbytes = bypp then .ok raw
  else
    (List.range cbytes).foldlM (m := Except PyErr) (fun out i =>
      setEveryNth out (coffset + i) bypp (everyNth raw i cbytes)) (List.replicate (count * bypp) 0)

/-- The widths a rectangle is read with. -/
structure ZRLEWidths : Type where
  cbytes : ℕ
  coffset : ℕ
  bypp : ℕ

/-- The tile data ran out. -/
def short (tile : Rect) : PyErr :=
  ⟨.decodeError,
    s!"ZRLE tile at ({tile.x},{tile.y}) ran past the end of the rectangle's tile data"⟩

/-- The next `need` bytes of the tile data. -/
def takeData (tile : Rect) (need : ℕ) (rest : Bytes) : Except PyErr (Bytes × Bytes) :=
  if need > rest.length then .error (short tile) else .ok (rest.take need, rest.drop need)

/-- The next byte of the tile data. -/
def takeByte (tile : Rect) : Bytes → Except PyErr (ℕ × Bytes)
  | [] => .error (short tile)
  | b :: rest => .ok (b.toNat, rest)

/-! ## Palettes -/

/-- The palette of a tile. -/
def zrlePalette (widths : ZRLEWidths) (tile : Rect) (size : ℕ) (rest : Bytes) :
    Except PyErr (List Bytes × Bytes) := do
  let (raw, rest) ← takeData tile (size * widths.cbytes) rest
  let flat ← expandCpixels raw size widths.cbytes widths.bypp widths.coffset
  .ok ((List.range size).map fun i => (flat.drop (i * widths.bypp)).take widths.bypp, rest)

/-- The bits of an index into a palette of 2 to 16 colours. -/
def indexBits (size : ℕ) : ℕ := if size = 2 then 1 else if size ≤ 4 then 2 else 4

/-- The indices a byte of a row packs. -/
def packedIndices (bits byte : ℕ) : List ℕ :=
  (List.range (8 / bits)).map fun slot => (byte >>> (8 - bits - slot * bits)) &&& ((1 <<< bits) - 1)

/-- `_index_tables`, the first table: the pixels a byte packs. -/
def expandedByte (palette : List Bytes) (bits byte : ℕ) : Bytes :=
  let blank : Bytes := List.replicate (palette.headD []).length 0
  (packedIndices bits byte).flatMap fun i => palette.getD i blank

/-- `_index_tables`, the second table: which of them have no colour. -/
def undefinedByte (palette : List Bytes) (bits byte : ℕ) : List Bool :=
  (packedIndices bits byte).map fun i => decide (i ≥ palette.length)

/-- One row of packed indices. -/
def packedRow (palette : List Bytes) (width bypp : ℕ) (packed : Bytes) : Except PyErr Bytes :=
  let bits := indexBits palette.length
  -- A palette that fills the index space leaves no index without a colour.
  if palette.length ≠ 1 <<< bits ∧
      ((packed.flatMap fun b => undefinedByte palette bits b.toNat).take width).any id then
    .error ⟨.decodeError,
      s!"ZRLE palette index is past the end of a {palette.length}-colour palette"⟩
  else .ok ((packed.flatMap fun b => expandedByte palette bits b.toNat).take (width * bypp))

/-- The pixels of a packed-palette tile. Each row is a unit of its own, aligned to whole bytes. -/
def packedPixels (palette : List Bytes) (tile : Rect) (bypp : ℕ) (rest : Bytes) :
    Except PyErr (Bytes × Bytes) := do
  let perByte := 8 / indexBits palette.length
  let rowSize := (tile.width + perByte - 1) / perByte
  let (packed, rest) ← takeData tile (rowSize * tile.height) rest
  let rows ← (List.range tile.height).mapM fun i =>
    packedRow palette tile.width bypp ((packed.drop (i * rowSize)).take rowSize)
  .ok (rows.flatten, rest)

/-! ## Runs -/

/-- The length of a run, less one: each byte of 255 says that another one follows. -/
def runMinusOne (tile : Rect) : Bytes → Except PyErr (ℕ × Bytes)
  | [] => .error (short tile)
  | part :: rest =>
    if part = 255 then do
      let (n, rest) ← runMinusOne tile rest
      .ok (255 + n, rest)
    else .ok (part.toNat, rest)

/-- One run: its pixel and its length. -/
def zrleRun (widths : ZRLEWidths) (tile : Rect) (palette : List Bytes) (rest : Bytes) :
    Except PyErr ((Bytes × ℕ) × Bytes) :=
  if palette.length = 0 then do
    let (raw, rest) ← takeData tile widths.cbytes rest
    let pixel ← expandCpixels raw 1 widths.cbytes widths.bypp widths.coffset
    let (n, rest) ← runMinusOne tile rest
    .ok ((pixel, n + 1), rest)
  else do
    let (index, rest) ← takeByte tile rest
    let entry := index &&& 0x7F
    match palette[entry]? with
    | none =>
      .error ⟨.decodeError, s!"ZRLE palette index {entry} is past the end of a " ++
        s!"{palette.length}-colour palette"⟩
    | some pixel =>
      if index &&& 0x80 = 0 then .ok ((pixel, 1), rest)
      else do
        let (n, rest) ← runMinusOne tile rest
        .ok ((pixel, n + 1), rest)

/-- The runs of a tile, until it has its pixels. A run is of a pixel at least, so that `fuel` may be
the number of pixels that are missing. -/
def zrleRuns (widths : ZRLEWidths) (tile : Rect) (palette : List Bytes) :
    (fuel numPixels : ℕ) → (pixelData rest : Bytes) → Except PyErr ((Bytes × ℕ) × Bytes)
  | 0, numPixels, pixelData, rest => .ok ((pixelData, numPixels), rest)
  | fuel + 1, numPixels, pixelData, rest =>
    if numPixels < tile.width * tile.height then do
      let ((pixel, run), rest) ← zrleRun widths tile palette rest
      zrleRuns widths tile palette fuel (numPixels + run)
        (pixelData ++ RectBuffer.repeated pixel run) rest
    else .ok ((pixelData, numPixels), rest)

/-- The pixels of a tile of runs. -/
def rlePixels (widths : ZRLEWidths) (tile : Rect) (palette : List Bytes) (rest : Bytes) :
    Except PyErr (Bytes × Bytes) := do
  let wanted := tile.width * tile.height
  let ((pixelData, numPixels), rest) ← zrleRuns widths tile palette wanted 0 [] rest
  if numPixels ≠ wanted then
    .error ⟨.decodeError, s!"ZRLE RLE tile at ({tile.x},{tile.y}) decoded {numPixels} " ++
      s!"pixels, wanted {wanted}"⟩
  else .ok (pixelData, rest)

/-! ## Tiles -/

/-- Paste the pixels of a tile. -/
def pasteTile (target : RectBuffer) (tile : Rect) (pixels : Bytes) : Except PyErr RectBuffer :=
  target.blit tile.x tile.y tile.width tile.height pixels

/-- One tile, off the front of the data. -/
def zrleTile (widths : ZRLEWidths) (st : RectBuffer × Bytes) (tile : Rect) :
    Except PyErr (RectBuffer × Bytes) := do
  let (target, rest) := st
  let (subencoding, rest) ← takeByte tile rest
  let rle := subencoding &&& 0x80 ≠ 0
  let paletteSize := subencoding &&& 127
  if ¬rle ∧ paletteSize > 16 then
    .error ⟨.decodeError, s!"ZRLE palette of size {paletteSize} is not allowed"⟩
  else do
    let (palette, rest) ← if paletteSize = 0 then .ok ([], rest)
      else zrlePalette widths tile paletteSize rest
    if rle then do
      let (pixels, rest) ← rlePixels widths tile palette rest
      let target ← pasteTile target tile pixels
      .ok (target, rest)
    else
      match palette with
      | [] => do
        let (raw, rest) ← takeData tile (tile.width * tile.height * widths.cbytes) rest
        let pixels ← expandCpixels raw (tile.width * tile.height) widths.cbytes widths.bypp
          widths.coffset
        let target ← pasteTile target tile pixels
        .ok (target, rest)
      | [colour] => do
        let target ← target.fill tile.x tile.y tile.width tile.height colour
        .ok (target, rest)
      | palette => do
        let (pixels, rest) ← packedPixels palette tile widths.bypp rest
        let target ← pasteTile target tile pixels
        .ok (target, rest)

/-- The tiles of a rectangle use up its data. -/
def zrleTiles (pixelFormat : PixelFormat) (target : RectBuffer) (data : Bytes) :
    Except PyErr RectBuffer := do
  let widths : ZRLEWidths := ⟨pixelFormat.cpixelBytes, pixelFormat.cpixelOffset, target.bypp⟩
  let (target, rest) ← (tiles zrleTileSize target.width target.height).foldlM (zrleTile widths)
    (target, data)
  if rest ≠ [] then
    .error ⟨.decodeError, s!"ZRLE rectangle left {rest.length} bytes unconsumed after its tiles; " ++
      s!"cpixel_bytes={widths.cbytes} does not match what the server sent"⟩
  else .ok target

variable {codecs : Codecs} {S : Type}

/-- `_zlib_stream.decompress`. -/
def zrleDecompress (block : Bytes) : Gen (Decoding codecs) S Bytes := do
  let a ← Coroutine.get
  match codecs.decompress a.decoding.zlibStream block 0 with
  | .error message => Gen.raise .zlibError message
  | .ok (data, _, stream) =>
    Coroutine.modify fun a => { a with decoding := { a.decoding with zlibStream := stream } }
    pure data

/-- `ZRLEDecoder.decodePixels`. -/
def zrleDecodePixels (target : RectBuffer) (pixelFormat : PixelFormat) :
    Gen (Decoding codecs) S RectBuffer := do
  let lengthBlock ← Gen.read 4
  let block ← Gen.read (u32At lengthBlock.bytes 0)
  let data ← zrleDecompress block.bytes
  Gen.lift (RFBClient.ofExcept (zrleTiles pixelFormat target data))

/-! ## The contract -/

theorem honours_zrleDecompress (block : Bytes) (a : DAttrs codecs S) :
    ((zrleDecompress block).run a).Honours contract anything a := by
  unfold zrleDecompress
  refine honours_get_bind ?_
  split
  · exact honours_raise
  next data _ stream _ =>
    refine honours_bind (Q := anything)
      (honours_decoding (fun d => { d with zlibStream := stream }) trivial) fun _ a _ => ?_
    exact honours_pure trivial

theorem honours_zrleDecodePixels (target : RectBuffer) (pixelFormat : PixelFormat)
    (a : DAttrs codecs S) :
    ((zrleDecodePixels target pixelFormat).run a).Honours contract anything a := by
  unfold zrleDecodePixels
  refine honours_bind (Q := anything) (honours_read _ fun _ _ => trivial) fun lengthBlock a _ => ?_
  refine honours_bind (Q := anything) (honours_read _ fun _ _ => trivial) fun block a _ => ?_
  refine honours_bind (honours_zrleDecompress block.bytes a) fun data a _ => ?_
  exact honours_ofExcept fun _ _ => trivial

def zrleDecoder (callback : RFBClient.Callback → Py (DAttrs codecs S) Unit) : Decoder callback :=
  ofHonours callback (pixelDecode zrleDecodePixels) (honours_pixelDecode honours_zrleDecodePixels)

end Decoders

end VncDoTool
