import VncDoTool.Decoders.CompressedPixels
import VncDoTool.Decoders.HextilePainting
import VncDoTool.Lib.Checked

/-!
# ZRLE, with every access checked

The tile loop of `ZRLEDecoder.decodePixels` as `zrle.py` and `buffer.py` write it: a position in the
data, lookups in tables, strided slices and slices of the backing, each of which is trapped where it
would reach out of bounds or change a length.

* `RectBuffer.checkedBlit`, `RectBuffer.checkedFill`: the two writes.
* `Decoders.checkedTile`, `Decoders.checkedTiles`: the tile loop.
-/

namespace VncDoTool

/-! ## Writes -/

/-- `buf[start:stop] = new`, which is to keep the length. -/
def checkedSetSlice (buf : Bytes) (start stop : ℕ) (new : Bytes) : Checked PyErr Bytes :=
  if start ≤ stop ∧ stop ≤ buf.length ∧ new.length = stop - start then
    .ok (setSlice buf start stop new)
  else .error .outOfBounds

namespace RectBuffer

/-- `_check_bounds`. -/
def checkedBounds (b : RectBuffer) (x y w h : ℤ) : Checked PyErr Unit :=
  match b.checkBounds x y w h with
  | .ok _ => .ok ()
  | .error e => Checked.raise e

/-- `_clear`. -/
def checkedClear (b : RectBuffer) : Checked PyErr RectBuffer :=
  if b.covered then .ok b
  else do
    let backing ← checkedSetSlice b.backing 0 b.nbytes (List.replicate b.nbytes 0)
    .ok { b with backing, covered := true }

/-- `_materialize`. -/
def checkedMaterialize (b : RectBuffer) : Checked PyErr RectBuffer :=
  match b.whole with
  | none => .ok b
  | some whole => do
    let backing ← checkedSetSlice b.backing 0 b.nbytes whole
    .ok { b with backing, whole := none }

/-- The loop over rows. -/
def checkedRows (b : RectBuffer) (x y h rowBytes : ℕ) (row : ℕ → Checked PyErr Bytes) :
    Checked PyErr RectBuffer := do
  let stride := b.width * b.bypp
  let backing ← (List.range h).foldlM (m := Checked PyErr) (fun backing i => do
    let new ← row i
    let dst := (y + i) * stride + x * b.bypp
    checkedSetSlice backing dst (dst + rowBytes) new) b.backing
  .ok { b with backing }

/-- `blit`. -/
def checkedBlit (b : RectBuffer) (x y w h : ℤ) (pixels : Bytes) : Checked PyErr RectBuffer :=
  if b.covers x y w h then
    if pixels.length ≠ b.nbytes then
      Checked.raise ⟨.decodeError, s!"blit expected {b.nbytes} bytes, got {pixels.length}"⟩
    else .ok { b with whole := some pixels, covered := true }
  else do
    b.checkedBounds x y w h
    let expected := w.toNat * h.toNat * b.bypp
    if pixels.length ≠ expected then
      Checked.raise ⟨.decodeError, s!"blit expected {expected} bytes, got {pixels.length}"⟩
    else do
      let b ← b.checkedMaterialize
      let b ← b.checkedClear
      let stride := b.width * b.bypp
      let rowBytes := w.toNat * b.bypp
      if x = 0 ∧ w = b.width then do
        let offset := y.toNat * stride
        let backing ← checkedSetSlice b.backing offset (offset + expected) pixels
        .ok { b with backing }
      else
        b.checkedRows x.toNat y.toNat h.toNat rowBytes fun i =>
          Checked.slice pixels (i * rowBytes) (i * rowBytes + rowBytes)

/-- What a fill writes over. -/
def checkedBase (b : RectBuffer) (x y w h : ℤ) : Checked PyErr RectBuffer := do
  let b' ← b.checkedMaterialize
  if ¬b.covers x y w h then b'.checkedClear else .ok b'

/-- `fill`. -/
def checkedFill (b : RectBuffer) (x y w h : ℤ) (color : Bytes) : Checked PyErr RectBuffer := do
  b.checkedBounds x y w h
  if color.length ≠ b.bypp then
    Checked.raise ⟨.decodeError, s!"fill color must be {b.bypp} bytes, got {color.length}"⟩
  else do
    let base ← b.checkedBase x y w h
    let b := { base with covered := true }
    let stride := b.width * b.bypp
    let rowBytes := w.toNat * b.bypp
    let row := repeated color w.toNat
    if x = 0 ∧ w = b.width then do
      let offset := y.toNat * stride
      let backing ← checkedSetSlice b.backing offset (offset + h.toNat * stride)
        (repeated row h.toNat)
      .ok { b with backing }
    else b.checkedRows x.toNat y.toNat h.toNat rowBytes fun _ => .ok row

end RectBuffer

/-! ## Strided slices -/

/-- `xs[start::step]`, from an index of `xs`. -/
def checkedEveryNth (xs : Bytes) (start step : ℕ) : Checked PyErr Bytes :=
  if start < xs.length then .ok (everyNth xs start step) else .error .outOfBounds

/-- `buf[start::step] = values`, from an index of `buf`. -/
def checkedSetEveryNth (buf : Bytes) (start step : ℕ) (values : Bytes) : Checked PyErr Bytes :=
  if start < buf.length ∧ values.length = strideCount buf.length start step then
    match setEveryNth buf start step values with
    | .ok out => .ok out
    | .error e => Checked.raise e
  else .error .outOfBounds

namespace Decoders

/-- `_expand_cpixels`. -/
def checkedExpand (raw : Bytes) (count cbytes bypp coffset : ℕ) : Checked PyErr Bytes :=
  if cbytes = bypp then .ok raw
  else
    (List.range cbytes).foldlM (m := Checked PyErr) (fun out i => do
      let values ← checkedEveryNth raw i cbytes
      checkedSetEveryNth out (coffset + i) bypp values) (List.replicate (count * bypp) 0)

/-! ## Palettes -/

/-- The palette of a tile, and where it ends. -/
def checkedPalette (widths : ZRLEWidths) (tile : Rect) (data : Bytes) (pos size : ℕ) :
    Checked PyErr (List Bytes × ℕ) :=
  if size = 0 then .ok ([], pos)
  else
    let need := size * widths.cbytes
    if pos + need > data.length then Checked.raise (short tile)
    else do
      let raw ← Checked.slice data pos (pos + need)
      let flat ← checkedExpand raw size widths.cbytes widths.bypp widths.coffset
      let palette ← (List.range size).mapM fun i =>
        Checked.slice flat (i * widths.bypp) (i * widths.bypp + widths.bypp)
      .ok (palette, pos + need)

/-- `_index_tables`: what each byte packs, and which of its pixels have no colour. -/
def indexTables (palette : List Bytes) (bits : ℕ) : List Bytes × Option (List (List Bool)) :=
  let expanded := (List.range 256).map (expandedByte palette bits)
  if palette.length = 1 <<< bits then (expanded, none)
  else (expanded, some ((List.range 256).map (undefinedByte palette bits)))

/-- One row of packed indices, by the tables. -/
def checkedRow (palette : List Bytes) (width bypp : ℕ) (packed : Bytes) : Checked PyErr Bytes := do
  let tables := indexTables palette (indexBits palette.length)
  let bad ← match tables.2 with
    | none => .ok false
    | some undefined => do
      let flags ← packed.mapM fun b => Checked.item undefined b.toNat
      .ok ((flags.flatten.take width).any id)
  if bad then
    Checked.raise ⟨.decodeError,
      s!"ZRLE palette index is past the end of a {palette.length}-colour palette"⟩
  else do
    let pixels ← packed.mapM fun b => Checked.item tables.1 b.toNat
    .ok (pixels.flatten.take (width * bypp))

/-- The next row of a packed-palette tile. -/
def checkedNextRow (palette : List Bytes) (width bypp rowSize : ℕ) (data : Bytes)
    (st : List Bytes × ℕ) : Checked PyErr (List Bytes × ℕ) := do
  let packed ← Checked.slice data st.2 (st.2 + rowSize)
  let row ← checkedRow palette width bypp packed
  .ok (st.1 ++ [row], st.2 + rowSize)

/-- The rows of a packed-palette tile. -/
def checkedPacked (palette : List Bytes) (tile : Rect) (bypp : ℕ) (data : Bytes) (pos : ℕ) :
    Checked PyErr (Bytes × ℕ) :=
  let perByte := 8 / indexBits palette.length
  let rowSize := (tile.width + perByte - 1) / perByte
  if pos + rowSize * tile.height > data.length then Checked.raise (short tile)
  else do
    let (rows, pos) ← (List.range tile.height).foldlM (m := Checked PyErr)
      (fun st _ => checkedNextRow palette tile.width bypp rowSize data st) ([], pos)
    .ok (rows.flatten, pos)

/-! ## Runs -/

/-- The bytes of a run's length, the first of them and those behind one of 255. -/
def checkedLength (tile : Rect) (data : Bytes) (pos runMinusOne : ℕ) : Checked PyErr (ℕ × ℕ) :=
  if pos ≥ data.length then Checked.raise (short tile)
  else
    match (Checked.item data pos : Checked PyErr UInt8) with
    | .error trap => .error trap
    | .ok part =>
      if part = 255 then checkedLength tile data (pos + 1) (runMinusOne + part.toNat)
      else .ok (runMinusOne + part.toNat, pos + 1)
  termination_by data.length - pos

/-- One run: its pixel, and its length less one. -/
def checkedRun (widths : ZRLEWidths) (tile : Rect) (palette : List Bytes) (data : Bytes) (pos : ℕ) :
    Checked PyErr ((Bytes × ℕ) × ℕ) :=
  if palette.length = 0 then
    if pos + widths.cbytes > data.length then Checked.raise (short tile)
    else do
      let raw ← Checked.slice data pos (pos + widths.cbytes)
      let pixel ← checkedExpand raw 1 widths.cbytes widths.bypp widths.coffset
      let (runMinusOne, pos) ← checkedLength tile data (pos + widths.cbytes) 0
      .ok ((pixel, runMinusOne), pos)
  else if pos ≥ data.length then Checked.raise (short tile)
  else do
    let index ← Checked.item data pos
    let entry := index.toNat &&& 0x7F
    if entry ≥ palette.length then
      Checked.raise ⟨.decodeError, s!"ZRLE palette index {entry} is past the end of a " ++
        s!"{palette.length}-colour palette"⟩
    else do
      let pixel ← Checked.item palette entry
      if index.toNat &&& 0x80 = 0 then .ok ((pixel, 0), pos + 1)
      else do
        let (runMinusOne, pos) ← checkedLength tile data (pos + 1) 0
        .ok ((pixel, runMinusOne), pos)

/-- The runs of a tile: `while num_pixels < pixels_in_tile`. -/
def checkedRuns (widths : ZRLEWidths) (tile : Rect) (palette : List Bytes) (data : Bytes)
    (numPixels : ℕ) (pixelData : Bytes) (pos : ℕ) : Checked PyErr ((Bytes × ℕ) × ℕ) :=
  if numPixels < tile.width * tile.height then
    match checkedRun widths tile palette data pos with
    | .error trap => .error trap
    | .ok ((pixel, runMinusOne), pos) =>
      checkedRuns widths tile palette data (numPixels + (runMinusOne + 1))
        (pixelData ++ RectBuffer.repeated pixel (runMinusOne + 1)) pos
  else .ok ((pixelData, numPixels), pos)
  termination_by tile.width * tile.height - numPixels

/-! ## Tiles -/

/-- One tile. -/
def checkedTile (widths : ZRLEWidths) (data : Bytes) (st : RectBuffer × ℕ) (tile : Rect) :
    Checked PyErr (RectBuffer × ℕ) := do
  let (target, pos) := st
  let pixelsInTile := tile.width * tile.height
  if pos ≥ data.length then Checked.raise (short tile)
  else do
    let subencoding ← Checked.item data pos
    let rle := subencoding.toNat &&& 0x80 ≠ 0
    let paletteSize := subencoding.toNat &&& 127
    if ¬rle ∧ paletteSize > 16 then
      Checked.raise ⟨.decodeError, s!"ZRLE palette of size {paletteSize} is not allowed"⟩
    else do
      let (palette, pos) ← checkedPalette widths tile data (pos + 1) paletteSize
      if rle then do
        let ((pixelData, numPixels), pos) ← checkedRuns widths tile palette data 0 [] pos
        if numPixels ≠ pixelsInTile then
          Checked.raise ⟨.decodeError, s!"ZRLE RLE tile at ({tile.x},{tile.y}) decoded {numPixels} " ++
            s!"pixels, wanted {pixelsInTile}"⟩
        else do
          let target ← target.checkedBlit tile.x tile.y tile.width tile.height pixelData
          .ok (target, pos)
      else if paletteSize = 0 then
        let need := pixelsInTile * widths.cbytes
        if pos + need > data.length then Checked.raise (short tile)
        else do
          let raw ← Checked.slice data pos (pos + need)
          let pixels ← checkedExpand raw pixelsInTile widths.cbytes widths.bypp widths.coffset
          let target ← target.checkedBlit tile.x tile.y tile.width tile.height pixels
          .ok (target, pos + need)
      else if paletteSize = 1 then do
        let colour ← Checked.item palette 0
        let target ← target.checkedFill tile.x tile.y tile.width tile.height colour
        .ok (target, pos)
      else do
        let (pixels, pos) ← checkedPacked palette tile widths.bypp data pos
        let target ← target.checkedBlit tile.x tile.y tile.width tile.height pixels
        .ok (target, pos)

/-- The tile loop. -/
def checkedTiles (pixelFormat : PixelFormat) (target : RectBuffer) (data : Bytes) :
    Checked PyErr (RectBuffer × ℕ) := do
  let widths : ZRLEWidths := ⟨pixelFormat.cpixelBytes, pixelFormat.cpixelOffset, target.bypp⟩
  let (target, pos) ← (tiles zrleTileSize target.width target.height).foldlM (m := Checked PyErr)
    (checkedTile widths data) (target, 0)
  if pos ≠ data.length then
    Checked.raise ⟨.decodeError,
      s!"ZRLE rectangle left {data.length - pos} bytes unconsumed after its tiles; " ++
      s!"cpixel_bytes={widths.cbytes} does not match what the server sent"⟩
  else .ok (target, pos)

end Decoders

end VncDoTool
