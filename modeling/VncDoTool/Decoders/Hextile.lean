import VncDoTool.Decoders.Base

/-!
# Hextile

`HextileDecoder` of `decoders/hextile.py`, RFC 6143 §7.7.4: a rectangle in tiles of 16 by 16 pixels,
each raw, or a background with subrectangles over it.

* `Decoders.hextileTile`: one tile; `Decoders.hextileDecodePixels`: all of them.
* `Decoders.hextileDecoder`: the decoder.
-/

namespace VncDoTool

namespace Decoders

open RFBClient Coroutine

/-- `TILE`. -/
def hextileTileSize : ℕ := 16

/-- The flags of a tile's subencoding. -/
structure HextileFlags : Type where
  raw : Bool
  backgroundSpecified : Bool
  foregroundSpecified : Bool
  anySubrects : Bool
  subrectsColored : Bool
  deriving DecidableEq, Repr

/-- The bits of `HextileEncoding`. -/
def HextileFlags.ofByte (subencoding : ℕ) : HextileFlags where
  raw := subencoding.testBit 0
  backgroundSpecified := subencoding.testBit 1
  foregroundSpecified := subencoding.testBit 2
  anySubrects := subencoding.testBit 3
  subrectsColored := subencoding.testBit 4

/-- The bytes that follow the subencoding of a tile that is not raw. -/
def HextileFlags.wanted (flags : HextileFlags) (bypp : ℕ) : ℕ :=
  (if flags.backgroundSpecified then bypp else 0) + (if flags.foregroundSpecified then bypp else 0) +
    if flags.anySubrects then 1 else 0

/-- The buffer, and the colours carried over from the tiles before. -/
structure HextileState : Type where
  target : RectBuffer
  background : Bytes := []
  foreground : Bytes := []

variable {codecs : Codecs} {S : Type}

/-- Paint one subrectangle of a tile, in a colour of its own if it is `coloured`. -/
def paintTileSubrect (tile : Rect) (coloured : Bool) (foreground : Bytes) (target : RectBuffer)
    (entry : Bytes) : Except PyErr RectBuffer :=
  let bypp := target.bypp
  let colour := if coloured then entry.take bypp else foreground
  let place := if coloured then entry.drop bypp else entry
  let xy := byteAt place 0
  let wh := byteAt place 1
  let sx := xy >>> 4
  let sy := xy &&& 0xF
  let sw := (wh >>> 4) + 1
  let sh := (wh &&& 0xF) + 1
  -- Against the tile: what overflows it may still lie inside the buffer.
  if sx + sw > tile.width ∨ sy + sh > tile.height then
    .error ⟨.decodeError,
      s!"subrectangle ({sx},{sy},{sw},{sh}) overflows a {tile.width}x{tile.height} tile"⟩
  else target.fill (tile.x + sx : ℕ) (tile.y + sy : ℕ) sw sh colour

/-- The subrectangles of a tile. -/
def hextileSubrects (flags : HextileFlags) (tile : Rect) (count : ℕ) (st : HextileState) :
    Gen (Decoding codecs) S HextileState := do
  let coloured := flags.subrectsColored
  if count ≠ 0 ∧ ¬coloured ∧ st.foreground = [] then
    Gen.raise .decodeError
      s!"tile at ({tile.x},{tile.y}) has no foreground, and no tile before it set one"
  else
    let size := if coloured then st.target.bypp + 2 else 2
    let data ← Gen.read (size * count)
    let target ← (List.range count).foldlM (fun target i => Gen.lift (RFBClient.ofExcept
      (paintTileSubrect tile coloured st.foreground target
        ((data.bytes.drop (i * size)).take size)))) st.target
    pure { st with target := target, foreground := if coloured then [] else st.foreground }

/-- A tile that is not raw, once its colours and the number of its subrectangles are read. -/
def hextileFill (flags : HextileFlags) (tile : Rect) (block : Bytes) (st : HextileState) :
    Gen (Decoding codecs) S HextileState := do
  let bypp := st.target.bypp
  let background := if flags.backgroundSpecified then block.take bypp else st.background
  let pos := if flags.backgroundSpecified then bypp else 0
  if background = [] then
    Gen.raise .decodeError
      s!"tile at ({tile.x},{tile.y}) has no background, and no tile before it set one"
  else
    let target ← Gen.lift (RFBClient.ofExcept
      (st.target.fill tile.x tile.y tile.width tile.height background))
    let foreground :=
      if flags.foregroundSpecified then (block.drop pos).take bypp else st.foreground
    let pos := if flags.foregroundSpecified then pos + bypp else pos
    let st : HextileState := ⟨target, background, foreground⟩
    if flags.anySubrects then hextileSubrects flags tile (byteAt block pos) st else pure st

/-- One tile. -/
def hextileTile (st : HextileState) (tile : Rect) : Gen (Decoding codecs) S HextileState := do
  let bypp := st.target.bypp
  let subencoding ← Gen.read 1
  let flags := HextileFlags.ofByte (byteAt subencoding.bytes 0)
  if flags.raw then
    let pixels ← Gen.read (tile.width * tile.height * bypp)
    let target ← Gen.lift (RFBClient.ofExcept
      (st.target.blit tile.x tile.y tile.width tile.height pixels.bytes))
    pure ⟨target, [], []⟩
  else
    let wanted := flags.wanted bypp
    if wanted = 0 then hextileFill flags tile [] st
    else
      let block ← Gen.read wanted
      hextileFill flags tile block.bytes st

/-- `HextileDecoder.decodePixels`. -/
def hextileDecodePixels (target : RectBuffer) (_ : PixelFormat) :
    Gen (Decoding codecs) S RectBuffer := do
  let st ← (tiles hextileTileSize target.width target.height).foldlM hextileTile { target := target }
  pure st.target

/-! ## The contract -/

theorem honours_hextileSubrects (flags : HextileFlags) (tile : Rect) (count : ℕ) (st : HextileState)
    (a : DAttrs codecs S) :
    ((hextileSubrects flags tile count st).run a).Honours contract anything a := by
  unfold hextileSubrects
  dsimp only
  split_ifs
  all_goals first
    | exact honours_raise
    | refine honours_bind (Q := anything) (honours_read _ fun _ _ => trivial) fun data a _ => ?_
      refine honours_bind (Q := anything)
        (honours_foldlM (fun target i a _ => honours_ofExcept fun _ _ => trivial) _ trivial)
        fun target a _ => ?_
      exact honours_pure trivial

theorem honours_hextileFill (flags : HextileFlags) (tile : Rect) (block : Bytes) (st : HextileState)
    (a : DAttrs codecs S) :
    ((hextileFill flags tile block st).run a).Honours contract anything a := by
  unfold hextileFill
  dsimp only
  by_cases hbackground :
      (if flags.backgroundSpecified then block.take st.target.bypp else st.background) = []
  · rw [if_pos hbackground]
    exact honours_raise
  · rw [if_neg hbackground]
    refine honours_bind (Q := anything) (honours_ofExcept fun _ _ => trivial) fun target a _ => ?_
    by_cases hsubrects : flags.anySubrects = true
    · rw [if_pos hsubrects]
      exact honours_hextileSubrects flags tile _ _ a
    · rw [if_neg hsubrects]
      exact honours_pure trivial

theorem honours_hextileTile (st : HextileState) (tile : Rect) (a : DAttrs codecs S) :
    ((hextileTile st tile).run a).Honours contract anything a := by
  unfold hextileTile
  refine honours_bind (Q := anything) (honours_read _ fun _ _ => trivial) fun subencoding a _ => ?_
  dsimp only
  split_ifs
  · refine honours_bind (Q := anything) (honours_read _ fun _ _ => trivial) fun pixels a _ => ?_
    refine honours_bind (Q := anything) (honours_ofExcept fun _ _ => trivial) fun target a _ => ?_
    exact honours_pure trivial
  · exact honours_hextileFill _ tile [] st a
  · refine honours_bind (Q := anything) (honours_read _ fun _ _ => trivial) fun block a _ => ?_
    exact honours_hextileFill _ tile block.bytes st a

theorem honours_hextileDecodePixels (target : RectBuffer) (pixelFormat : PixelFormat)
    (a : DAttrs codecs S) :
    ((hextileDecodePixels target pixelFormat).run a).Honours contract anything a := by
  unfold hextileDecodePixels
  refine honours_bind (Q := anything)
    (honours_foldlM (fun st tile a _ => honours_hextileTile st tile a) _ trivial) fun st a _ => ?_
  exact honours_pure trivial

def hextileDecoder (callback : RFBClient.Callback → Py (DAttrs codecs S) Unit) : Decoder callback :=
  ofHonours callback (pixelDecode hextileDecodePixels)
    (honours_pixelDecode honours_hextileDecodePixels)

end Decoders

end VncDoTool
