import VncDoTool.PixelFormat

/-!
# Pixel layouts

The rest of `pixelformat.py`: which Pillow raw mode reads a format, and the widths a format has in the
compressed pixels of ZRLE (CPIXEL) and Tight (TPIXEL).

* `PixelFormat.rawMode`: `raw_mode`, or the text of the `UnsupportedPixelFormat` it raises.
* `PixelFormat.cpixelBytes`, `PixelFormat.cpixelOffset`, `PixelFormat.tpixelBytes`.
* `PixelFormat.cpixelBytes_le`, `PixelFormat.tpixelBytes_le`: a compressed pixel is no wider than a
  pixel.
-/

namespace VncDoTool

/-- The Pillow raw modes a format may resolve to. -/
inductive RawMode : Type
  | rgbx | bgrx | xrgb | xbgr | rgb | bgr
  /-- `BGR;16`, `RGB;16`, `BGR;15`, `RGB;15` and `RGB;4B`. -/
  | bgr16 | rgb16 | bgr15 | rgb15 | rgb4b
  deriving DecidableEq, Repr

namespace PixelFormat

/-- `int.bit_length`. -/
def bitLength (n : ℕ) : ℕ := if n = 0 then 0 else n.log2 + 1

/-- `_channel_widths`, red first. -/
def channelWidths (pf : PixelFormat) : ℕ × ℕ × ℕ :=
  (bitLength pf.redmax, bitLength pf.greenmax, bitLength pf.bluemax)

/-- The shifts, red first. -/
def shifts (pf : PixelFormat) : ℕ × ℕ × ℕ := (pf.redshift, pf.greenshift, pf.blueshift)

/-- `str` of a tuple of three numbers. -/
def showTriple (t : ℕ × ℕ × ℕ) : String := s!"({t.1}, {t.2.1}, {t.2.2})"

/-- `_byte_positions`: the channel each byte of a pixel carries. A position before the pixel, which a
big-endian format may ask for, is kept as it is: it is an integer key. -/
def bytePositions (pf : PixelFormat) (nbytes : ℕ) : Except String (List (ℤ × Char)) :=
  [(pf.redshift, 'R'), (pf.greenshift, 'G'), (pf.blueshift, 'B')].foldlM (m := Except String)
    (fun positions (shift, channel) =>
      if shift % 8 ≠ 0 then .error s!"shift={shift} is not byte-aligned"
      else
        let pos : ℤ := (shift / 8 : ℕ)
        let pos := if ¬pf.bigendian then pos else nbytes - 1 - pos
        if (positions.lookup pos).isSome then .error s!"two channels share byte {pos}"
        else .ok (positions ++ [(pos, channel)])) []

/-- The mode string of a layout: a channel, or `X`, for each byte. -/
def layout (positions : List (ℤ × Char)) (nbytes : ℕ) : String :=
  String.ofList ((List.range nbytes).map fun i => (positions.lookup (i : ℤ)).getD 'X')

/-- `_32BPP_MODES`. -/
def modes32 : List (String × RawMode) :=
  [("RGBX", .rgbx), ("BGRX", .bgrx), ("XRGB", .xrgb), ("XBGR", .xbgr)]

/-- `_24BPP_MODES`. -/
def modes24 : List (String × RawMode) := [("RGB", .rgb), ("BGR", .bgr)]

/-- The 16-bit layouts: the widths and the shifts of the channels. -/
def modes16 : List (((ℕ × ℕ × ℕ) × ℕ × ℕ × ℕ) × RawMode) :=
  [(((5, 6, 5), (11, 5, 0)), .bgr16), (((5, 6, 5), (0, 5, 11)), .rgb16),
    (((5, 5, 5), (10, 5, 0)), .bgr15), (((5, 5, 5), (0, 5, 10)), .rgb15),
    (((4, 4, 4), (0, 4, 8)), .rgb4b)]

/-- The modes whose channels are whole bytes. -/
def rawModeOfBytes (pf : PixelFormat) (nbytes : ℕ) (modes : List (String × RawMode)) :
    Except String RawMode :=
  if pf.channelWidths ≠ (8, 8, 8) then
    .error s!"{pf.bpp}bpp channel widths {showTriple pf.channelWidths} unsupported"
  else do
    let positions ← pf.bytePositions nbytes
    let mode := layout positions nbytes
    match modes.lookup mode with
    | some rawMode => .ok rawMode
    | none => .error s!"{pf.bpp}bpp layout '{mode}' has no Pillow mode"

/-- `raw_mode`: the Pillow raw mode that reads bytes in this layout, ignoring depth. -/
def rawMode (pf : PixelFormat) : Except String RawMode :=
  if ¬pf.truecolor then .error "colour-mapped pixel formats are not supported"
  else if pf.bpp = 32 then pf.rawModeOfBytes 4 modes32
  else if pf.bpp = 24 then pf.rawModeOfBytes 3 modes24
  else if pf.bpp = 16 then
    if pf.bigendian then .error "big-endian 16bpp is not supported"
    else
      match modes16.lookup (pf.channelWidths, pf.shifts) with
      | some mode => .ok mode
      | none =>
        .error (s!"16bpp layout widths={showTriple pf.channelWidths} " ++
          s!"shifts={showTriple pf.shifts} has no Pillow mode")
  else .error s!"bpp={pf.bpp} is not supported"

/-! ## Compressed pixels -/

/-- Where the three bytes of a CPIXEL lie in the value of a pixel. -/
inductive Placement : Type
  | low | high
  deriving DecidableEq, Repr

/-- `_cpixel_placement`. -/
def cpixelPlacement (pf : PixelFormat) : Option Placement :=
  let widths := pf.channelWidths
  if pf.redshift + widths.1 ≤ 24 ∧ pf.greenshift + widths.2.1 ≤ 24 ∧
      pf.blueshift + widths.2.2 ≤ 24 then some .low
  else if 8 ≤ pf.redshift ∧ 8 ≤ pf.greenshift ∧ 8 ≤ pf.blueshift then some .high
  else none

/-- `cpixel_bytes`: 3 for a CPIXEL-eligible format, otherwise the width of a pixel. -/
def cpixelBytes (pf : PixelFormat) : ℕ :=
  if pf.truecolor ∧ pf.bpp = 32 ∧ pf.cpixelPlacement ≠ none then 3 else pf.bypp

/-- `cpixel_offset`: where the three bytes of a CPIXEL lie in a pixel. The placement is in the value
of a pixel and the offset in its bytes, so that big-endian reverses it. -/
def cpixelOffset (pf : PixelFormat) : ℕ :=
  if pf.cpixelBytes ≠ 3 then 0
  else
    let low : Bool := pf.cpixelPlacement = some .low
    if low ≠ pf.bigendian then 0 else pf.bypp - 3

/-- `tpixel_bytes`: 3 for a TPIXEL-eligible format, otherwise the width of a pixel. -/
def tpixelBytes (pf : PixelFormat) : ℕ :=
  if pf.truecolor ∧ pf.bpp = 32 ∧ pf.depth = 24 ∧ pf.channelWidths = (8, 8, 8) then 3 else pf.bypp

/-- `TPIXEL_FORMAT`: a TPIXEL is red, green, blue, whatever the negotiated format says. -/
def tpixelFormat : PixelFormat where
  bpp := 24

/-- `PIXEL_FORMATS["bgrx8888"]`. -/
def bgrx8888 : PixelFormat where
  redshift := 16
  blueshift := 0

/-- `PIXEL_FORMATS["rgbx8888"]`. -/
def rgbx8888 : PixelFormat := {}

/-- `PIXEL_FORMATS["rgb565"]`. -/
def rgb565 : PixelFormat where
  bpp := 16
  depth := 16
  redmax := 31
  greenmax := 63
  bluemax := 31
  redshift := 11
  greenshift := 5
  blueshift := 0

theorem bypp_of_bpp {pf : PixelFormat} (h : pf.bpp = 32) : pf.bypp = 4 := by
  unfold bypp
  rw [h]

/-- A CPIXEL is no wider than a pixel. -/
theorem cpixelBytes_le (pf : PixelFormat) : pf.cpixelBytes ≤ pf.bypp := by
  unfold cpixelBytes
  split_ifs with h
  · rw [bypp_of_bpp h.2.1]
    decide
  · exact Nat.le_refl _

/-- A TPIXEL is no wider than a pixel. -/
theorem tpixelBytes_le (pf : PixelFormat) : pf.tpixelBytes ≤ pf.bypp := by
  unfold tpixelBytes
  split_ifs with h
  · rw [bypp_of_bpp h.2.1]
    decide
  · exact Nat.le_refl _

/-- The format a client asks for in place of one it cannot read. -/
theorem rawMode_rgbx8888 : rgbx8888.rawMode = .ok .rgbx := by decide +kernel

end PixelFormat

end VncDoTool
