import VncDoTool.Lib.ByteString

/-!
# Pixel formats

The `PixelFormat` structure of `pixelformat.py`, RFC 6143 §7.4, with its 16-byte wire form.
`fromBytes_toBytes` reads a written format back.
-/

namespace VncDoTool

/-- A pixel format; the defaults are those of the dataclass. -/
structure PixelFormat : Type where
  bpp : ℕ := 32
  depth : ℕ := 24
  bigendian : Bool := false
  truecolor : Bool := true
  redmax : ℕ := 255
  greenmax : ℕ := 255
  bluemax : ℕ := 255
  redshift : ℕ := 0
  greenshift : ℕ := 8
  blueshift : ℕ := 16
  deriving DecidableEq, Repr

namespace PixelFormat

/-- Bytes per pixel. -/
def bypp (pf : PixelFormat) : ℕ := (7 + pf.bpp) / 8

/-- `STRUCT.unpack`, the struct `!BB??HHHBBBxxx`. -/
def fromBytes (block : Block 16) : PixelFormat where
  bpp := byteAt block.bytes 0
  depth := byteAt block.bytes 1
  bigendian := byteAt block.bytes 2 ≠ 0
  truecolor := byteAt block.bytes 3 ≠ 0
  redmax := u16At block.bytes 4
  greenmax := u16At block.bytes 6
  bluemax := u16At block.bytes 8
  redshift := byteAt block.bytes 10
  greenshift := byteAt block.bytes 11
  blueshift := byteAt block.bytes 12

/-- A boolean field. -/
def packBool (b : Bool) : Bytes := [if b then 1 else 0]

/-- `STRUCT.pack`; `none` is the `struct.error` of a field out of range. -/
def toBytes (pf : PixelFormat) : Option Bytes := do
  let bpp ← pack8 pf.bpp
  let depth ← pack8 pf.depth
  let redmax ← pack16 pf.redmax
  let greenmax ← pack16 pf.greenmax
  let bluemax ← pack16 pf.bluemax
  let redshift ← pack8 pf.redshift
  let greenshift ← pack8 pf.greenshift
  let blueshift ← pack8 pf.blueshift
  pure (bpp ++ depth ++ packBool pf.bigendian ++ packBool pf.truecolor ++ redmax ++ greenmax ++
    bluemax ++ redshift ++ greenshift ++ blueshift ++ [0, 0, 0])

/-- The wire form is one block, and reads back as the format it was written from. -/
theorem fromBytes_toBytes {pf : PixelFormat} {b : Bytes} (h : pf.toBytes = some b) :
    ∃ block : Block 16, block.bytes = b ∧ fromBytes block = pf := by
  simp only [toBytes, Option.bind_eq_bind, Option.bind_eq_some_iff, Option.pure_def,
    Option.some.injEq] at h
  obtain ⟨bpp, hbpp, depth, hdepth, redmax, hredmax, greenmax, hgreenmax, bluemax, hbluemax,
    redshift, hredshift, greenshift, hgreenshift, blueshift, hblueshift, rfl⟩ := h
  obtain ⟨m₀, e₀, h₀, rfl⟩ := pack8_eq_some hbpp
  obtain ⟨m₁, e₁, h₁, rfl⟩ := pack8_eq_some hdepth
  obtain ⟨m₂, e₂, h₂, rfl⟩ := pack16_eq_some hredmax
  obtain ⟨m₃, e₃, h₃, rfl⟩ := pack16_eq_some hgreenmax
  obtain ⟨m₄, e₄, h₄, rfl⟩ := pack16_eq_some hbluemax
  obtain ⟨m₅, e₅, h₅, rfl⟩ := pack8_eq_some hredshift
  obtain ⟨m₆, e₆, h₆, rfl⟩ := pack8_eq_some hgreenshift
  obtain ⟨m₇, e₇, h₇, rfl⟩ := pack8_eq_some hblueshift
  refine ⟨.of _ (by simp [packBool]), Block.bytes_of _ _, ?_⟩
  obtain ⟨bpp, depth, bigendian, truecolor, redmax, greenmax, bluemax, redshift, greenshift,
    blueshift⟩ := pf
  simp only [Nat.cast_inj] at e₀ e₁ e₂ e₃ e₄ e₅ e₆ e₇
  subst e₀ e₁ e₂ e₃ e₄ e₅ e₆ e₇
  simp only [fromBytes, Block.bytes_of, packBool, be16, u16At, List.cons_append, List.nil_append,
    byteAt_cons_zero, byteAt_cons_succ, UInt8.toNat_ofNat', mk.injEq]
  refine ⟨by omega, by omega, ?_, ?_, by omega, by omega, by omega, by omega, by omega, by omega⟩
  · cases bigendian <;> rfl
  · cases truecolor <;> rfl

end PixelFormat

end VncDoTool
