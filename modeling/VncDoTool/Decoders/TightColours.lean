import VncDoTool.Decoders.TightImages
import VncDoTool.PixelValues

/-!
# The colours Tight leaves

A server sends a TPIXEL of red, green and blue where the format has one, and otherwise a pixel of the
format. The decoder returns the pixels with the format that it says they have.

* `PixelFormat.TpixelEligible`, `PixelFormat.serverPixel`: what a server sends for a pixel.
* `Decoders.tight_names_layout_iff`: the format that is returned is right, except for three bytes in
  the order blue, green, red.
-/

namespace VncDoTool

open Raster (Picture render Sized ofRaster)

namespace PixelFormat

/-- The format has a TPIXEL: true colour, 32 bits for each pixel, depth 24 and three channels of eight
bits. -/
def TpixelEligible (pf : PixelFormat) : Prop :=
  pf.truecolor = true ∧ pf.bpp = 32 ∧ pf.depth = 24 ∧ pf.channelWidths = (8, 8, 8)

instance (pf : PixelFormat) : Decidable pf.TpixelEligible :=
  inferInstanceAs (Decidable (_ ∧ _ ∧ _ ∧ _))

/-- The bytes a server sends for a pixel. -/
def serverPixel (pf : PixelFormat) (colour : Intensities) : Bytes :=
  if pf.TpixelEligible then
    [UInt8.ofNat colour.1, UInt8.ofNat colour.2.1, UInt8.ofNat colour.2.2]
  else pf.pack colour

variable {pf : PixelFormat} {colour : Intensities} {mode : RawMode}

theorem tpixelBytes_eq : pf.tpixelBytes = if pf.TpixelEligible then 3 else pf.bypp := rfl

theorem length_serverPixel (pf : PixelFormat) (colour : Intensities) :
    (pf.serverPixel colour).length = pf.tpixelBytes := by
  rw [tpixelBytes_eq, serverPixel]
  split_ifs
  · rfl
  · exact length_pack pf colour

/-- Intensities of eight bits are those of the bytes they are sent as. -/
theorem bytes_serverPixel (heligible : pf.TpixelEligible) (hcolour : pf.Allows colour) :
    RawMode.bytes 0 1 2 (pf.serverPixel colour) = colour := by
  have hwidths := heligible.2.2.2
  obtain ⟨hr, hg, hb⟩ : bitLength pf.redmax = 8 ∧ bitLength pf.greenmax = 8 ∧
      bitLength pf.bluemax = 8 := by
    simpa only [channelWidths, Prod.mk.injEq] using hwidths
  have hbyte : ∀ {x max : ℕ}, x ≤ max → bitLength max = 8 → (UInt8.ofNat x).toNat = x := by
    intro x max hle hmax
    have hlt := lt_two_pow_bitLength max
    rw [hmax] at hlt
    rw [UInt8.toNat_ofNat', Nat.mod_eq_of_lt (by omega)]
  rw [serverPixel, if_pos heligible]
  show ((UInt8.ofNat colour.1).toNat, (UInt8.ofNat colour.2.1).toNat, (UInt8.ofNat colour.2.2).toNat) =
    colour
  rw [hbyte hcolour.1 hr, hbyte hcolour.2.1 hg, hbyte hcolour.2.2 hb]

/-- The format that is returned gives a pixel the intensities it was sent for, except that it takes
three bytes in the order blue, green, red for red, green, blue. -/
theorem intensities_serverPixel (hmode : pf.rawMode = .ok mode) (hcolour : pf.Allows colour) :
    (Decoders.tightOutputFormat pf).intensities (pf.serverPixel colour) = colour ↔
      (mode = .bgr → colour.1 = colour.2.2) := by
  obtain ⟨hbypp, hseparate, hreads⟩ := reads_pack hmode
  have hpixel := hreads colour hcolour
  unfold Decoders.tightOutputFormat
  by_cases heligible : pf.TpixelEligible
  · -- a TPIXEL
    have hthree : pf.tpixelBytes = 3 := by rw [tpixelBytes_eq, if_pos heligible]
    have hfour : mode ≠ .bgr := by
      rintro rfl
      rw [bypp_of_bpp heligible.2.1] at hbypp
      exact absurd hbypp (by decide)
    rw [if_pos hthree, intensities_tpixelFormat ((length_serverPixel pf colour).trans hthree),
      bytes_serverPixel heligible hcolour]
    exact ⟨fun _ hbgr => absurd hbgr hfour, fun _ => rfl⟩
  · rw [tpixelBytes_eq, if_neg heligible, serverPixel, if_neg heligible]
    by_cases hthree : pf.bypp = 3
    · -- a pixel of three bytes, which is taken for a TPIXEL
      rw [if_pos hthree, intensities_tpixelFormat ((length_pack pf colour).trans hthree)]
      rw [hthree] at hbypp
      cases mode with
      | rgb => exact ⟨fun _ hbgr => absurd hbgr (by decide), fun _ => hpixel⟩
      | bgr =>
        obtain ⟨r, g, b⟩ := colour
        obtain ⟨hr, hg, hb⟩ : byteAt (pf.pack (r, g, b)) 2 = r ∧ byteAt (pf.pack (r, g, b)) 1 = g ∧
            byteAt (pf.pack (r, g, b)) 0 = b := by
          simpa only [RawMode.reads, RawMode.bytes, Prod.mk.injEq] using hpixel
        rw [RawMode.bytes, hr, hg, hb]
        constructor
        · intro hsame _
          exact (congrArg (fun colour : Intensities => colour.2.2) hsame)
        · intro hsame
          have heq : r = b := hsame rfl
          rw [heq]
      | _ => exact absurd hbypp (by decide)
    · have hnot : mode ≠ .bgr := by
        rintro rfl
        exact hthree hbypp
      rw [if_neg hthree, intensities_pack hseparate hcolour]
      exact ⟨fun _ hbgr => absurd hbgr hnot, fun _ => rfl⟩

end PixelFormat

namespace Decoders

open RFBClient Coroutine PixelFormat

variable {codecs : Codecs} {S : Type}

/-- The format that is returned has TPIXELs of as many bytes as the format that was negotiated. -/
theorem bypp_tightOutputFormat {pf : PixelFormat} :
    (tightOutputFormat pf).bypp = pf.tpixelBytes := by
  unfold tightOutputFormat
  split_ifs with hthree
  · rw [hthree]
    rfl
  · rw [tpixelBytes_eq] at hthree ⊢
    split_ifs at hthree ⊢
    · exact absurd rfl hthree
    · rfl

/-- The pixels of a rectangle are right in the format that is returned with them, exactly where the
negotiated format is not of three bytes in the order blue, green, red, or red and blue agree. -/
theorem tight_names_layout_iff {pf : PixelFormat} {mode : RawMode} (hmode : pf.rawMode = .ok mode)
    {resets : ℕ} (hresets : resets < 16) {width height : ℕ} {image : ℕ → ℕ → Intensities}
    (himage : ∀ x, x < width → ∀ y, y < height → pf.Allows (image x y)) {form : TightForm}
    {a : DAttrs codecs S}
    (hform : form.Encodes codecs (streamsAfter a resets) pf.tpixelBytes width height
      fun x y => pf.serverPixel (image x y)) :
    ∃ bytes format a',
      Decodes (tightDecodeRect width height pf) a (form.serialise resets) (bytes, format) a' ∧
      ((∀ x, x < width → ∀ y, y < height →
          format.intensities (ofRaster format.bypp width bytes x y) = image x y) ↔
        (mode = .bgr → ∀ x, x < width → ∀ y, y < height → (image x y).1 = (image x y).2.2)) := by
  obtain ⟨hbypp, -, -⟩ := reads_pack hmode
  have hbounds : 1 ≤ pf.bypp ∧ pf.bypp ≤ 4 := by
    rw [hbypp]
    cases mode <;> decide
  obtain ⟨a', hdecodes⟩ := decodes_form hbounds hresets hform
  refine ⟨_, _, a', hdecodes, ?_⟩
  have hsized : Sized (tightOutputFormat pf).bypp width height fun x y => pf.serverPixel (image x y) := by
    intro x _ y _
    rw [bypp_tightOutputFormat]
    exact length_serverPixel pf (image x y)
  have hpixel : ∀ x, x < width → ∀ y, y < height →
      ((tightOutputFormat pf).intensities (ofRaster (tightOutputFormat pf).bypp width
          (render width height fun x y => pf.serverPixel (image x y)) x y) = image x y ↔
        (mode = .bgr → (image x y).1 = (image x y).2.2)) := by
    intro x hx y hy
    rw [Raster.ofRaster_render hsized hx hy]
    exact intensities_serverPixel hmode (himage x hx y hy)
  constructor
  · intro hright hbgr x hx y hy
    exact (hpixel x hx y hy).mp (hright x hx y hy) hbgr
  · intro hsame x hx y hy
    exact (hpixel x hx y hy).mpr fun hbgr => hsame hbgr x hx y hy

/-- A format of three bytes: blue, green, red. -/
abbrev bgr24 : PixelFormat := { bpp := 24, redshift := 16, greenshift := 8, blueshift := 0 }

theorem serverPixel_bgr24 : bgr24.serverPixel (255, 0, 0) = [0, 0, 255] := by decide

/-- A client with nothing decoded. -/
abbrev freshClient : DAttrs sampleCodecs Unit := { factory := {}, decoding := {}, own := () }

/-- A Fill of a colour that is not the same backwards. -/
theorem tight_names_layout_iff_bgr24 :
    ∃ bytes format a',
      Decodes (tightDecodeRect 2 1 bgr24) freshClient [128, 0, 0, 255] (bytes, format) a' ∧
      ((∀ x, x < 2 → ∀ y, y < 1 →
          format.intensities (ofRaster format.bypp 2 bytes x y) = (255, 0, 0)) ↔
        (RawMode.bgr = .bgr → ∀ x, x < 2 → ∀ y, y < 1 → (255 : ℕ) = 0)) := by
  have hmode : bgr24.rawMode = .ok .bgr := by decide +kernel
  exact @tight_names_layout_iff sampleCodecs Unit bgr24 .bgr hmode 0 (by decide) 2 1
    (fun _ _ => (255, 0, 0)) (fun _ _ _ _ => by unfold Allows; decide) (.fill [0, 0, 255]) freshClient
    ⟨by decide, fun _ _ _ _ => serverPixel_bgr24⟩

/-- Red is sent as a pixel of `bgr24`, and read as blue. -/
theorem tight_misnames_bgr24 :
    ¬∀ (pf : PixelFormat) (mode : RawMode), pf.rawMode = .ok mode →
      ∀ (width height : ℕ) (image : ℕ → ℕ → Intensities),
      (∀ x, x < width → ∀ y, y < height → pf.Allows (image x y)) →
      ∀ (form : TightForm) (bytes : Bytes) (format : PixelFormat) (a' : DAttrs sampleCodecs Unit),
      form.Encodes sampleCodecs (streamsAfter freshClient 0) pf.tpixelBytes width height
        (fun x y => pf.serverPixel (image x y)) →
      Decodes (tightDecodeRect width height pf) freshClient (form.serialise 0) (bytes, format) a' →
      ∀ x, x < width → ∀ y, y < height →
        format.intensities (ofRaster format.bypp width bytes x y) = image x y := by
  intro hclaim
  have hmode : bgr24.rawMode = .ok .bgr := by decide +kernel
  have hallows : bgr24.Allows (255, 0, 0) := by unfold Allows; decide
  have hform : (TightForm.fill [0, 0, 255]).Encodes sampleCodecs (streamsAfter freshClient 0)
      bgr24.tpixelBytes 1 1 fun _ _ => bgr24.serverPixel (255, 0, 0) :=
    ⟨by decide, fun _ _ _ _ => serverPixel_bgr24⟩
  obtain ⟨a', hdecodes⟩ := decodes_form (by decide) (by decide) hform
  have hread := hclaim bgr24 .bgr hmode 1 1 (fun _ _ => (255, 0, 0)) (fun _ _ _ _ => hallows) _ _ _ a'
    hform hdecodes 0 (by decide) 0 (by decide)
  exact absurd hread (by decide)

end Decoders

end VncDoTool
