import VncDoTool.Lib.Fallible
import VncDoTool.PixelLayout
import Mathlib.Data.Nat.Bitwise
import Mathlib.Tactic.IntervalCases

/-!
# Pixels and intensities

What a pixel format says about the bytes of a pixel: the intensities of red, green and blue in it.

* `PixelFormat.pack`: the bytes of a pixel; `PixelFormat.intensities`: what they say.
* `PixelFormat.Separate`: the channels share no bits and lie in the pixel;
  `PixelFormat.intensities_pack`: then the intensities are found again.
* `RawMode.reads`: what Pillow finds in a pixel under a raw mode.
* `PixelFormat.reads_pack`: a mode that `raw_mode` finds reads the pixels of the format.
-/

namespace VncDoTool

/-! ## Numbers in bytes -/

/-- The `n` lowest bytes of a number, the lowest first. -/
def lowBytes : ℕ → ℕ → Bytes
  | 0, _ => []
  | n + 1, value => UInt8.ofNat value :: lowBytes n (value / 256)

/-- The number in some bytes, the lowest first. -/
def lowValue : Bytes → ℕ
  | [] => 0
  | b :: rest => b.toNat + 256 * lowValue rest

@[simp] theorem length_lowBytes (n value : ℕ) : (lowBytes n value).length = n := by
  induction n generalizing value with
  | zero => rfl
  | succ n ih => exact congrArg (· + 1) (ih (value / 256))

/-- A number that fits is read back. -/
theorem lowValue_lowBytes {n value : ℕ} (h : value < 2 ^ (8 * n)) :
    lowValue (lowBytes n value) = value := by
  induction n generalizing value with
  | zero =>
    have hzero : value = 0 := by
      rw [Nat.mul_zero, Nat.pow_zero] at h
      omega
    exact hzero.symm
  | succ n ih =>
    have hrest : value / 256 < 2 ^ (8 * n) := by
      rw [Nat.mul_succ, Nat.pow_add] at h
      exact Nat.div_lt_of_lt_mul (by rwa [Nat.mul_comm])
    rw [lowBytes, lowValue, ih hrest, UInt8.toNat_ofNat']
    omega

/-! ## Channels -/

/-- The intensity that a pixel has in a channel. -/
def channel (value shift max : ℕ) : ℕ := (value >>> shift) % 2 ^ PixelFormat.bitLength max

theorem lt_two_pow_bitLength (n : ℕ) : n < 2 ^ PixelFormat.bitLength n := by
  unfold PixelFormat.bitLength
  split_ifs with hzero
  · rw [hzero]
    exact Nat.one_pos
  · exact Nat.lt_log2_self

/-- Bits that lie elsewhere do not matter. -/
theorem testBit_shiftLeft_of_apart {x i shift shift' width width' : ℕ} (hx : x < 2 ^ width')
    (hi : i < width) (hapart : shift + width ≤ shift' ∨ shift' + width' ≤ shift) :
    (x <<< shift').testBit (shift + i) = false := by
  rw [Nat.testBit_shiftLeft]
  by_cases hle : shift' ≤ shift + i
  · have hhigh : x.testBit (shift + i - shift') = false := by
      refine Nat.testBit_lt_two_pow (lt_of_lt_of_le hx (Nat.pow_le_pow_right two_pos ?_))
      omega
    rw [hhigh, Bool.and_false]
  · rw [decide_eq_false hle, Bool.false_and]

namespace PixelFormat

/-- Intensities of red, green and blue. -/
abbrev Intensities : Type := ℕ × ℕ × ℕ

/-- The intensities are at most those that the format allows. -/
def Allows (pf : PixelFormat) (colour : Intensities) : Prop :=
  colour.1 ≤ pf.redmax ∧ colour.2.1 ≤ pf.greenmax ∧ colour.2.2 ≤ pf.bluemax

/-- The value of a pixel. -/
def value (pf : PixelFormat) (colour : Intensities) : ℕ :=
  colour.1 <<< pf.redshift ||| colour.2.1 <<< pf.greenshift ||| colour.2.2 <<< pf.blueshift

/-- The bytes of a pixel. -/
def pack (pf : PixelFormat) (colour : Intensities) : Bytes :=
  let bytes := lowBytes pf.bypp (pf.value colour)
  if pf.bigendian then bytes.reverse else bytes

/-- The intensities that the bytes of a pixel are. -/
def intensities (pf : PixelFormat) (pixel : Bytes) : Intensities :=
  let value := lowValue (if pf.bigendian then pixel.reverse else pixel)
  (channel value pf.redshift pf.redmax, channel value pf.greenshift pf.greenmax,
    channel value pf.blueshift pf.bluemax)

/-- Two channels share no bits. -/
def Apart (shift max shift' max' : ℕ) : Prop :=
  shift + bitLength max ≤ shift' ∨ shift' + bitLength max' ≤ shift

/-- The channels share no bits, and lie in the pixel. -/
structure Separate (pf : PixelFormat) : Prop where
  redGreen : Apart pf.redshift pf.redmax pf.greenshift pf.greenmax
  redBlue : Apart pf.redshift pf.redmax pf.blueshift pf.bluemax
  greenBlue : Apart pf.greenshift pf.greenmax pf.blueshift pf.bluemax
  red : pf.redshift + bitLength pf.redmax ≤ 8 * pf.bypp
  green : pf.greenshift + bitLength pf.greenmax ≤ 8 * pf.bypp
  blue : pf.blueshift + bitLength pf.bluemax ≤ 8 * pf.bypp

variable {pf : PixelFormat} {colour : Intensities}

/-- A channel among two others. -/
theorem channel_or {x y z s t u k m n : ℕ} (hx : x ≤ k) (hy : y ≤ m) (hz : z ≤ n)
    (hst : Apart s k t m) (hsu : Apart s k u n) :
    channel (x <<< s ||| y <<< t ||| z <<< u) s k = x := by
  have hpow : ∀ {i j : ℕ}, i ≤ j → i < 2 ^ bitLength j := fun hle =>
    lt_of_le_of_lt hle (lt_two_pow_bitLength _)
  unfold channel
  apply Nat.eq_of_testBit_eq
  intro i
  rw [Nat.testBit_mod_two_pow, Nat.testBit_shiftRight, Nat.testBit_or, Nat.testBit_or]
  by_cases hi : i < bitLength k
  · rw [testBit_shiftLeft_of_apart (hpow hy) hi hst, testBit_shiftLeft_of_apart (hpow hz) hi hsu,
      Nat.testBit_shiftLeft, decide_eq_true hi, decide_eq_true (Nat.le_add_right s i),
      Nat.add_sub_cancel_left]
    simp
  · rw [decide_eq_false hi, Bool.false_and, Nat.testBit_lt_two_pow]
    exact lt_of_lt_of_le (hpow hx) (Nat.pow_le_pow_right two_pos (Nat.not_lt.mp hi))

/-- Each channel of a pixel's value is the intensity that was put there. -/
theorem channel_value (hseparate : pf.Separate) (hcolour : pf.Allows colour) :
    channel (pf.value colour) pf.redshift pf.redmax = colour.1 ∧
      channel (pf.value colour) pf.greenshift pf.greenmax = colour.2.1 ∧
      channel (pf.value colour) pf.blueshift pf.bluemax = colour.2.2 := by
  obtain ⟨hred, hgreen, hblue⟩ := hcolour
  unfold value
  refine ⟨channel_or hred hgreen hblue hseparate.redGreen hseparate.redBlue, ?_, ?_⟩
  · rw [Nat.or_comm (colour.1 <<< pf.redshift)]
    exact channel_or hgreen hred hblue hseparate.redGreen.symm hseparate.greenBlue
  · rw [Nat.or_comm]
    rw [← Nat.or_assoc]
    exact channel_or hblue hred hgreen hseparate.redBlue.symm hseparate.greenBlue.symm

/-- A pixel's value has no more bits than its channels need. -/
theorem value_lt_two_pow {n : ℕ} (hred : pf.redshift + bitLength pf.redmax ≤ n)
    (hgreen : pf.greenshift + bitLength pf.greenmax ≤ n)
    (hblue : pf.blueshift + bitLength pf.bluemax ≤ n) (hcolour : pf.Allows colour) :
    pf.value colour < 2 ^ n := by
  have hchannel : ∀ {x shift max : ℕ}, x ≤ max → shift + bitLength max ≤ n →
      x <<< shift < 2 ^ n := by
    intro x shift max hle hfits
    have hx : x < 2 ^ bitLength max := lt_of_le_of_lt hle (lt_two_pow_bitLength max)
    rw [Nat.shiftLeft_eq]
    calc x * 2 ^ shift < 2 ^ bitLength max * 2 ^ shift :=
          Nat.mul_lt_mul_of_pos_right hx (Nat.two_pow_pos shift)
      _ = 2 ^ (shift + bitLength max) := by rw [← Nat.pow_add, Nat.add_comm]
      _ ≤ 2 ^ n := Nat.pow_le_pow_right two_pos hfits
  obtain ⟨hr, hg, hb⟩ := hcolour
  exact Nat.or_lt_two_pow (Nat.or_lt_two_pow (hchannel hr hred) (hchannel hg hgreen))
    (hchannel hb hblue)

/-- A pixel's value fits its bytes. -/
theorem value_lt (hseparate : pf.Separate) (hcolour : pf.Allows colour) :
    pf.value colour < 2 ^ (8 * pf.bypp) :=
  value_lt_two_pow hseparate.red hseparate.green hseparate.blue hcolour

/-- A pixel's value has no bits below its channels. -/
theorem value_mod_two_pow {n : ℕ} (hred : n ≤ pf.redshift) (hgreen : n ≤ pf.greenshift)
    (hblue : n ≤ pf.blueshift) : pf.value colour % 2 ^ n = 0 := by
  have hchannel : ∀ {x shift : ℕ}, n ≤ shift → x <<< shift % 2 ^ n = 0 := by
    intro x shift hle
    rw [Nat.shiftLeft_eq]
    exact Nat.mod_eq_zero_of_dvd ((Nat.pow_dvd_pow 2 hle).mul_left x)
  unfold value
  rw [Nat.or_mod_two_pow, Nat.or_mod_two_pow, hchannel hred, hchannel hgreen, hchannel hblue]
  rfl

/-- The intensities of a pixel are found again in its bytes. -/
theorem intensities_pack (hseparate : pf.Separate) (hcolour : pf.Allows colour) :
    pf.intensities (pf.pack colour) = colour := by
  have hvalue : lowValue (if pf.bigendian then (pf.pack colour).reverse else pf.pack colour) =
      pf.value colour := by
    unfold pack
    dsimp only
    split_ifs
    · rw [List.reverse_reverse, lowValue_lowBytes (value_lt hseparate hcolour)]
    · rw [lowValue_lowBytes (value_lt hseparate hcolour)]
  obtain ⟨hred, hgreen, hblue⟩ := channel_value hseparate hcolour
  unfold intensities
  dsimp only
  rw [hvalue, hred, hgreen, hblue]

@[simp] theorem length_pack (pf : PixelFormat) (colour : Intensities) :
    (pf.pack colour).length = pf.bypp := by
  unfold pack
  dsimp only
  split_ifs <;> simp

/-! ## The formats that are accepted -/

/-- Where the byte of a channel lies. -/
def position (pf : PixelFormat) (nbytes shift : ℕ) : ℤ :=
  if ¬pf.bigendian then (shift / 8 : ℕ) else nbytes - 1 - (shift / 8 : ℕ)

/-- What `_byte_positions` finds when it raises nothing. -/
theorem bytePositions_eq_ok {nbytes : ℕ} {positions : List (ℤ × Char)}
    (h : pf.bytePositions nbytes = .ok positions) :
    pf.redshift % 8 = 0 ∧ pf.greenshift % 8 = 0 ∧ pf.blueshift % 8 = 0 ∧
      positions = [(pf.position nbytes pf.redshift, 'R'), (pf.position nbytes pf.greenshift, 'G'),
        (pf.position nbytes pf.blueshift, 'B')] := by
  unfold bytePositions at h
  simp only [List.foldlM_cons, List.foldlM_nil, Fallible.bind_eq_ok] at h
  obtain ⟨one, hred, two, hgreen, three, hblue, hall⟩ := h
  obtain ⟨hredshift, -, rfl⟩ := Fallible.checks_eq_ok hred
  obtain ⟨hgreenshift, -, rfl⟩ := Fallible.checks_eq_ok hgreen
  obtain ⟨hblueshift, -, rfl⟩ := Fallible.checks_eq_ok hblue
  refine ⟨not_not.mp hredshift, not_not.mp hgreenshift, not_not.mp hblueshift, ?_⟩
  exact (Except.ok.inj hall).symm

/-- The letter of a byte. -/
theorem lookup_letter (r g b x : ℤ) :
    ([(r, 'R'), (g, 'G'), (b, 'B')].lookup x).getD 'X' =
      if x = r then 'R' else if x = g then 'G' else if x = b then 'B' else 'X' := by
  rw [List.lookup_cons, List.lookup_cons, List.lookup_cons, List.lookup_nil]
  simp only [beq_eq_decide]
  by_cases hr : x = r
  · rw [decide_eq_true hr, if_pos hr]
    rfl
  by_cases hg : x = g
  · rw [decide_eq_false hr, decide_eq_true hg, if_neg hr, if_pos hg]
    rfl
  by_cases hb : x = b
  · rw [decide_eq_false hr, decide_eq_false hg, decide_eq_true hb, if_neg hr, if_neg hg, if_pos hb]
    rfl
  · rw [decide_eq_false hr, decide_eq_false hg, decide_eq_false hb, if_neg hr, if_neg hg, if_neg hb]
    rfl

theorem toList_layout (positions : List (ℤ × Char)) (n : ℕ) :
    (layout positions n).toList =
      (List.range n).map fun i : ℕ => (positions.lookup (i : ℤ)).getD 'X' := by
  unfold layout
  rw [String.toList_ofList]
  simp only [List.bind_eq_flatMap, List.pure_def, List.map_flatMap, List.map_cons,
    List.map_nil]
  exact List.flatMap_pure_eq_map _ _

/-- A layout names the bytes of red, green and blue by their letters. -/
theorem placed_of_layout {r g b : ℤ} {n i j k : ℕ} {mode : String}
    (h : layout [(r, 'R'), (g, 'G'), (b, 'B')] n = mode) (hi : mode.toList[i]? = some 'R')
    (hj : mode.toList[j]? = some 'G') (hk : mode.toList[k]? = some 'B') :
    (r = i ∧ g = j ∧ b = k) ∧ i < n ∧ j < n ∧ k < n := by
  have hletter : ∀ {m : ℕ} {letter : Char}, mode.toList[m]? = some letter → m < n ∧
      (if (m : ℤ) = r then 'R' else if (m : ℤ) = g then 'G' else if (m : ℤ) = b then 'B' else 'X') =
        letter := by
    intro m letter hm
    rw [← h, toList_layout, List.getElem?_map] at hm
    obtain ⟨m', hm', hfound⟩ := Option.map_eq_some_iff.mp hm
    obtain ⟨hlt, rfl⟩ := List.getElem?_eq_some_iff.mp hm'
    rw [List.length_range] at hlt
    rw [List.getElem_range, lookup_letter] at hfound
    exact ⟨hlt, hfound⟩
  obtain ⟨hilt, hi⟩ := hletter hi
  obtain ⟨hjlt, hj⟩ := hletter hj
  obtain ⟨hklt, hk⟩ := hletter hk
  refine ⟨⟨?_, ?_, ?_⟩, hilt, hjlt, hklt⟩
  · split_ifs at hi with heq <;> first | exact heq.symm | exact absurd hi (by decide)
  · split_ifs at hj with hne heq <;> first | exact heq.symm | exact absurd hj (by decide)
  · split_ifs at hk with hne hne' heq <;> first | exact heq.symm | exact absurd hk (by decide)

/-! ## The bytes of the channels -/

theorem byteAt_lowBytes {n i : ℕ} (h : i < n) (value : ℕ) :
    byteAt (lowBytes n value) i = (value >>> (8 * i)) % 256 := by
  induction n generalizing i value with
  | zero => exact absurd h (Nat.not_lt_zero i)
  | succ n ih =>
    cases i with
    | zero =>
      show (UInt8.ofNat value).toNat = _
      rw [UInt8.toNat_ofNat', Nat.mul_zero, Nat.shiftRight_zero]
    | succ i =>
      have hrest : byteAt (lowBytes (n + 1) value) (i + 1) = byteAt (lowBytes n (value / 256)) i := rfl
      rw [hrest, ih (Nat.lt_of_succ_lt_succ h), Nat.mul_succ, Nat.add_comm, Nat.shiftRight_add,
        Nat.shiftRight_eq_div_pow value 8]

theorem byteAt_reverse {bytes : Bytes} {i : ℕ} (h : i < bytes.length) :
    byteAt bytes.reverse i = byteAt bytes (bytes.length - 1 - i) := by
  unfold byteAt
  rw [List.getD_eq_getElem?_getD, List.getD_eq_getElem?_getD, List.getElem?_reverse h]

/-- The byte at the place of a channel is its intensity. -/
theorem byteAt_pack {shift max i : ℕ} (hshift : shift % 8 = 0) (hmax : bitLength max = 8)
    (hposition : pf.position pf.bypp shift = i) (hi : i < pf.bypp) :
    byteAt (pf.pack colour) i = channel (pf.value colour) shift max := by
  have hbyte : ∀ {k : ℕ}, k < pf.bypp → shift / 8 = k →
      byteAt (lowBytes pf.bypp (pf.value colour)) k = channel (pf.value colour) shift max := by
    intro k hk heq
    have haligned : 8 * k = shift := by omega
    rw [byteAt_lowBytes hk, haligned, channel, hmax, show 256 = 2 ^ 8 from rfl]
  unfold position at hposition
  unfold pack
  dsimp only
  by_cases hbig : pf.bigendian = true
  · -- counted from the other end
    rw [if_neg (not_not_intro hbig)] at hposition
    rw [if_pos hbig, byteAt_reverse (by rwa [length_lowBytes]), length_lowBytes]
    exact hbyte (by omega) (by omega)
  · rw [if_pos hbig] at hposition
    rw [if_neg hbig]
    exact hbyte hi (by omega)

/-- Channels of a byte each at different places in the pixel. -/
theorem separate_of_placed {i j k : ℕ} (hwidths : pf.channelWidths = (8, 8, 8))
    (hred : pf.redshift % 8 = 0) (hgreen : pf.greenshift % 8 = 0) (hblue : pf.blueshift % 8 = 0)
    (hi : pf.position pf.bypp pf.redshift = i) (hj : pf.position pf.bypp pf.greenshift = j)
    (hk : pf.position pf.bypp pf.blueshift = k) (hplaces : i < pf.bypp ∧ j < pf.bypp ∧ k < pf.bypp)
    (hapart : i ≠ j ∧ i ≠ k ∧ j ≠ k) : pf.Separate := by
  obtain ⟨hr, hg, hb⟩ : bitLength pf.redmax = 8 ∧ bitLength pf.greenmax = 8 ∧
      bitLength pf.bluemax = 8 := by
    simpa only [channelWidths, Prod.mk.injEq] using hwidths
  unfold position at hi hj hk
  constructor <;> simp only [Apart, hr, hg, hb] <;> split_ifs at hi hj hk <;> omega

end PixelFormat

/-! ## Raw modes -/

namespace RawMode

/-- The bytes of red, green and blue. -/
def bytes (red green blue : ℕ) (pixel : Bytes) : PixelFormat.Intensities :=
  (byteAt pixel red, byteAt pixel green, byteAt pixel blue)

/-- The fields of red, green and blue in a little-endian pixel, by their shifts and their widths. -/
def fields (shifts widths : ℕ × ℕ × ℕ) (pixel : Bytes) : PixelFormat.Intensities :=
  let value := lowValue pixel
  ((value >>> shifts.1) % 2 ^ widths.1, (value >>> shifts.2.1) % 2 ^ widths.2.1,
    (value >>> shifts.2.2) % 2 ^ widths.2.2)

/-- The intensities that Pillow finds in a pixel, before it scales them to eight bits: the letters of a
mode name the bytes, and the modes of 16 bits are named for the fields of a little-endian pixel. -/
def reads : RawMode → Bytes → PixelFormat.Intensities
  | rgbx => bytes 0 1 2
  | bgrx => bytes 2 1 0
  | xrgb => bytes 1 2 3
  | xbgr => bytes 3 2 1
  | rgb => bytes 0 1 2
  | bgr => bytes 2 1 0
  | bgr16 => fields (11, 5, 0) (5, 6, 5)
  | rgb16 => fields (0, 5, 11) (5, 6, 5)
  | bgr15 => fields (10, 5, 0) (5, 5, 5)
  | rgb15 => fields (0, 5, 10) (5, 5, 5)
  | rgb4b => fields (0, 4, 8) (4, 4, 4)

/-- How many bytes a pixel has. -/
def width : RawMode → ℕ
  | rgbx | bgrx | xrgb | xbgr => 4
  | rgb | bgr => 3
  | bgr16 | rgb16 | bgr15 | rgb15 | rgb4b => 2

end RawMode

namespace PixelFormat

variable {pf : PixelFormat} {colour : Intensities} {mode : RawMode}

/-- A mode whose letters name the bytes of a format reads its pixels. -/
theorem reads_of_layout {n i j k : ℕ} {positions : List (ℤ × Char)} {letters : String}
    (hbypp : pf.bypp = n) (hwidths : pf.channelWidths = (8, 8, 8))
    (hpositions : pf.bytePositions n = .ok positions) (hlayout : layout positions n = letters)
    (hi : letters.toList[i]? = some 'R') (hj : letters.toList[j]? = some 'G')
    (hk : letters.toList[k]? = some 'B') :
    pf.Separate ∧
      ∀ colour, pf.Allows colour → RawMode.bytes i j k (pf.pack colour) = colour := by
  subst hbypp
  obtain ⟨hred, hgreen, hblue, rfl⟩ := bytePositions_eq_ok hpositions
  obtain ⟨⟨hr, hg, hb⟩, hplaces⟩ := placed_of_layout hlayout hi hj hk
  have hapart : i ≠ j ∧ i ≠ k ∧ j ≠ k := by
    refine ⟨?_, ?_, ?_⟩ <;> rintro rfl
    · exact absurd (hi.symm.trans hj) (by decide)
    · exact absurd (hi.symm.trans hk) (by decide)
    · exact absurd (hj.symm.trans hk) (by decide)
  have hseparate := separate_of_placed hwidths hred hgreen hblue hr hg hb hplaces hapart
  refine ⟨hseparate, fun colour hcolour => ?_⟩
  obtain ⟨hredmax, hgreenmax, hbluemax⟩ : bitLength pf.redmax = 8 ∧ bitLength pf.greenmax = 8 ∧
      bitLength pf.bluemax = 8 := by
    simpa only [channelWidths, Prod.mk.injEq] using hwidths
  obtain ⟨hvalue, hvalue', hvalue''⟩ := channel_value hseparate hcolour
  rw [RawMode.bytes, byteAt_pack hred hredmax hr hplaces.1, byteAt_pack hgreen hgreenmax hg hplaces.2.1,
    byteAt_pack hblue hbluemax hb hplaces.2.2, hvalue, hvalue', hvalue'']

/-- An entry that was found is in the table. -/
theorem mem_of_lookup_eq {α β : Type} [BEq α] [LawfulBEq α] {table : List (α × β)} {key : α}
    {found : β} (h : table.lookup key = some found) : (key, found) ∈ table := by
  obtain ⟨before, after, rfl, -⟩ := List.lookup_eq_some_iff.mp h
  exact List.mem_append_right before List.mem_cons_self

/-- The fields of a little-endian pixel are its channels. -/
theorem fields_pack {shifts widths : ℕ × ℕ × ℕ} (hlittle : ¬pf.bigendian = true)
    (hwidths : pf.channelWidths = widths) (hshifts : pf.shifts = shifts) (hseparate : pf.Separate) :
    pf.Separate ∧
      ∀ colour, pf.Allows colour → RawMode.fields shifts widths (pf.pack colour) = colour := by
  subst hwidths hshifts
  refine ⟨hseparate, fun colour hcolour => ?_⟩
  have hsame := intensities_pack hseparate hcolour
  unfold intensities at hsame
  rwa [if_neg hlittle] at hsame

/-- What a mode for channels of a byte each was found from. -/
theorem rawModeOfBytes_eq_ok {nbytes : ℕ} {modes : List (String × RawMode)}
    (h : pf.rawModeOfBytes nbytes modes = .ok mode) :
    pf.channelWidths = (8, 8, 8) ∧ ∃ positions letters, pf.bytePositions nbytes = .ok positions ∧
      layout positions nbytes = letters ∧ (letters, mode) ∈ modes := by
  unfold rawModeOfBytes at h
  split_ifs at h with hwidths
  obtain ⟨positions, hpositions, hmode⟩ := Fallible.bind_eq_ok.mp h
  refine ⟨not_not.mp hwidths, positions, _, hpositions, rfl, ?_⟩
  cases hfound : modes.lookup (layout positions nbytes) with
  | some found =>
    simp only [hfound] at hmode
    obtain rfl := Except.ok.inj hmode
    exact mem_of_lookup_eq hfound
  | none =>
    simp only [hfound] at hmode
    exact absurd hmode (by simp)

/-- What is known of a format that `raw_mode` accepts: the mode reads its pixels. -/
theorem reads_pack (h : pf.rawMode = .ok mode) :
    pf.bypp = mode.width ∧ pf.Separate ∧
      ∀ colour, pf.Allows colour → mode.reads (pf.pack colour) = colour := by
  unfold rawMode at h
  split_ifs at h with hcolour h32 h24 h16 hbig
  · -- four bytes
    obtain ⟨hwidths, positions, letters, hpositions, hlayout, hmem⟩ := rawModeOfBytes_eq_ok h
    have hbypp : pf.bypp = 4 := bypp_of_bpp h32
    simp only [modes32, List.mem_cons, Prod.mk.injEq, List.not_mem_nil, or_false] at hmem
    rcases hmem with ⟨rfl, rfl⟩ | ⟨rfl, rfl⟩ | ⟨rfl, rfl⟩ | ⟨rfl, rfl⟩
    · exact ⟨hbypp, reads_of_layout hbypp hwidths hpositions hlayout rfl rfl rfl⟩
    · exact ⟨hbypp, reads_of_layout hbypp hwidths hpositions hlayout rfl rfl rfl⟩
    · exact ⟨hbypp, reads_of_layout hbypp hwidths hpositions hlayout rfl rfl rfl⟩
    · exact ⟨hbypp, reads_of_layout hbypp hwidths hpositions hlayout rfl rfl rfl⟩
  · -- three bytes
    obtain ⟨hwidths, positions, letters, hpositions, hlayout, hmem⟩ := rawModeOfBytes_eq_ok h
    have hbypp : pf.bypp = 3 := by rw [bypp, h24]
    simp only [modes24, List.mem_cons, Prod.mk.injEq, List.not_mem_nil, or_false] at hmem
    rcases hmem with ⟨rfl, rfl⟩ | ⟨rfl, rfl⟩
    · exact ⟨hbypp, reads_of_layout hbypp hwidths hpositions hlayout rfl rfl rfl⟩
    · exact ⟨hbypp, reads_of_layout hbypp hwidths hpositions hlayout rfl rfl rfl⟩
  · -- two bytes, the lower first
    have hbypp : pf.bypp = 2 := by rw [bypp, h16]
    cases hfound : modes16.lookup (pf.channelWidths, pf.shifts) with
    | none =>
      simp only [hfound] at h
      exact absurd h (by simp)
    | some found =>
      simp only [hfound] at h
      obtain rfl := Except.ok.inj h
      have hmem := mem_of_lookup_eq hfound
      simp only [modes16, List.mem_cons, Prod.mk.injEq, List.not_mem_nil, or_false] at hmem
      have hseparate : pf.Separate := by
        constructor <;> simp only [Apart, hbypp] <;> simp only [channelWidths, shifts,
          Prod.mk.injEq] at hmem <;> omega
      rcases hmem with ⟨⟨hwidths, hshifts⟩, rfl⟩ | ⟨⟨hwidths, hshifts⟩, rfl⟩ |
        ⟨⟨hwidths, hshifts⟩, rfl⟩ | ⟨⟨hwidths, hshifts⟩, rfl⟩ | ⟨⟨hwidths, hshifts⟩, rfl⟩
      · exact ⟨hbypp, fields_pack hbig hwidths hshifts hseparate⟩
      · exact ⟨hbypp, fields_pack hbig hwidths hshifts hseparate⟩
      · exact ⟨hbypp, fields_pack hbig hwidths hshifts hseparate⟩
      · exact ⟨hbypp, fields_pack hbig hwidths hshifts hseparate⟩
      · exact ⟨hbypp, fields_pack hbig hwidths hshifts hseparate⟩

/-- `raw_mode` finds a mode that reads every pixel of the format, each intensity in its own channel, or
raises `UnsupportedPixelFormat`. -/
theorem rawMode_reads_or_refuses (pf : PixelFormat) :
    (∃ mode, pf.rawMode = .ok mode ∧
      ∀ colour, pf.Allows colour → mode.reads (pf.pack colour) = colour) ∨
    ∃ text, pf.rawMode = .error text := by
  cases hmode : pf.rawMode with
  | ok mode => exact .inl ⟨mode, rfl, (reads_pack hmode).2.2⟩
  | error text => exact .inr ⟨text, rfl⟩

/-- A colour of the sixteen-bit format, read as it was packed. -/
theorem rgb565_reads_or_refuses :
    (∃ mode, rgb565.rawMode = .ok mode ∧ mode.reads (rgb565.pack (17, 40, 3)) = (17, 40, 3)) ∨
    ∃ text, rgb565.rawMode = .error text := by
  rcases rawMode_reads_or_refuses rgb565 with ⟨mode, hmode, hreads⟩ | hrefuses
  · exact .inl ⟨mode, hmode, hreads (17, 40, 3) (by unfold Allows; decide)⟩
  · exact .inr hrefuses

/-- A TPIXEL is red, green and blue. -/
theorem intensities_tpixelFormat {pixel : Bytes} (h : pixel.length = 3) :
    tpixelFormat.intensities pixel = RawMode.bytes 0 1 2 pixel := by
  obtain ⟨r, g, b, rfl⟩ := List.length_eq_three.mp h
  have hr := r.toNat_lt
  have hg := g.toNat_lt
  have hb := b.toNat_lt
  have hwidth : bitLength 255 = 8 := by decide
  have hvalue : lowValue [r, g, b] = r.toNat + 256 * (g.toNat + 256 * b.toNat) := by
    simp only [lowValue, Nat.mul_zero, Nat.add_zero]
  show (channel (lowValue [r, g, b]) 0 255, channel (lowValue [r, g, b]) 8 255,
    channel (lowValue [r, g, b]) 16 255) = (r.toNat, g.toNat, b.toNat)
  unfold channel
  rw [hvalue, hwidth]
  simp only [Nat.shiftRight_eq_div_pow, Prod.mk.injEq]
  omega

end PixelFormat

end VncDoTool
