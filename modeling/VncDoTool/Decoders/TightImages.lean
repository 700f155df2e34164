import VncDoTool.Decoders.Feeding
import VncDoTool.Decoders.Picture
import VncDoTool.Decoders.Stored
import VncDoTool.Decoders.Tight
import Mathlib.Data.List.GetD
import Mathlib.Data.Nat.Bitwise
import Mathlib.Tactic.IntervalCases

/-!
# The images Tight carries

The forms that FillCompression and BasicCompression give an image, the bytes of each, and what the
decoder makes of them.

* `compactBytes`: a length of up to 22 bits; `Codecs.Inflates`: a block that was deflated.
* `TightForm`: a fill, the pixels themselves, or indices into a palette; `TightForm.Encodes`: when it
  encodes an image; `TightForm.serialise`: its bytes.
* `Decoders.tight_decodes`: the decoder takes exactly those bytes and returns the image; an index
  without a colour is a `DecodeError`.
-/

namespace VncDoTool

open Raster (Picture render Sized)

/-! ## Lengths -/

/-- Seven bits in each of the first two bytes, the lowest first, and eight in the third. -/
def compactBytes (n : ℕ) : Bytes :=
  if n < 128 then [UInt8.ofNat n]
  else if n < 16384 then [UInt8.ofNat (n % 128 + 128), UInt8.ofNat (n / 128)]
  else [UInt8.ofNat (n % 128 + 128), UInt8.ofNat (n / 128 % 128 + 128), UInt8.ofNat (n / 16384)]

/-- The top bit of a byte says that another one follows. -/
theorem and_0x80_eq_zero_iff {n : ℕ} (h : n < 256) : n &&& 0x80 = 0 ↔ n < 128 := by
  revert n
  decide +kernel

theorem and_0x7F (n : ℕ) : n &&& 0x7F = n % 128 := Nat.and_two_pow_sub_one_eq_mod n 7

theorem or_shiftLeft {low high i : ℕ} (h : low < 2 ^ i) : low ||| high <<< i = low + high * 2 ^ i := by
  rw [Nat.or_comm, ← Nat.shiftLeft_add_eq_or_of_lt h, Nat.shiftLeft_eq, Nat.add_comm]

/-! ## Indices -/

/-- Eight bits in a byte, the first in the highest place. -/
def packBits (bits : ℕ → Bool) : ℕ :=
  ((List.range 8).map fun bit => if bits bit then 0x80 >>> bit else 0).sum

/-- The bits of a row that is padded to whole bytes; a bit is set for the second of two colours. -/
def packedIndices (index : ℕ → ℕ) (rowSize : ℕ) : Bytes :=
  (List.range rowSize).map fun j =>
    UInt8.ofNat (packBits fun bit => decide (index (j * 8 + bit) = 1))

/-- What the palette filter makes of indices: a bit for each if there are two colours, and otherwise
a byte. What the bits that pad a row are is the sender's choice. -/
def filteredIndices (size width height : ℕ) (index : ℕ → ℕ → ℕ) : Bytes :=
  if size = 2 then
    (List.range height).flatMap fun y => packedIndices (fun x => index x y) ((width + 7) / 8)
  else render width height fun x y => [UInt8.ofNat (index x y)]

/-- The bits of a byte are found in it. -/
theorem packBits_spec (bits : ℕ → Bool) :
    packBits bits < 256 ∧
      ∀ bit, bit < 8 → (packBits bits &&& (0x80 >>> bit) ≠ 0 ↔ bits bit = true) := by
  have hall : ∀ b₀ b₁ b₂ b₃ b₄ b₅ b₆ b₇ : Bool,
      packBits (fun bit => [b₀, b₁, b₂, b₃, b₄, b₅, b₆, b₇].getD bit false) < 256 ∧
        ∀ bit, bit < 8 →
          (packBits (fun bit => [b₀, b₁, b₂, b₃, b₄, b₅, b₆, b₇].getD bit false) &&&
              (0x80 >>> bit) ≠ 0 ↔ [b₀, b₁, b₂, b₃, b₄, b₅, b₆, b₇].getD bit false = true) := by
    decide +kernel
  -- only the first eight bits matter
  obtain ⟨hlt, hbits⟩ := hall (bits 0) (bits 1) (bits 2) (bits 3) (bits 4) (bits 5) (bits 6) (bits 7)
  refine ⟨hlt, fun bit hbit => (hbits bit hbit).trans ?_⟩
  interval_cases bit <;> exact Iff.rfl

/-! ## Blocks -/

/-- zlib makes a block into the data that was deflated into it: asked for at least as many bytes, it
returns those, and of the input that it leaves then it makes no more. -/
def Codecs.Inflates (codecs : Codecs) (stream : codecs.Stream) (block data : Bytes)
    (stream' : codecs.Stream) : Prop :=
  ∀ limit, limit ≠ 0 → data.length ≤ limit → ∃ rest stream₁,
    codecs.decompress stream block limit = .ok (data, rest, stream₁) ∧
    (rest = [] → stream₁ = stream') ∧
    (rest ≠ [] → ∀ more, more ≠ 0 → ∃ rest',
      codecs.decompress stream₁ rest more = .ok ([], rest', stream'))

/-- How filtered bytes are sent: as they are if there are few of them, and otherwise deflated. -/
inductive TightPayload (codecs : Codecs) (stream : codecs.Stream) (data : Bytes) : Bytes → Prop
  | plain (h : data.length < 12) : TightPayload codecs stream data data
  | deflated {block : Bytes} {stream' : codecs.Stream} (h : 12 ≤ data.length)
      (hblock : block.length ≤ 4194303) (hinflates : codecs.Inflates stream block data stream') :
      TightPayload codecs stream data (compactBytes block.length ++ block)

/-! ## Forms -/

/-- What a sender may make of an image: one colour, its pixels, or indices into a palette. -/
inductive TightForm : Type where
  | fill (colour : Bytes)
  | copy (explicit : Bool) (streamId : ℕ) (payload : Bytes)
  | palette (streamId : ℕ) (colours : List Bytes) (index : ℕ → ℕ → ℕ) (payload : Bytes)

namespace TightForm

/-- The compression control, which says what follows. -/
def control : TightForm → ℕ
  | fill _ => 8
  | copy explicit streamId _ => streamId + if explicit then 4 else 0
  | palette streamId _ _ _ => streamId + 4

/-- The bytes of a form, with the streams that it resets. -/
def serialise (resets : ℕ) (form : TightForm) : Bytes :=
  UInt8.ofNat (16 * form.control + resets) ::
    match form with
    | fill colour => colour
    | copy explicit _ payload => (if explicit then [0] else []) ++ payload
    | palette _ colours _ payload =>
      [1] ++ ([UInt8.ofNat (colours.length - 1)] ++ (colours.flatten ++ payload))

/-- The form is one of an image. The streams are those that the decoder will decompress with. -/
def Encodes (codecs : Codecs) (streams : ℕ → codecs.Stream) (tbytes width height : ℕ)
    (image : Picture UInt8) : TightForm → Prop
  | fill colour => colour.length = tbytes ∧ ∀ x, x < width → ∀ y, y < height → image x y = colour
  | copy _ streamId payload =>
    width ≤ 2048 ∧ streamId < 4 ∧ Sized tbytes width height image ∧
      TightPayload codecs (streams streamId) (render width height image) payload
  | palette streamId colours index payload =>
    width ≤ 2048 ∧ streamId < 4 ∧ 1 ≤ colours.length ∧ colours.length ≤ 256 ∧
      (∀ colour ∈ colours, colour.length = tbytes) ∧
      (∀ x, x < width → ∀ y, y < height → colours[index x y]? = some (image x y)) ∧
      TightPayload codecs (streams streamId) (filteredIndices colours.length width height index)
        payload

/-- The form has more than two colours, and indices that are bytes, of which one has no colour. -/
def Strays (codecs : Codecs) (streams : ℕ → codecs.Stream) (tbytes width height : ℕ) :
    TightForm → Prop
  | palette streamId colours index payload =>
    width ≤ 2048 ∧ streamId < 4 ∧ 2 < colours.length ∧ colours.length ≤ 256 ∧
      (∀ colour ∈ colours, colour.length = tbytes) ∧
      (∀ x, x < width → ∀ y, y < height → index x y < 256) ∧
      (∃ x, x < width ∧ ∃ y, y < height ∧ colours.length ≤ index x y) ∧
      TightPayload codecs (streams streamId) (filteredIndices colours.length width height index)
        payload
  | _ => False

end TightForm

namespace Decoders

open RFBClient Coroutine

variable {codecs : Codecs} {S : Type}

/-- A byte that was read. -/
theorem byteAt_read {n : ℕ} (h : n < 256) :
    byteAt (Block.of (n := 1) [UInt8.ofNat n] rfl).bytes 0 = n := by
  rw [Block.bytes_of, byteAt_ofNat h]

/-- A length is read back. -/
theorem decodes_compactLength {n : ℕ} (h : n ≤ 4194303) (a : DAttrs codecs S) :
    Decodes compactLength a (compactBytes n) n a := by
  unfold compactLength compactBytes
  split_ifs with hone htwo
  · -- one byte
    refine (decodes_read (b := [UInt8.ofNat n]) rfl a).bind_pure ?_
    dsimp only
    rw [byteAt_read (by omega), if_pos ((and_0x80_eq_zero_iff (by omega)).mpr hone), and_0x7F,
      Nat.mod_eq_of_lt hone]
    exact Consumes.pure n a
  · -- two bytes
    refine decodes_read_bind (b := [UInt8.ofNat (n % 128 + 128)]) rfl ?_
    dsimp only
    rw [byteAt_read (by omega), if_neg (mt (and_0x80_eq_zero_iff (by omega)).mp (by omega))]
    refine (decodes_read (b := [UInt8.ofNat (n / 128)]) rfl a).bind_pure ?_
    rw [byteAt_read (by omega), if_pos ((and_0x80_eq_zero_iff (by omega)).mpr (by omega)),
      and_0x7F, and_0x7F, or_shiftLeft (by omega)]
    have hvalue : (n % 128 + 128) % 128 + n / 128 % 128 * 2 ^ 7 = n := by omega
    rw [hvalue]
    exact Consumes.pure n a
  · -- three bytes
    refine decodes_read_bind (b := [UInt8.ofNat (n % 128 + 128)]) rfl ?_
    dsimp only
    rw [byteAt_read (by omega), if_neg (mt (and_0x80_eq_zero_iff (by omega)).mp (by omega))]
    refine decodes_read_bind (b := [UInt8.ofNat (n / 128 % 128 + 128)]) rfl ?_
    rw [byteAt_read (by omega), if_neg (mt (and_0x80_eq_zero_iff (by omega)).mp (by omega))]
    refine (decodes_read (b := [UInt8.ofNat (n / 16384)]) rfl a).bind_pure ?_
    have hlow : (n % 128 + 128) % 128 ||| ((n / 128 % 128 + 128) % 128) <<< 7 =
        (n % 128 + 128) % 128 + (n / 128 % 128 + 128) % 128 * 2 ^ 7 := or_shiftLeft (by omega)
    rw [byteAt_read (by omega), and_0x7F, and_0x7F, hlow, or_shiftLeft (by omega)]
    have hvalue : (n % 128 + 128) % 128 + (n / 128 % 128 + 128) % 128 * 2 ^ 7 +
        n / 16384 * 2 ^ 14 = n := by omega
    rw [hvalue]
    exact Consumes.pure n a

/-! ## Payloads -/

/-- What was deflated is inflated. -/
theorem decompressLoop_of_inflates {streamId : ℕ} {stream stream' : codecs.Stream}
    {block data : Bytes} (hdata : 0 < data.length)
    (hinflates : codecs.Inflates stream block data stream') :
    decompressLoop codecs streamId data.length stream [] block = .ok (data, stream') := by
  obtain ⟨rest, stream₁, hfirst, hdone, hmore⟩ :=
    hinflates data.length (Nat.pos_iff_ne_zero.mp hdata) (Nat.le_refl _)
  have hnone : ([] : Bytes).length < data.length := hdata
  rw [decompressLoop, dif_pos hnone]
  split
  next message hstep =>
    rw [List.length_nil, Nat.sub_zero, hfirst] at hstep
    exact absurd hstep (by simp)
  next out tail stream₂ hstep =>
    rw [List.length_nil, Nat.sub_zero, hfirst] at hstep
    obtain ⟨rfl, rfl, rfl⟩ : data = out ∧ rest = tail ∧ stream₁ = stream₂ := by simpa using hstep
    split_ifs with hrest
    · rw [hdone hrest, List.nil_append]
    · -- what is left, a sync-flush marker perhaps, makes no more
      obtain ⟨rest', hnothing⟩ := hmore hrest 1 (by decide)
      rw [List.nil_append, decompressLoop, dif_neg (Nat.lt_irrefl _), hnothing]
      rfl

/-- The object that a stream decompresses with: a new one if it was reset. -/
def streamAt (a : DAttrs codecs S) (streamId : ℕ) : codecs.Stream :=
  (a.decoding.streams.getD streamId none).getD codecs.decompressobj

/-- The client, with the object that a stream decompresses with. -/
def keepStream (a : DAttrs codecs S) (streamId : ℕ) (stream : codecs.Stream) : DAttrs codecs S :=
  { a with decoding :=
    { a.decoding with streams := a.decoding.streams.set streamId (some stream) } }

theorem decodes_tightDecompress {streamId : ℕ} {stream' : codecs.Stream} {block data : Bytes}
    {a : DAttrs codecs S} (hdata : 0 < data.length)
    (hinflates : codecs.Inflates (streamAt a streamId) block data stream') :
    Decodes (tightDecompress streamId block data.length) a [] data
      (keepStream a streamId stream') := by
  unfold tightDecompress
  refine (Consumes.get a).bind_nil ?_
  refine decodes_ofExcept_bind (decompressLoop_of_inflates hdata hinflates) ?_
  refine (Consumes.modify _ a).bind_nil ?_
  rw [if_neg (not_not_intro rfl)]
  exact Consumes.pure data _

/-- The filtered bytes. -/
theorem decodes_tightData {streamId : ℕ} {data wire : Bytes} {a : DAttrs codecs S}
    (h : TightPayload codecs (streamAt a streamId) data wire) :
    ∃ a', Decodes (tightData streamId data.length) a wire data a' := by
  unfold tightData
  cases h with
  | plain hfew =>
    split_ifs with hzero
    · rw [List.length_eq_zero_iff.mp hzero]
      exact ⟨a, Consumes.pure [] a⟩
    · exact ⟨a, (decodes_read rfl a).bind_pure (Consumes.pure data a)⟩
    · exact absurd hfew ‹_›
  | @deflated block stream' hmany hblock hinflates =>
    have hcompressed : ¬data.length < minToCompress := Nat.not_lt.mpr hmany
    rw [if_neg (by omega), if_neg hcompressed]
    refine ⟨keepStream a streamId stream', (decodes_compactLength hblock a).bind ?_⟩
    exact (decodes_read rfl a).bind_pure (decodes_tightDecompress (by omega) hinflates)

/-! ## Palettes -/

/-- The pixels of a row of bits, those of its padding behind. -/
theorem flatMap_packedIndices (zero one : Bytes) (index : ℕ → ℕ) (rowSize : ℕ) :
    ((packedIndices index rowSize).flatMap fun b => monoPixels zero one b.toNat) =
      (List.range (rowSize * 8)).flatMap fun x => if index x = 1 then one else zero := by
  unfold packedIndices
  rw [List.flatMap_map, Raster.flatMap_range_mul]
  apply List.flatMap_congr
  intro j _
  obtain ⟨hlt, hbits⟩ := packBits_spec fun bit => decide (index (j * 8 + bit) = 1)
  unfold monoPixels
  apply List.flatMap_congr
  intro bit hbit
  have hset := hbits bit (List.mem_range.mp hbit)
  rw [decide_eq_true_eq] at hset
  rw [UInt8.toNat_ofNat', Nat.mod_eq_of_lt (by omega)]
  exact if_congr hset rfl rfl

theorem length_filteredIndices_two (width height : ℕ) (index : ℕ → ℕ → ℕ) :
    (filteredIndices 2 width height index).length = height * ((width + 7) / 8) := by
  rw [filteredIndices, if_pos rfl]
  refine Raster.length_flatMap_range fun y _ => ?_
  rw [packedIndices, List.length_map, List.length_range]

theorem length_filteredIndices {size : ℕ} (hsize : size ≠ 2) (width height : ℕ)
    (index : ℕ → ℕ → ℕ) : (filteredIndices size width height index).length = height * width := by
  have hsized : Sized 1 width height fun x y => [UInt8.ofNat (index x y)] := fun _ _ _ _ => rfl
  rw [filteredIndices, if_neg hsize, Raster.length_render hsized, Nat.mul_one, Nat.mul_comm]

/-- Two colours. -/
theorem unpalette_two {zero one : Bytes} {width height t : ℕ} (hzero : zero.length = t)
    (hone : one.length = t) (ht : 0 < t) (index : ℕ → ℕ → ℕ) :
    unpalette codecs (filteredIndices 2 width height index) [zero, one] width height
        ((width + 7) / 8) =
      .ok (render width height fun x y => if index x y = 1 then one else zero) := by
  have hsized : ∀ x y, (if index x y = 1 then one else zero).length = t := by
    intro x y
    split_ifs
    · exact hone
    · exact hzero
  -- the pixels of each row, with those of its padding
  let row (y : ℕ) : Bytes :=
    (List.range ((width + 7) / 8 * 8)).flatMap fun x => if index x y = 1 then one else zero
  have hrow : ∀ y, (row y).length = (width + 7) / 8 * 8 * t := fun y =>
    Raster.length_flatMap_range fun x _ => hsized x y
  have htake : ∀ y, (row y).take (width * t) =
      (List.range width).flatMap fun x => if index x y = 1 then one else zero := fun y =>
    Raster.take_flatMap_range (fun x _ => hsized x y) (by omega)
  have hpixels : (((List.range height).flatMap fun y =>
      packedIndices (fun x => index x y) ((width + 7) / 8)).flatMap fun b =>
        monoPixels zero one b.toNat) = (List.range height).flatMap row := by
    rw [List.flatMap_assoc]
    exact List.flatMap_congr fun y _ => flatMap_packedIndices zero one _ _
  unfold unpalette filteredIndices
  rw [if_pos rfl]
  dsimp only
  rw [hpixels, hzero]
  split_ifs with hempty hwhole
  · -- nothing is sent for a rectangle without pixels
    have hnone : height * ((width + 7) / 8) = 0 := by
      rw [← length_filteredIndices_two width height index, filteredIndices, if_pos rfl, hempty]
      rfl
    have hpixels : width * height = 0 := by
      rcases Nat.mul_eq_zero.mp hnone with hheight | hwidth
      · rw [hheight, Nat.mul_zero]
      · rw [show width = 0 by omega, Nat.zero_mul]
    have hlength := Raster.length_render (w := width) (h := height) fun x _ y _ => hsized x y
    rw [hpixels, Nat.zero_mul] at hlength
    exact congrArg Except.ok (List.length_eq_zero_iff.mp hlength).symm
  · -- no row is padded
    have hwidth : (width + 7) / 8 * 8 = width := Nat.eq_of_mul_eq_mul_right ht hwhole
    refine congrArg Except.ok (List.flatMap_congr fun y _ => ?_)
    rw [← htake y, ← hwhole, ← hrow y, List.take_length]
  · refine congrArg Except.ok (List.flatMap_congr fun y hy => ?_)
    have hpiece := Raster.piece_flatMap_range (fun y _ => hrow y) (List.mem_range.mp hy)
    rw [← htake y, ← hpiece, List.take_take, Nat.min_eq_left (Nat.mul_le_mul_right t (by omega))]

theorem length_headD {palette : List Bytes} {t : ℕ} (hpalette : ∀ entry ∈ palette, entry.length = t)
    (hsome : 1 ≤ palette.length) : (palette.headD []).length = t := by
  cases palette with
  | nil => exact absurd hsome (by simp)
  | cons entry rest => exact hpalette entry List.mem_cons_self

theorem length_paletteTables {palette : List Bytes} {t : ℕ}
    (hpalette : ∀ entry ∈ palette, entry.length = t) (hsome : 1 ≤ palette.length) :
    (paletteTables palette).1.length = t := by
  unfold paletteTables
  rw [List.length_map, List.length_range, length_headD hpalette hsome]

/-- The palette's tables agree with looking an index up. -/
theorem map_paletteTables {palette : List Bytes} {t i : ℕ}
    (hpalette : ∀ entry ∈ palette, entry.length = t) (hi : i < palette.length) :
    ((paletteTables palette).1.map fun channel => channel.getD i 0) = palette.getD i [] := by
  have hentry : (palette[i]).length = t := hpalette _ (List.getElem_mem hi)
  unfold paletteTables
  dsimp only
  rw [length_headD hpalette (Nat.one_le_of_lt hi), List.map_map, List.getD_eq_getElem _ _ hi]
  apply List.ext_getElem
  · rw [List.length_map, List.length_range, hentry]
  · intro offset hoffset hoffset'
    rw [List.getElem_map, List.getElem_range, Function.comp_apply,
      List.getD_append _ _ _ _ (by simpa using hi), List.getD_eq_getElem _ _ (by simpa using hi),
      List.getElem_map, List.getD_eq_getElem _ _ hoffset']

/-- The indices that are defined. -/
theorem mem_defined_iff {palette : List Bytes} (hsize : palette.length ≤ 256) (b : UInt8) :
    b ∈ (paletteTables palette).2 ↔ b.toNat < palette.length := by
  unfold paletteTables
  rw [List.mem_map]
  constructor
  · rintro ⟨i, hi, rfl⟩
    have hlt : i < palette.length := List.mem_range.mp hi
    rwa [UInt8.toNat_ofNat', Nat.mod_eq_of_lt (by omega)]
  · intro hlt
    exact ⟨b.toNat, List.mem_range.mpr hlt, UInt8.ofNat_toNat⟩

/-- Another number of colours: each index is looked up, in tables for each channel. -/
theorem unpalette_many {palette : List Bytes} {data : Bytes} {width height rowSize t : ℕ}
    (htwo : palette.length ≠ 2) (hsome : 1 ≤ palette.length) (hsize : palette.length ≤ 256)
    (hpalette : ∀ entry ∈ palette, entry.length = t) (ht : 1 ≤ t ∧ t ≤ 4)
    (hdata : ∀ b ∈ data, b.toNat < palette.length) (hlength : data.length = width * height) :
    unpalette codecs data palette width height rowSize =
      .ok (data.flatMap fun b => palette.getD b.toNat []) := by
  have hdefined : (data.filter fun b => b ∉ (paletteTables palette).2) = [] := by
    rw [List.filter_eq_nil_iff]
    intro b hb
    rw [decide_eq_true_eq, not_not]
    exact (mem_defined_iff hsize b).mpr (hdata b hb)
  have hchannels := length_paletteTables hpalette hsome
  have hlookup := fun b hb => map_paletteTables hpalette (hdata b hb)
  unfold unpalette
  split_ifs with hempty
  · rw [hempty]
    rfl
  · split
    · exact absurd rfl htwo
    · dsimp only
      rw [if_neg (not_not_intro hdefined)]
      generalize (paletteTables palette).1 = channels at *
      split
      next channel =>
        -- one channel is translated
        refine congrArg Except.ok ?_
        rw [translate, List.map_eq_flatMap]
        exact List.flatMap_congr fun b hb => hlookup b hb
      next hone =>
        -- more of them are merged
        have hmode : channels.length ∈ [2, 3, 4] := by
          have hnot : channels.length ≠ 1 := fun h => by
            obtain ⟨channel, rfl⟩ := List.length_eq_one_iff.mp h
            exact hone channel rfl
          rw [hchannels] at hnot ⊢
          simp only [List.mem_cons, List.not_mem_nil, or_false]
          omega
        rw [if_neg (not_not_intro hmode), codecs.interleaves]
        · refine congrArg Except.ok ?_
          rw [← hlength, ← Raster.flatMap_range_getD _ data 0]
          apply List.flatMap_congr
          intro i hi
          have hlt : i < data.length := List.mem_range.mp hi
          have hmem : data.getD i 0 ∈ data := by
            rw [List.getD_eq_getElem _ _ hlt]
            exact List.getElem_mem hlt
          rw [← hlookup _ hmem, List.map_map]
          apply List.map_congr_left
          intro channel _
          rw [Function.comp_apply, translate, List.getD_eq_getElem _ _ (by simpa using hlt),
            List.getElem_map, List.getD_eq_getElem _ _ hlt]
        · intro band hband
          obtain ⟨channel, -, rfl⟩ := List.mem_map.mp hband
          rw [translate, List.length_map, hlength]
        · rwa [List.length_map]

/-- An index that the palette does not define. -/
theorem unpalette_strays (codecs : Codecs) (width height rowSize : ℕ) {palette : List Bytes}
    {data : Bytes} (htwo : palette.length ≠ 2) (hsize : palette.length ≤ 256) {b : UInt8} (hb : b ∈ data)
    (hstray : palette.length ≤ b.toNat) :
    ∃ text, unpalette codecs data palette width height rowSize = .error ⟨.decodeError, text⟩ := by
  have hleft : (data.filter fun b => b ∉ (paletteTables palette).2) ≠ [] := by
    refine List.ne_nil_of_mem (List.mem_filter.mpr ⟨hb, ?_⟩)
    rw [decide_eq_true_eq, mem_defined_iff hsize]
    omega
  unfold unpalette
  rw [if_neg (List.ne_nil_of_mem hb)]
  split
  · exact absurd rfl htwo
  · exact ⟨_, if_pos hleft⟩

/-- The indices of an image, looked up. -/
theorem flatMap_filteredIndices {colours : List Bytes} {width height : ℕ} {index : ℕ → ℕ → ℕ}
    {image : Picture UInt8} (htwo : colours.length ≠ 2) (hsize : colours.length ≤ 256)
    (hindex : ∀ x, x < width → ∀ y, y < height → colours[index x y]? = some (image x y)) :
    (∀ b ∈ filteredIndices colours.length width height index, b.toNat < colours.length) ∧
      ((filteredIndices colours.length width height index).flatMap fun b =>
        colours.getD b.toNat []) = render width height image := by
  have hbyte : ∀ x, x < width → ∀ y, y < height →
      (UInt8.ofNat (index x y)).toNat = index x y ∧ index x y < colours.length := by
    intro x hx y hy
    obtain ⟨hlt, -⟩ := List.getElem?_eq_some_iff.mp (hindex x hx y hy)
    exact ⟨by rw [UInt8.toNat_ofNat', Nat.mod_eq_of_lt (by omega)], hlt⟩
  rw [filteredIndices, if_neg htwo]
  unfold render
  constructor
  · intro b hb
    obtain ⟨y, hy, hrow⟩ := List.mem_flatMap.mp hb
    obtain ⟨x, hx, hpixel⟩ := List.mem_flatMap.mp hrow
    obtain rfl := List.mem_singleton.mp hpixel
    obtain ⟨hvalue, hlt⟩ := hbyte x (List.mem_range.mp hx) y (List.mem_range.mp hy)
    rwa [hvalue]
  · rw [List.flatMap_assoc]
    refine List.flatMap_congr fun y hy => ?_
    rw [List.flatMap_assoc]
    refine List.flatMap_congr fun x hx => ?_
    obtain ⟨hvalue, -⟩ := hbyte x (List.mem_range.mp hx) y (List.mem_range.mp hy)
    rw [List.flatMap_singleton, hvalue, List.getD_eq_getElem?_getD,
      hindex x (List.mem_range.mp hx) y (List.mem_range.mp hy), Option.getD_some]

/-- An image in a palette comes out of its indices. -/
theorem unpalette_filteredIndices (codecs : Codecs) {colours : List Bytes} {width height t : ℕ}
    {index : ℕ → ℕ → ℕ} {image : Picture UInt8} (hcount : 1 ≤ colours.length)
    (hsize : colours.length ≤ 256) (hcolours : ∀ colour ∈ colours, colour.length = t)
    (ht : 1 ≤ t ∧ t ≤ 4)
    (hindex : ∀ x, x < width → ∀ y, y < height → colours[index x y]? = some (image x y)) :
    unpalette codecs (filteredIndices colours.length width height index) colours width height
        (if colours.length = 2 then (width + 7) / 8 else width) =
      .ok (render width height image) := by
  by_cases htwo : colours.length = 2
  · obtain ⟨zero, one, rfl⟩ := List.length_eq_two.mp htwo
    rw [htwo, if_pos rfl, unpalette_two (hcolours zero (by simp)) (hcolours one (by simp)) ht.1]
    refine congrArg Except.ok (Raster.render_congr fun x hx y hy => ?_)
    have hpixel := hindex x hx y hy
    obtain ⟨hlt, -⟩ := List.getElem?_eq_some_iff.mp hpixel
    have hbit : index x y = 0 ∨ index x y = 1 := by
      rw [htwo] at hlt
      omega
    rcases hbit with hzero | hone
    · rw [hzero] at hpixel ⊢
      exact Option.some.inj hpixel
    · rw [hone] at hpixel ⊢
      exact Option.some.inj hpixel
  · obtain ⟨hdefined, hlookup⟩ := flatMap_filteredIndices htwo hsize hindex
    rw [if_neg htwo, unpalette_many htwo (by omega) hsize hcolours ht hdefined
      ((length_filteredIndices htwo width height index).trans (Nat.mul_comm _ _)), hlookup]

/-! ## Rectangles -/

/-- The objects that the streams decompress with once some of them are reset. -/
def streamsAfter (a : DAttrs codecs S) (resets streamId : ℕ) : codecs.Stream :=
  if resets.testBit streamId then codecs.decompressobj else streamAt a streamId

/-- The low bits of a control byte. -/
theorem and_one_shiftLeft {control resets streamId : ℕ} (hstream : streamId < 4) :
    (16 * control + resets) &&& (1 <<< streamId) ≠ 0 ↔ resets.testBit streamId = true := by
  have hlow : (16 * control + resets).testBit streamId = resets.testBit streamId := by
    have hmod : (16 * control + resets) % 2 ^ 4 = resets % 2 ^ 4 := by omega
    have h₁ := Nat.testBit_mod_two_pow (16 * control + resets) 4 streamId
    have h₂ := Nat.testBit_mod_two_pow resets 4 streamId
    rw [hmod, h₂] at h₁
    simpa [hstream] using h₁.symm
  rw [Nat.one_shiftLeft, Nat.and_two_pow, hlow]
  cases resets.testBit streamId with
  | false => simp
  | true => simp

/-- The client, with the streams reset. -/
def resetClient (a : DAttrs codecs S) (control : ℕ) : DAttrs codecs S :=
  { a with decoding :=
    { a.decoding with streams := resetStreams control a.decoding.streams } }

/-- The streams are reset as the low bits say. -/
theorem streamAt_resetClient (a : DAttrs codecs S) (control : ℕ) {resets streamId : ℕ}
    (hstream : streamId < 4) :
    streamAt (resetClient a (16 * control + resets)) streamId = streamsAfter a resets streamId := by
  have hget : (resetStreams (16 * control + resets) a.decoding.streams).getD streamId none =
      if resets.testBit streamId then none else a.decoding.streams.getD streamId none := by
    rw [resetStreams, List.getD_eq_getElem?_getD, List.getElem?_mapIdx,
      List.getD_eq_getElem?_getD]
    cases a.decoding.streams[streamId]? with
    | none => simp
    | some stream => exact if_congr (and_one_shiftLeft hstream) rfl rfl
  unfold streamAt streamsAfter
  show ((resetStreams (16 * control + resets) a.decoding.streams).getD streamId none).getD _ = _
  rw [hget]
  split_ifs <;> rfl

/-- The filters a control for BasicCompression names. -/
theorem basic_control {streamId : ℕ} (hstream : streamId < 4) (explicit : Bool) :
    streamId + (if explicit then 4 else 0) ≠ 0x08 ∧ streamId + (if explicit then 4 else 0) ≠ 0x09 ∧
      (streamId + if explicit then 4 else 0) &&& 0x08 = 0 ∧
      (streamId + if explicit then 4 else 0) &&& 0x03 = streamId ∧
      ((streamId + if explicit then 4 else 0) &&& 0x04 ≠ 0 ↔ explicit = true) := by
  interval_cases streamId <;> cases explicit <;> decide

/-- A rectangle of BasicCompression, once its control is read. -/
theorem tightDecodeRect_basic {width height streamId resets : ℕ} (explicit : Bool)
    {pixelFormat : PixelFormat} (hwidth : width ≤ 2048) (hstream : streamId < 4)
    (hresets : resets < 16) {a : DAttrs codecs S} {input : Bytes} :
    (∀ v a', Decodes (tightDecodeBasic (streamId + if explicit then 4 else 0) width height
        pixelFormat) (resetClient a (16 * (streamId + if explicit then 4 else 0) + resets)) input v a' →
      Decodes (tightDecodeRect width height pixelFormat) a
        (UInt8.ofNat (16 * (streamId + if explicit then 4 else 0) + resets) :: input) v a') ∧
    (Refuses (tightDecodeBasic (streamId + if explicit then 4 else 0) width height
        pixelFormat) (resetClient a (16 * (streamId + if explicit then 4 else 0) + resets)) input →
      Refuses (tightDecodeRect width height pixelFormat) a
        (UInt8.ofNat (16 * (streamId + if explicit then 4 else 0) + resets) :: input)) := by
  obtain ⟨hfill, hjpeg, hbasic, -, -⟩ := basic_control hstream explicit
  have hlt : streamId + (if explicit then 4 else 0) < 8 := by split_ifs <;> omega
  generalize (streamId + if explicit then 4 else 0) = control at *
  have hshift : (16 * control + resets) >>> 4 = control := (nibbles hresets).1
  have hnarrow : ¬width > maxTightWidth := Nat.not_lt.mpr hwidth
  unfold tightDecodeRect
  constructor
  · intro v a' hdecodes
    refine decodes_read_bind (b := [UInt8.ofNat _]) rfl ?_
    dsimp only
    rw [byteAt_read (by omega), hshift, if_neg hfill, if_neg hnarrow, if_neg hjpeg,
      if_neg (not_not_intro hbasic)]
    exact (Consumes.modify _ a).bind_nil hdecodes
  · intro hrefuses
    refine refuses_read_bind (b := [UInt8.ofNat _]) rfl ?_
    dsimp only
    rw [byteAt_read (by omega), hshift, if_neg hfill, if_neg hnarrow, if_neg hjpeg,
      if_neg (not_not_intro hbasic)]
    exact Rejects.bind_nil (Consumes.modify _ a) hrefuses

/-- The copy filter. -/
theorem decodes_tightFiltered_copy {streamId width height : ℕ} {pixelFormat : PixelFormat}
    {image : Picture UInt8} {payload : Bytes} {a : DAttrs codecs S}
    (himage : Sized pixelFormat.tpixelBytes width height image)
    (hpayload : TightPayload codecs (streamAt a streamId) (render width height image) payload) :
    ∃ a', Decodes (tightFiltered 0 streamId width height pixelFormat) a payload
      (render width height image, tightOutputFormat pixelFormat) a' := by
  obtain ⟨a', hdata⟩ := decodes_tightData hpayload
  have hsize : (render width height image).length = height * (width * pixelFormat.tpixelBytes) := by
    rw [Raster.length_render himage]
    ring
  rw [hsize] at hdata
  exact ⟨a', hdata.bind_pure (Consumes.pure _ a')⟩

/-- The palette filter, up to the indices that it finds. -/
theorem tightFiltered_palette {streamId width height : ℕ} {pixelFormat : PixelFormat}
    {colours : List Bytes} {index : ℕ → ℕ → ℕ} {payload : Bytes} {a : DAttrs codecs S}
    (hcount : 1 ≤ colours.length) (hsize : colours.length ≤ 256)
    (hcolours : ∀ colour ∈ colours, colour.length = pixelFormat.tpixelBytes)
    (hpayload : TightPayload codecs (streamAt a streamId)
      (filteredIndices colours.length width height index) payload) :
    (∀ pixels, unpalette codecs (filteredIndices colours.length width height index) colours width
        height (if colours.length = 2 then (width + 7) / 8 else width) = .ok pixels →
      ∃ a', Decodes (tightFiltered 1 streamId width height pixelFormat) a
        ([UInt8.ofNat (colours.length - 1)] ++ (colours.flatten ++ payload))
        (pixels, tightOutputFormat pixelFormat) a') ∧
    (∀ text, unpalette codecs (filteredIndices colours.length width height index) colours width
        height (if colours.length = 2 then (width + 7) / 8 else width) = .error ⟨.decodeError, text⟩ →
      Refuses (tightFiltered 1 streamId width height pixelFormat) a
        ([UInt8.ofNat (colours.length - 1)] ++ (colours.flatten ++ payload))) := by
  obtain ⟨a', hdata⟩ := decodes_tightData hpayload
  have hlength : (filteredIndices colours.length width height index).length =
      height * (if colours.length = 2 then (width + 7) / 8 else width) := by
    by_cases htwo : colours.length = 2
    · rw [htwo, length_filteredIndices_two, if_pos rfl]
    · rw [length_filteredIndices htwo, if_neg htwo]
  rw [hlength] at hdata
  have hread : byteAt (Block.of (n := 1) [UInt8.ofNat (colours.length - 1)] rfl).bytes 0 + 1 =
      colours.length := by
    rw [byteAt_read (by omega)]
    omega
  -- the decoder cuts the colours apart again
  have hflatten : colours.flatten.length = colours.length * pixelFormat.tpixelBytes := by
    rw [← List.flatMap_id']
    exact Raster.length_flatMap hcolours
  have hcut : ((List.range colours.length).map fun i =>
      (colours.flatten.drop (i * pixelFormat.tpixelBytes)).take pixelFormat.tpixelBytes) = colours := by
    have hpieces := Raster.pieces_flatMap (f := fun colour : Bytes => colour) hcolours
    rwa [List.flatMap_id', List.map_id'] at hpieces
  have hbytes : ∀ h, (Block.of (n := colours.length * pixelFormat.tpixelBytes)
      colours.flatten h).bytes = colours.flatten := fun _ => rfl
  unfold tightFiltered
  constructor
  · intro pixels hpixels
    refine ⟨a', decodes_read_bind (b := [UInt8.ofNat _]) rfl ?_⟩
    dsimp only
    rw [hread]
    refine decodes_read_bind hflatten ?_
    rw [hbytes, hcut]
    exact hdata.bind_pure (decodes_ofExcept_bind hpixels (Consumes.pure _ a'))
  · intro text htext
    refine refuses_read_bind (b := [UInt8.ofNat _]) rfl ?_
    dsimp only
    rw [hread]
    refine refuses_read_bind hflatten ?_
    rw [hbytes, hcut, ← List.append_nil payload]
    exact Rejects.bind_right hdata (refuses_ofExcept htext a' []).bind_left

/-- A filter that is named. -/
theorem tightDecodeBasic_filter {filterId streamId width height : ℕ} {pixelFormat : PixelFormat}
    (hfilter : filterId < 256) (hstream : streamId < 4) {a : DAttrs codecs S} {input : Bytes} :
    (∀ v a', Decodes (tightFiltered filterId streamId width height pixelFormat) a input v a' →
      Decodes (tightDecodeBasic (streamId + 4) width height pixelFormat) a
        ([UInt8.ofNat filterId] ++ input) v a') ∧
    (Refuses (tightFiltered filterId streamId width height pixelFormat) a input →
      Refuses (tightDecodeBasic (streamId + 4) width height pixelFormat) a
        ([UInt8.ofNat filterId] ++ input)) := by
  obtain ⟨-, -, -, hid, hnamed⟩ := basic_control hstream true
  have hexplicit : (streamId + 4) &&& 0x04 ≠ 0 := hnamed.mpr rfl
  have hid' : (streamId + 4) &&& 0x03 = streamId := hid
  unfold tightDecodeBasic
  rw [hid', if_pos hexplicit]
  constructor
  · intro v a' hdecodes
    refine decodes_read_bind (b := [UInt8.ofNat filterId]) rfl ?_
    rwa [byteAt_read hfilter]
  · intro hrefuses
    refine refuses_read_bind (b := [UInt8.ofNat filterId]) rfl ?_
    rwa [byteAt_read hfilter]

/-- A TPIXEL has one to four bytes where a pixel has. -/
theorem tpixelBytes_bounds {pixelFormat : PixelFormat}
    (hbypp : 1 ≤ pixelFormat.bypp ∧ pixelFormat.bypp ≤ 4) :
    1 ≤ pixelFormat.tpixelBytes ∧ pixelFormat.tpixelBytes ≤ 4 := by
  unfold PixelFormat.tpixelBytes
  split_ifs
  · decide
  · exact hbypp

/-- The decoder takes exactly the bytes of a form of an image and returns the image. -/
theorem decodes_form {pixelFormat : PixelFormat}
    (hbypp : 1 ≤ pixelFormat.bypp ∧ pixelFormat.bypp ≤ 4) {resets : ℕ} (hresets : resets < 16)
    {width height : ℕ} {form : TightForm} {a : DAttrs codecs S} {image : Picture UInt8}
    (hform : form.Encodes codecs (streamsAfter a resets) pixelFormat.tpixelBytes width height image) :
    ∃ a', Decodes (tightDecodeRect width height pixelFormat) a (form.serialise resets)
      (render width height image, tightOutputFormat pixelFormat) a' := by
  cases form with
  | fill colour =>
    obtain ⟨hlength, huniform⟩ := hform
    have hshift : (16 * 8 + resets) >>> 4 = 8 := (nibbles hresets).1
    have hpixels : RectBuffer.repeated colour (width * height) = render width height image := by
      rw [Nat.mul_comm, RectBuffer.repeated_eq_flatMap, Raster.flatMap_range_mul]
      exact Raster.render_congr (p := fun _ _ => colour) fun x hx y hy => (huniform x hx y hy).symm
    refine ⟨resetClient a (16 * 8 + resets), ?_⟩
    unfold tightDecodeRect
    refine decodes_read_bind (b := [UInt8.ofNat _]) rfl ?_
    dsimp only [TightForm.control]
    rw [byteAt_read (by omega), hshift, if_pos rfl, ← hpixels]
    refine (Consumes.modify _ a).bind_nil ?_
    exact (decodes_read hlength _).bind_pure (Consumes.pure _ _)
  -- The filter byte is there or not; the pixels are as many either way.
  | copy explicit streamId payload =>
    obtain ⟨hwidth, hstream, himage, hpayload⟩ := hform
    rw [← streamAt_resetClient a (streamId + if explicit then 4 else 0) hstream] at hpayload
    obtain ⟨a', hfiltered⟩ := decodes_tightFiltered_copy himage hpayload
    refine ⟨a', (tightDecodeRect_basic explicit hwidth hstream hresets).1 _ a' ?_⟩
    cases explicit with
    | true => exact (tightDecodeBasic_filter (by decide) hstream).1 _ a' hfiltered
    | false =>
      obtain ⟨-, -, -, hid, hfilter⟩ := basic_control hstream false
      unfold tightDecodeBasic
      dsimp only
      rw [hid, if_neg (mt hfilter.mp (by simp))]
      exact hfiltered
  -- A palette is always announced by its filter byte.
  | palette streamId colours index payload =>
    obtain ⟨hwidth, hstream, hcount, hsize, hcolours, hindex, hpayload⟩ := hform
    rw [← streamAt_resetClient a (streamId + 4) hstream] at hpayload
    have hpixels := unpalette_filteredIndices codecs hcount hsize hcolours
      (tpixelBytes_bounds hbypp) hindex
    obtain ⟨a', hfiltered⟩ := (tightFiltered_palette hcount hsize hcolours hpayload).1 _ hpixels
    exact ⟨a', (tightDecodeRect_basic true hwidth hstream hresets).1 _ a'
      ((tightDecodeBasic_filter (by decide) hstream).1 _ a' hfiltered)⟩

/-- It raises a `DecodeError` on a form whose indices stray. -/
theorem refuses_strays {pixelFormat : PixelFormat} {resets : ℕ} (hresets : resets < 16)
    {width height : ℕ} {form : TightForm} {a : DAttrs codecs S}
    (hform : form.Strays codecs (streamsAfter a resets) pixelFormat.tpixelBytes width height) :
    Refuses (tightDecodeRect width height pixelFormat) a (form.serialise resets) := by
  cases form with
  | fill colour => exact False.elim hform
  | copy explicit streamId payload => exact False.elim hform
  | palette streamId colours index payload =>
    obtain ⟨hwidth, hstream, hcount, hsize, hcolours, hbytes, hstray, hpayload⟩ := hform
    rw [← streamAt_resetClient a (streamId + 4) hstream] at hpayload
    have htwo : colours.length ≠ 2 := by omega
    -- the byte of the index that strays
    obtain ⟨x, hx, y, hy, hindex⟩ := hstray
    have hmem : UInt8.ofNat (index x y) ∈ filteredIndices colours.length width height index := by
      rw [filteredIndices, if_neg htwo]
      refine List.mem_flatMap.mpr ⟨y, List.mem_range.mpr hy, ?_⟩
      exact List.mem_flatMap.mpr ⟨x, List.mem_range.mpr hx, List.mem_singleton_self _⟩
    have hvalue : (UInt8.ofNat (index x y)).toNat = index x y := by
      have hbyte := hbytes x hx y hy
      rw [UInt8.toNat_ofNat', Nat.mod_eq_of_lt (by omega)]
    obtain ⟨text, htext⟩ := unpalette_strays codecs width height
      (if colours.length = 2 then (width + 7) / 8 else width) htwo hsize hmem (hvalue.symm ▸ hindex)
    have hfiltered := (tightFiltered_palette (by omega) hsize hcolours hpayload).2 text htext
    exact (tightDecodeRect_basic true hwidth hstream hresets).2
      ((tightDecodeBasic_filter (by decide) hstream).2 hfiltered)

/-- The decoder takes exactly the bytes of a form of an image and returns the image, and raises a
`DecodeError` on a form whose indices stray. -/
theorem tight_decodes {pixelFormat : PixelFormat}
    (hbypp : 1 ≤ pixelFormat.bypp ∧ pixelFormat.bypp ≤ 4) {resets : ℕ} (hresets : resets < 16)
    (width height : ℕ) (form : TightForm) (a : DAttrs codecs S) :
    (∀ image, form.Encodes codecs (streamsAfter a resets) pixelFormat.tpixelBytes width height image →
      ∃ a', Decodes (tightDecodeRect width height pixelFormat) a (form.serialise resets)
        (render width height image, tightOutputFormat pixelFormat) a') ∧
    (form.Strays codecs (streamsAfter a resets) pixelFormat.tpixelBytes width height →
      Refuses (tightDecodeRect width height pixelFormat) a (form.serialise resets)) :=
  ⟨fun _ hform => decodes_form hbypp hresets hform, fun hform => refuses_strays hresets hform⟩

/-- A block of stored data, the first of its stream. -/
theorem inflates_storedCodecs {data : Bytes} (hdata : data.length < 65536) :
    storedCodecs.Inflates (.start []) (zlibHeader ++ flushedBlock data) data (.block []) :=
  fun _ _ hlength => ⟨[], .block [], decompress_first hdata (.inr hlength), fun _ => rfl,
    fun hrest => absurd rfl hrest⟩

/-- Three colours in the second stream, which is reset; and indices of which some have no colour. -/
abbrev stripes (index : ℕ → ℕ → ℕ) : TightForm :=
  .palette 1 [[1, 2, 3], [4, 5, 6], [7, 8, 9]] index
    (compactBytes 24 ++ (zlibHeader ++ flushedBlock (filteredIndices 3 4 3 index)))

/-- Stripes of three colours are decoded, and indices beyond these are refused. -/
theorem tight_decodes_stripes :
    let a : DAttrs storedCodecs Unit := { factory := {}, decoding := {}, own := () }
    (∃ a', Decodes (tightDecodeRect 4 3 PixelFormat.bgrx8888) a
      [82, 1, 2, 1, 2, 3, 4, 5, 6, 7, 8, 9, 24, 0x78, 0x01, 0, 12, 0, 243, 255,
        0, 1, 2, 0, 0, 1, 2, 0, 0, 1, 2, 0, 0, 0, 0, 255, 255]
      ([1, 2, 3, 4, 5, 6, 7, 8, 9, 1, 2, 3, 1, 2, 3, 4, 5, 6, 7, 8, 9, 1, 2, 3, 1, 2, 3, 4, 5, 6,
        7, 8, 9, 1, 2, 3], PixelFormat.tpixelFormat) a') ∧
    Refuses (tightDecodeRect 4 3 PixelFormat.bgrx8888) a
      [82, 1, 2, 1, 2, 3, 4, 5, 6, 7, 8, 9, 24, 0x78, 0x01, 0, 12, 0, 243, 255,
        0, 1, 2, 3, 0, 1, 2, 3, 0, 1, 2, 3, 0, 0, 0, 255, 255] := by
  have hpayload : ∀ index, TightPayload storedCodecs (.start []) (filteredIndices 3 4 3 index)
      (compactBytes 24 ++ (zlibHeader ++ flushedBlock (filteredIndices 3 4 3 index))) := fun index =>
    @TightPayload.deflated storedCodecs (.start []) (filteredIndices 3 4 3 index)
      (zlibHeader ++ flushedBlock (filteredIndices 3 4 3 index)) (.block []) (Nat.le_refl 12)
      (Nat.le_of_ble_eq_true rfl : 24 ≤ 4194303)
      (inflates_storedCodecs (Nat.lt_of_lt_of_le (by decide : 12 < 13) (by decide)))
  refine ⟨?_, ?_⟩
  · refine (@tight_decodes storedCodecs Unit PixelFormat.bgrx8888 (by decide) 2 (by decide) 4 3
      (stripes fun x _ => x % 3) _).1
      (fun x _ => [UInt8.ofNat (3 * (x % 3) + 1), UInt8.ofNat (3 * (x % 3) + 2),
        UInt8.ofNat (3 * (x % 3) + 3)]) ?_
    refine ⟨by decide, by decide, by decide, by decide, by decide, ?_, hpayload _⟩
    intro x hx y _
    interval_cases x <;> rfl
  · refine (@tight_decodes storedCodecs Unit PixelFormat.bgrx8888 (by decide) 2 (by decide) 4 3
      (stripes fun x _ => x) _).2 ?_
    exact ⟨by decide, by decide, by decide, by decide, by decide, fun x hx _ _ => by dsimp only; omega,
      ⟨3, by decide, 0, by decide, by decide⟩, hpayload _⟩

end Decoders

end VncDoTool
