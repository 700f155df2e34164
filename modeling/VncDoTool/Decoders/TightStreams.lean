import VncDoTool.Decoders.TightImages
import Mathlib.Data.List.DropRight

/-!
# The streams of Tight

What the decompressor of each of the four streams was given, over any sequence of rectangles.

* `Codecs.Record`: a decompressor that knows what it was fed; `Codecs.recording` makes one of any.
* `TightRect`: a rectangle with the bytes it was decoded from; `TightRect.block`: the block in them.
* `TightRect.since`: the rectangles since a stream was last reset.
* `Decoders.tight_streams_fed`: a decompressor was fed the blocks of the rectangles on its stream since
  then.
-/

namespace VncDoTool

/-- What a decompressor object was fed so far: of each input, the part that it did not leave. -/
structure Codecs.Record (codecs : Codecs) : Type where
  fed : codecs.Stream → Bytes
  new : fed codecs.decompressobj = []
  decompress : ∀ {stream data maxLength output tail stream'},
    codecs.decompress stream data maxLength = .ok (output, tail, stream') →
      ∃ consumed, data = consumed ++ tail ∧ fed stream' = fed stream ++ consumed

/-- Decompressor objects with what they were fed. -/
def Codecs.recording (codecs : Codecs) : Codecs where
  Stream := codecs.Stream × Bytes
  decompressobj := (codecs.decompressobj, [])
  decompress stream data maxLength :=
    match codecs.decompress stream.1 data maxLength with
    | .error message => .error message
    | .ok (output, tail, stream') =>
      .ok (output, tail, stream', stream.2 ++ data.take (data.length - tail.length))
  limit hmax h := by
    split at h
    · exact absurd h (by simp)
    next output tail stream' hdecompress =>
      cases h
      exact codecs.limit hmax hdecompress
  jpeg := codecs.jpeg
  merge := codecs.merge
  interleaves := codecs.interleaves

/-- zlib leaves the end of its input. -/
def Codecs.LeavesEnd (codecs : Codecs) : Prop :=
  ∀ {stream data maxLength output tail stream'},
    codecs.decompress stream data maxLength = .ok (output, tail, stream') →
      ∃ consumed, data = consumed ++ tail

def Codecs.recordingRecord (codecs : Codecs) (h : codecs.LeavesEnd) : codecs.recording.Record where
  fed stream := stream.2
  new := rfl
  decompress {stream data maxLength output tail stream'} hdecompress := by
    unfold Codecs.recording at hdecompress
    dsimp only at hdecompress
    split at hdecompress
    · exact absurd hdecompress (by simp)
    next output tail stream' hstep =>
      cases hdecompress
      obtain ⟨consumed, rfl⟩ := h hstep
      refine ⟨consumed, rfl, ?_⟩
      rw [List.length_append, Nat.add_sub_cancel, List.take_left]

/-! ## Blocks -/

/-- How many bytes a length takes. -/
def lengthBytes (wire : Bytes) : ℕ :=
  if byteAt wire 0 &&& 0x80 = 0 then 1 else if byteAt wire 1 &&& 0x80 = 0 then 2 else 3

/-- The block in the bytes for filtered data of a size: there is none for few bytes, and otherwise it
stands behind its length. -/
def dataBlock (dataSize : ℕ) (wire : Bytes) : Option Bytes :=
  if dataSize < Decoders.minToCompress then none else some (wire.drop (lengthBytes wire))

/-- The block behind a filter, and its palette if it has one. -/
def filteredBlock (filterId width height tbytes : ℕ) (wire : Bytes) : Option Bytes :=
  if filterId = 0 then dataBlock (height * (width * tbytes)) wire
  else
    let size := byteAt wire 0 + 1
    dataBlock (height * if size = 2 then (width + 7) / 8 else width) (wire.drop (1 + size * tbytes))

/-- A rectangle that was decoded, with the bytes it was decoded from. -/
structure TightRect : Type where
  width : ℕ
  height : ℕ
  pixelFormat : PixelFormat
  wire : Bytes

namespace TightRect

/-- The first byte. -/
def control (r : TightRect) : ℕ := byteAt r.wire 0

/-- The rectangle resets a stream. -/
def resets (k : ℕ) (r : TightRect) : Bool := r.control.testBit k

/-- The block of a rectangle of BasicCompression on a stream. Fill and JPEG have none. -/
def block (k : ℕ) (r : TightRect) : Option Bytes :=
  let control := r.control >>> 4
  if control < 8 ∧ control &&& 0x03 = k then
    if control &&& 0x04 ≠ 0 then
      filteredBlock (byteAt r.wire 1) r.width r.height r.pixelFormat.tpixelBytes (r.wire.drop 2)
    else filteredBlock 0 r.width r.height r.pixelFormat.tpixelBytes (r.wire.drop 1)
  else none

/-- The rectangles since the last one that reset a stream, which is one of them, or all of them. -/
def since (k : ℕ) (rects : List TightRect) : List TightRect :=
  (rects.rdropWhile fun r => !r.resets k).getLast?.toList ++ rects.rtakeWhile fun r => !r.resets k

theorem since_concat (k : ℕ) (rects : List TightRect) (r : TightRect) :
    since k (rects ++ [r]) = if r.resets k then [r] else since k rects ++ [r] := by
  unfold since
  cases hresets : r.resets k with
  | true =>
    rw [List.rdropWhile_concat_neg _ _ _ (by simp [hresets]),
      List.rtakeWhile_concat_neg _ _ _ (by simp [hresets]), if_pos rfl]
    simp
  | false =>
    rw [List.rdropWhile_concat_pos _ _ _ (by simp [hresets]),
      List.rtakeWhile_concat_pos _ _ _ (by simp [hresets]), if_neg (by simp), List.append_assoc]

/-- What the blocks on a stream come to. -/
def blocks (k : ℕ) (rects : List TightRect) : Bytes := rects.flatMap fun r => (r.block k).getD []

end TightRect

namespace Decoders

open RFBClient Coroutine

variable {codecs : Codecs} {S : Type}

/-! ## What one rectangle feeds -/

/-- What the decompressor of a stream was fed; there is none before it is needed. -/
def fedTo (record : codecs.Record) (a : DAttrs codecs S) (k : ℕ) : Bytes :=
  record.fed (streamAt a k)

/-- A block was fed to a stream, and nothing to the others. -/
structure Feeds (record : codecs.Record) (k : ℕ) (block : Option Bytes) (a a' : DAttrs codecs S) :
    Prop where
  length : a'.decoding.streams.length = a.decoding.streams.length
  fed : ∀ j, fedTo record a' j = fedTo record a j ++ if j = k then block.getD [] else []

theorem Feeds.refl (record : codecs.Record) (k : ℕ) (a : DAttrs codecs S) :
    Feeds record k none a a := by
  refine ⟨rfl, fun j => ?_⟩
  split_ifs <;> exact (List.append_nil _).symm

/-- A call of zlib that returns, with bytes still wanted. -/
theorem decompressLoop_of_ok {streamId size : ℕ} {stream stream' : codecs.Stream}
    {out tail more rest : Bytes} (hremaining : out.length < size)
    (hstep : codecs.decompress stream tail (size - out.length) = .ok (more, rest, stream')) :
    decompressLoop codecs streamId size stream out tail =
      if rest = [] then .ok (out ++ more, stream')
      else decompressLoop codecs streamId size stream' (out ++ more) rest := by
  rw [decompressLoop, dif_pos hremaining]
  split
  next message herror => exact absurd (herror.symm.trans hstep) (by simp)
  next more' rest' stream₁ hok =>
    obtain ⟨rfl, rfl, rfl⟩ : more' = more ∧ rest' = rest ∧ stream₁ = stream' := by
      simpa using hok.symm.trans hstep
    split_ifs <;> rfl

/-- All of a block is fed, where decompressing it succeeds. -/
theorem fed_decompressLoop (record : codecs.Record) {streamId size : ℕ}
    {stream stream' : codecs.Stream} {out tail data : Bytes}
    (h : decompressLoop codecs streamId size stream out tail = .ok (data, stream')) :
    record.fed stream' = record.fed stream ++ tail := by
  induction stream, out, tail using decompressLoop.induct codecs size with
  | case1 stream out tail hremaining message hstep =>
    rw [decompressLoop, dif_pos hremaining] at h
    split at h
    · exact absurd h (by simp)
    next hok => exact absurd (hstep.symm.trans hok) (by simp)
  | case2 stream out tail hremaining more stream₁ hstep =>
    rw [decompressLoop_of_ok hremaining hstep, if_pos rfl] at h
    obtain ⟨-, rfl⟩ := Prod.mk.inj (Except.ok.inj h)
    obtain ⟨consumed, rfl, hfed⟩ := record.decompress hstep
    rw [hfed, List.append_nil]
  | case3 stream out tail hremaining more rest stream₁ hstep hrest ih =>
    rw [decompressLoop_of_ok hremaining hstep, if_neg hrest] at h
    obtain ⟨consumed, rfl, hfed⟩ := record.decompress hstep
    rw [ih h, hfed, List.append_assoc]
  | case4 stream out tail hfull message hstep =>
    rw [decompressLoop, dif_neg hfull, hstep] at h
    exact absurd h (by simp)
  | case5 stream out tail hfull extra rest stream₁ hstep hextra =>
    rw [decompressLoop, dif_neg hfull, hstep] at h
    exact absurd h (by simp [hextra])
  | case6 stream out tail hfull extra rest stream₁ hstep hextra =>
    rw [decompressLoop, dif_neg hfull, hstep] at h
    have hnone : extra = [] := not_not.mp hextra
    subst hnone
    obtain ⟨-, rfl⟩ := Prod.mk.inj (Except.ok.inj h)
    obtain ⟨consumed, rfl, hfed⟩ := record.decompress hstep
    -- no output reached the limit, so that no input was left
    have hrest : rest = [] := by
      by_contra hleft
      exact absurd ((codecs.limit one_ne_zero hstep).2 hleft) (by simp)
    rw [hfed, hrest, List.append_nil]

/-- A block that was decompressed was fed to its stream. -/
theorem feeds_tightDecompress (record : codecs.Record) {k size : ℕ} {block input data rest : Bytes}
    {a a' : DAttrs codecs S} (hk : k < a.decoding.streams.length)
    (h : Ran supply (tightDecompress k block size) a input a' data rest) :
    Feeds record k (some block) a a' ∧ input = rest := by
  unfold tightDecompress at h
  obtain ⟨a₁, got, mid, hget, hnext⟩ := ran_bind h
  obtain ⟨rfl, rfl, rfl⟩ := ran_get hget
  obtain ⟨a₂, ⟨out, stream⟩, mid, hrun, hnext'⟩ := ran_bind hnext
  obtain ⟨hloop, rfl, rfl⟩ := ran_ofExcept hrun
  obtain ⟨a₃, u, mid, hmodify, hnext''⟩ := ran_bind hnext'
  obtain ⟨rfl, rfl⟩ := ran_modify hmodify
  dsimp only at hnext''
  split_ifs at hnext'' with hlength
  · exact absurd hnext'' not_ran_throw
  · obtain ⟨rfl, -, rfl⟩ := ran_pure hnext''
    refine ⟨⟨List.length_set, fun j => ?_⟩, rfl⟩
    have hfed := fed_decompressLoop record hloop
    unfold fedTo streamAt
    split_ifs with hj
    · subst hj
      have hset : (a.decoding.streams.set j (some stream)).getD j none = some stream := by
        rw [List.getD_eq_getElem?_getD, List.getElem?_set_self hk, Option.getD_some]
      dsimp only
      rw [hset]
      exact hfed
    · have hother : (a.decoding.streams.set k (some stream)).getD j none =
          a.decoding.streams.getD j none := by
        rw [List.getD_eq_getElem?_getD, List.getElem?_set_ne (Ne.symm hj),
          List.getD_eq_getElem?_getD]
      dsimp only
      rw [hother, List.append_nil]

/-- What a length took. -/
theorem ran_compactLength {n : ℕ} {input rest : Bytes} {a a' : DAttrs codecs S}
    (h : Ran supply compactLength a input a' n rest) :
    a = a' ∧ ∃ front, input = front ++ rest ∧
      ∀ more, lengthBytes (front ++ more) = front.length := by
  unfold compactLength at h
  obtain ⟨a₁, first, mid, hread, hnext⟩ := ran_bind h
  obtain ⟨rfl, rfl⟩ := ran_read hread
  have hfirst : ∀ more, byteAt (first.bytes ++ more) 0 = byteAt first.bytes 0 := fun more =>
    byteAt_append_left more (by rw [first.length_bytes]; decide)
  dsimp only at hnext
  -- One, two or three bytes, by the high bits of the first two.
  split_ifs at hnext with hone
  · obtain ⟨rfl, -, rfl⟩ := ran_pure hnext
    refine ⟨rfl, first.bytes, rfl, fun more => ?_⟩
    rw [lengthBytes, hfirst, if_pos hone, first.length_bytes]
  · obtain ⟨a₂, second, mid', hread', hnext'⟩ := ran_bind hnext
    obtain ⟨rfl, rfl⟩ := ran_read hread'
    have hsecond : ∀ more, byteAt (first.bytes ++ (second.bytes ++ more)) 1 =
        byteAt second.bytes 0 := by
      intro more
      have hskip := byteAt_append_right first.bytes (second.bytes ++ more) 0
      rw [first.length_bytes] at hskip
      rw [hskip]
      exact byteAt_append_left more (by rw [second.length_bytes]; decide)
    split_ifs at hnext' with htwo
    · obtain ⟨rfl, -, rfl⟩ := ran_pure hnext'
      refine ⟨rfl, first.bytes ++ second.bytes, (List.append_assoc _ _ _).symm, fun more => ?_⟩
      rw [lengthBytes, List.append_assoc, hfirst, if_neg hone, hsecond, if_pos htwo,
        List.length_append, first.length_bytes, second.length_bytes]
    · obtain ⟨a₃, third, mid'', hread'', hnext''⟩ := ran_bind hnext'
      obtain ⟨rfl, rfl⟩ := ran_read hread''
      obtain ⟨rfl, -, rfl⟩ := ran_pure hnext''
      refine ⟨rfl, first.bytes ++ (second.bytes ++ third.bytes), ?_, fun more => ?_⟩
      · rw [List.append_assoc, List.append_assoc]
      · rw [lengthBytes, List.append_assoc, List.append_assoc, hfirst, if_neg hone, hsecond,
          if_neg htwo, List.length_append, List.length_append, first.length_bytes,
          second.length_bytes, third.length_bytes]

/-- The bytes of filtered data. -/
theorem feeds_tightData (record : codecs.Record) {k size : ℕ} {input data rest : Bytes}
    {a a' : DAttrs codecs S} (hk : k < a.decoding.streams.length)
    (h : Ran supply (tightData k size) a input a' data rest) :
    ∃ wire, input = wire ++ rest ∧ Feeds record k (dataBlock size wire) a a' := by
  unfold tightData at h
  unfold dataBlock
  split_ifs at h with hzero hfew
  · obtain ⟨rfl, -, rfl⟩ := ran_pure h
    refine ⟨[], rfl, ?_⟩
    rw [if_pos (by rw [hzero]; decide)]
    exact Feeds.refl record k a
  · obtain ⟨a₁, block, mid, hread, hnext⟩ := ran_bind h
    obtain ⟨rfl, rfl⟩ := ran_read hread
    obtain ⟨rfl, -, rfl⟩ := ran_pure hnext
    refine ⟨block.bytes, rfl, ?_⟩
    rw [if_pos hfew]
    exact Feeds.refl record k a
  · obtain ⟨a₁, n, mid, hlength, hnext⟩ := ran_bind h
    obtain ⟨rfl, front, rfl, hfront⟩ := ran_compactLength hlength
    obtain ⟨a₂, block, mid', hread, hnext'⟩ := ran_bind hnext
    obtain ⟨rfl, rfl⟩ := ran_read hread
    obtain ⟨hfeeds, rfl⟩ := feeds_tightDecompress record hk hnext'
    refine ⟨front ++ block.bytes, (List.append_assoc _ _ _).symm, ?_⟩
    rw [if_neg hfew, hfront, List.drop_left]
    exact hfeeds

/-- What a filter and its palette took is in front of the block. -/
theorem feeds_tightFiltered (record : codecs.Record) {filterId k width height : ℕ}
    {pixelFormat : PixelFormat} {input rest : Bytes} {v : Bytes × PixelFormat}
    {a a' : DAttrs codecs S} (hk : k < a.decoding.streams.length)
    (h : Ran supply (tightFiltered filterId k width height pixelFormat) a input a' v rest) :
    ∃ wire, input = wire ++ rest ∧
      Feeds record k (filteredBlock filterId width height pixelFormat.tpixelBytes wire) a a' := by
  unfold tightFiltered at h
  dsimp only at h
  unfold filteredBlock
  split_ifs at h with hcopy hpalette hgradient
  · obtain ⟨a₁, data, mid, hdata, hnext⟩ := ran_bind h
    obtain ⟨rfl, -, rfl⟩ := ran_pure hnext
    obtain ⟨wire, rfl, hfeeds⟩ := feeds_tightData record hk hdata
    refine ⟨wire, rfl, ?_⟩
    rw [if_pos hcopy]
    exact hfeeds
  · obtain ⟨a₁, size, mid, hread, hnext⟩ := ran_bind h
    obtain ⟨rfl, rfl⟩ := ran_read hread
    obtain ⟨a₂, raw, mid', hread', hnext'⟩ := ran_bind hnext
    obtain ⟨rfl, rfl⟩ := ran_read hread'
    obtain ⟨a₃, data, mid'', hdata, hnext''⟩ := ran_bind hnext'
    obtain ⟨a₄, pixels, mid''', hpixels, hnext'''⟩ := ran_bind hnext''
    obtain ⟨-, rfl, rfl⟩ := ran_ofExcept hpixels
    obtain ⟨rfl, -, rfl⟩ := ran_pure hnext'''
    obtain ⟨wire, rfl, hfeeds⟩ := feeds_tightData record hk hdata
    refine ⟨size.bytes ++ (raw.bytes ++ wire), ?_, ?_⟩
    · rw [List.append_assoc, List.append_assoc]
    · -- The palette is read before the block, its size in the first byte.
      have hcount : byteAt (size.bytes ++ (raw.bytes ++ wire)) 0 = byteAt size.bytes 0 :=
        byteAt_append_left _ (by rw [size.length_bytes]; decide)
      have hheader : (size.bytes ++ raw.bytes).length =
          1 + (byteAt size.bytes 0 + 1) * pixelFormat.tpixelBytes := by
        rw [List.length_append, size.length_bytes, raw.length_bytes]
      dsimp only
      rw [if_neg hcopy, hcount, ← hheader, ← List.append_assoc, List.drop_left]
      exact hfeeds
  · exact absurd h not_ran_throw
  · exact absurd h not_ran_throw

/-- A rectangle of BasicCompression, behind its control. -/
theorem feeds_tightDecodeBasic (record : codecs.Record) {control width height : ℕ}
    {pixelFormat : PixelFormat} {input rest : Bytes} {v : Bytes × PixelFormat}
    {a a' : DAttrs codecs S} (hstreams : a.decoding.streams.length = 4)
    (h : Ran supply (tightDecodeBasic control width height pixelFormat) a input a' v rest) :
    ∃ wire, input = wire ++ rest ∧ Feeds record (control &&& 0x03)
      (if control &&& 0x04 ≠ 0 then
        filteredBlock (byteAt wire 0) width height pixelFormat.tpixelBytes (wire.drop 1)
      else filteredBlock 0 width height pixelFormat.tpixelBytes wire) a a' := by
  have hk : control &&& 0x03 < a.decoding.streams.length := by
    rw [hstreams]
    exact Nat.and_lt_two_pow control (n := 2) (by decide)
  unfold tightDecodeBasic at h
  dsimp only at h
  split_ifs at h with hexplicit
  · obtain ⟨a₁, filter, mid, hread, hnext⟩ := ran_bind h
    obtain ⟨rfl, rfl⟩ := ran_read hread
    obtain ⟨wire, rfl, hfeeds⟩ := feeds_tightFiltered record hk hnext
    refine ⟨filter.bytes ++ wire, (List.append_assoc _ _ _).symm, ?_⟩
    have hfilter : byteAt (filter.bytes ++ wire) 0 = byteAt filter.bytes 0 :=
      byteAt_append_left _ (by rw [filter.length_bytes]; decide)
    rw [if_pos hexplicit, hfilter, List.drop_left' filter.length_bytes]
    exact hfeeds
  · obtain ⟨wire, rfl, hfeeds⟩ := feeds_tightFiltered record hk h
    refine ⟨wire, rfl, ?_⟩
    rw [if_neg hexplicit]
    exact hfeeds

/-- A bit of a control resets its stream. -/
theorem fedTo_reset (record : codecs.Record) (a : DAttrs codecs S) {control k : ℕ}
    (hk : k < a.decoding.streams.length) :
    fedTo record { a with decoding :=
      { a.decoding with streams := resetStreams control a.decoding.streams } } k =
        if control.testBit k then [] else fedTo record a k := by
  have hbit : control &&& (1 <<< k) ≠ 0 ↔ control.testBit k = true := by
    rw [Nat.one_shiftLeft, Nat.and_two_pow]
    cases control.testBit k with
    | true => simp
    | false => simp
  have hget : (resetStreams control a.decoding.streams).getD k none =
      if control.testBit k then none else a.decoding.streams.getD k none := by
    rw [resetStreams, List.getD_eq_getElem?_getD, List.getElem?_mapIdx,
      List.getD_eq_getElem?_getD, List.getElem?_eq_getElem hk]
    exact if_congr hbit rfl rfl
  unfold fedTo streamAt
  dsimp only
  rw [hget]
  split_ifs
  · exact record.new
  · rfl

/-- What a rectangle does to the streams: it resets those that its control says, and feeds a block to
one of them. -/
theorem fed_tightDecodeRect (record : codecs.Record) {width height : ℕ} {pixelFormat : PixelFormat}
    {wire rest : Bytes} {v : Bytes × PixelFormat} {a a' : DAttrs codecs S}
    (hstreams : a.decoding.streams.length = 4)
    (h : Ran supply (tightDecodeRect width height pixelFormat) a (wire ++ rest) a' v rest) :
    a'.decoding.streams.length = 4 ∧ ∀ k, k < 4 →
      fedTo record a' k =
        (if TightRect.resets k ⟨width, height, pixelFormat, wire⟩ then [] else fedTo record a k) ++
          (TightRect.block k ⟨width, height, pixelFormat, wire⟩).getD [] := by
  unfold tightDecodeRect at h
  obtain ⟨a₁, control, mid, hread, hnext⟩ := ran_bind h
  obtain ⟨rfl, hinput⟩ := ran_read hread
  obtain ⟨a₂, u, mid', hmodify, hnext'⟩ := ran_bind hnext
  obtain ⟨rfl, rfl⟩ := ran_modify hmodify
  -- the streams that are left by the resets
  have hreset : ∀ k, k < 4 → fedTo record { a with decoding :=
      { a.decoding with streams := resetStreams (byteAt control.bytes 0) a.decoding.streams } } k =
        if (byteAt control.bytes 0).testBit k then [] else fedTo record a k := fun k hk =>
    fedTo_reset record a (by rw [hstreams]; exact hk)
  have hlength : (resetStreams (byteAt control.bytes 0) a.decoding.streams).length = 4 := by
    rw [resetStreams, List.length_mapIdx, hstreams]
  have hlt : byteAt control.bytes 0 >>> 4 < 16 := by
    have hbyte := byteAt_lt control.bytes 0
    rw [Nat.shiftRight_eq_div_pow]
    omega
  -- a rectangle that is decoded from a wire with that control
  have hcontrol : ∀ {back : Bytes}, wire = control.bytes ++ back →
      TightRect.control ⟨width, height, pixelFormat, wire⟩ = byteAt control.bytes 0 := by
    rintro back rfl
    exact byteAt_append_left _ (by rw [control.length_bytes]; decide)
  -- the streams as they were reset, then the block
  have hfinish : ∀ {back : Bytes} {j : ℕ} {b : Option Bytes}, wire = control.bytes ++ back →
      Feeds record j b { a with decoding :=
        { a.decoding with streams := resetStreams (byteAt control.bytes 0) a.decoding.streams } } a' →
      (∀ k, k < 4 → (TightRect.block k ⟨width, height, pixelFormat, wire⟩).getD [] =
        if k = j then b.getD [] else []) →
      a'.decoding.streams.length = 4 ∧ ∀ k, k < 4 →
        fedTo record a' k =
          (if TightRect.resets k ⟨width, height, pixelFormat, wire⟩ then [] else fedTo record a k) ++
            (TightRect.block k ⟨width, height, pixelFormat, wire⟩).getD [] := by
    intro back j b hwire hfeeds hblock
    refine ⟨hfeeds.length.trans hlength, fun k hk => ?_⟩
    rw [hfeeds.fed k, hreset k hk, hblock k hk, TightRect.resets, hcontrol hwire]
  dsimp only at hnext'
  split_ifs at hnext' with hfill hwide hjpeg hundefined
  · -- Fill
    obtain ⟨a₃, pixel, mid'', hread', hpure⟩ := ran_bind hnext'
    obtain ⟨rfl, rfl⟩ := ran_read hread'
    obtain ⟨rfl, -, rfl⟩ := ran_pure hpure
    have hwire : wire = control.bytes ++ pixel.bytes := by
      rw [← List.append_assoc] at hinput
      exact List.append_cancel_right hinput
    refine hfinish hwire (Feeds.refl record 0 _) fun k _ => ?_
    rw [TightRect.block, hcontrol hwire, if_neg (by rw [hfill]; omega)]
    split_ifs <;> rfl
  · exact absurd hnext' not_ran_throw
  · -- JPEG
    obtain ⟨a₃, got, mid'', hget, hoffered⟩ := ran_bind hnext'
    obtain ⟨rfl, rfl, rfl⟩ := ran_get hget
    dsimp only at hoffered
    split_ifs at hoffered with hoffer
    · obtain ⟨a₄, n, mid'', hn, hblock⟩ := ran_bind hoffered
      obtain ⟨rfl, front, rfl, -⟩ := ran_compactLength hn
      obtain ⟨a₅, block, mid''', hread', hjpegs⟩ := ran_bind hblock
      obtain ⟨rfl, rfl⟩ := ran_read hread'
      obtain ⟨a₆, pixels, mid'''', hdecoded, hpure⟩ := ran_bind hjpegs
      obtain ⟨-, rfl, rfl⟩ := ran_ofExcept hdecoded
      obtain ⟨rfl, -, rfl⟩ := ran_pure hpure
      have hwire : wire = control.bytes ++ (front ++ block.bytes) := by
        rw [← List.append_assoc, ← List.append_assoc, List.append_assoc control.bytes] at hinput
        exact List.append_cancel_right hinput
      refine hfinish hwire (Feeds.refl record 0 _) fun k _ => ?_
      rw [TightRect.block, hcontrol hwire, if_neg (by rw [hjpeg]; omega)]
      split_ifs <;> rfl
    · exact absurd hoffered not_ran_throw
  · exact absurd hnext' not_ran_throw
  · exact absurd hnext' not_ran_throw
  · -- BasicCompression
    obtain ⟨back, rfl, hfeeds⟩ := feeds_tightDecodeBasic record hlength hnext'
    have hwire : wire = control.bytes ++ back := by
      rw [← List.append_assoc] at hinput
      exact List.append_cancel_right hinput
    have hbasic : byteAt control.bytes 0 >>> 4 < 8 := by
      generalize byteAt control.bytes 0 >>> 4 = c at hlt hundefined
      revert hundefined
      interval_cases c <;> decide
    have hfirst : byteAt wire 1 = byteAt back 0 := by
      have hskip := byteAt_append_right control.bytes back 0
      rwa [control.length_bytes, ← hwire] at hskip
    have hback : wire.drop 1 = back := by
      rw [hwire]
      exact List.drop_left' control.length_bytes
    have hback' : wire.drop 2 = back.drop 1 := by rw [← hback, List.drop_drop]
    refine hfinish hwire hfeeds fun k _ => ?_
    rw [TightRect.block, hcontrol hwire]
    dsimp only
    rw [hfirst, hback, hback']
    by_cases hk : byteAt control.bytes 0 >>> 4 &&& 3 = k
    · rw [if_pos ⟨hbasic, hk⟩, if_pos hk.symm]
    · rw [if_neg (fun hboth => hk hboth.2), if_neg (Ne.symm hk)]
      rfl

/-! ## Any rectangles -/

/-- Rectangles that were decoded one after the other, and the client after them. What happens between
two of them leaves the streams alone. -/
inductive TightRun : List TightRect → DAttrs codecs S → Prop
  | start {a : DAttrs codecs S} (h : a.decoding.streams = [none, none, none, none]) : TightRun [] a
  | rect {rects : List TightRect} {a a' : DAttrs codecs S} {r : TightRect}
      {v : Bytes × PixelFormat} {rest : Bytes} (hrun : TightRun rects a)
      (h : Ran supply (tightDecodeRect r.width r.height r.pixelFormat) a (r.wire ++ rest) a' v rest) :
      TightRun (rects ++ [r]) a'
  | other {rects : List TightRect} {a a' : DAttrs codecs S} (hrun : TightRun rects a)
      (h : a'.decoding.streams = a.decoding.streams) : TightRun rects a'

/-- The decompressor of each stream was fed the blocks of the rectangles on that stream since it was
last reset, one after the other, and nothing else. -/
theorem tight_streams_fed (record : codecs.Record) {rects : List TightRect} {a : DAttrs codecs S}
    (hrun : TightRun rects a) {k : ℕ} (hk : k < 4) :
    fedTo record a k = TightRect.blocks k (TightRect.since k rects) := by
  have hall : a.decoding.streams.length = 4 ∧
      ∀ k, k < 4 → fedTo record a k = TightRect.blocks k (TightRect.since k rects) := by
    induction hrun with
    | @start a hnew =>
      rw [hnew]
      refine ⟨rfl, fun k hk => ?_⟩
      unfold fedTo streamAt
      rw [hnew]
      interval_cases k <;> exact record.new
    | @rect rects a a' r v rest hrun h ih =>
      obtain ⟨hstreams, hfed⟩ := fed_tightDecodeRect record ih.1 h
      refine ⟨hstreams, fun k hk => ?_⟩
      rw [hfed k hk, ih.2 k hk, TightRect.since_concat]
      cases hresets : r.resets k with
      | true =>
        rw [if_pos rfl, if_pos rfl, TightRect.blocks, List.flatMap_singleton]
        rfl
      | false =>
        rw [if_neg Bool.false_ne_true, if_neg Bool.false_ne_true, TightRect.blocks,
          TightRect.blocks, List.flatMap_append, List.flatMap_singleton]
    | @other rects a a' hrun h ih =>
      have hsame : ∀ k, fedTo record a' k = fedTo record a k := by
        intro k
        unfold fedTo streamAt
        rw [h]
      rw [h]
      exact ⟨ih.1, fun k hk => (hsame k).trans (ih.2 k hk)⟩
  exact hall.2 k hk

/-- A decompressor for stored blocks leaves the end of its input. -/
theorem leavesEnd_storedCodecs : storedCodecs.LeavesEnd := StoredStream.leavesEnd_inflate

/-- The client once the decoder has taken the bytes of some rows of four pixels, one after the other. -/
def afterRows : List Bytes → DAttrs codecs S → Option (DAttrs codecs S)
  | [], a => some a
  | wire :: wires, a =>
    match ((tightDecodeRect 4 1 PixelFormat.bgrx8888).run a).feed supply wire with
    | .done a' _ [] => afterRows wires a'
    | _ => none

theorem tightRun_afterRows {wires : List Bytes} {rects : List TightRect} {a a' : DAttrs codecs S}
    (hrun : TightRun rects a) (h : afterRows wires a = some a') :
    TightRun (rects ++ wires.map fun wire => ⟨4, 1, PixelFormat.bgrx8888, wire⟩) a' := by
  induction wires generalizing rects a with
  | nil =>
    obtain rfl := Option.some.inj h
    rwa [List.map_nil, List.append_nil]
  | cons wire wires ih =>
    unfold afterRows at h
    split at h
    next a₁ v hfed =>
      have hran : Ran supply (tightDecodeRect 4 1 PixelFormat.bgrx8888) a (wire ++ []) a₁ v [] := by
        rwa [List.append_nil]
      rw [List.map_cons, List.append_cons]
      exact ih (hrun.rect hran) h
    · exact absurd h (by simp)

/-- The bytes of a row on the second stream. -/
abbrev rowOf (resets : UInt8) (block : Bytes) : Bytes :=
  [16 + resets, UInt8.ofNat block.length] ++ block

/-- A row, another that resets the stream, and a third that goes on with it: the decompressor was fed
the blocks of these two. -/
theorem tight_streams_fed_rows :
    ∃ a : DAttrs storedCodecs.recording Unit,
      afterRows [rowOf 0 (zlibHeader ++ flushedBlock (List.replicate 12 5)),
          rowOf 2 (zlibHeader ++ flushedBlock (List.replicate 12 7)),
          rowOf 0 (flushedBlock (List.replicate 12 8))]
        { factory := {}, decoding := {}, own := () } = some a ∧
      fedTo (storedCodecs.recordingRecord leavesEnd_storedCodecs) a 1 =
        zlibHeader ++ flushedBlock (List.replicate 12 7) ++ flushedBlock (List.replicate 12 8) := by
  obtain ⟨a, ha⟩ := Option.isSome_iff_exists.mp (show (afterRows
    [rowOf 0 (zlibHeader ++ flushedBlock (List.replicate 12 5)),
      rowOf 2 (zlibHeader ++ flushedBlock (List.replicate 12 7)),
      rowOf 0 (flushedBlock (List.replicate 12 8))]
    ({ factory := {}, decoding := {}, own := () } : DAttrs storedCodecs.recording Unit)).isSome = true
    by decide +kernel)
  exact ⟨a, ha, (tight_streams_fed _ (tightRun_afterRows (.start rfl) ha) (by decide)).trans
    (by decide)⟩

end Decoders

end VncDoTool
