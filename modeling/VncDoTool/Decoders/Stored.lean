import VncDoTool.Lib.Fallible
import VncDoTool.Decoders.Base

/-!
# Stored blocks

Library code that reads zlib streams whose data was stored and not compressed, in blocks none of which
is the last: what a server may send that flushes its stream behind each rectangle and never ends it.

* `StoredStream`: where a decompressor stands in such a stream; `StoredStream.advance` for each byte.
* `StoredStream.inflate`: `decompress(data, max_length)`.
* `storedBlock`: the bytes of a block; `StoredStream.inflate_storedBlock` reads one.
* `Decoders.storedCodecs`: the library code.
-/

namespace VncDoTool

/-- Where a decompressor stands. -/
inductive StoredStream : Type where
  /-- It has read these of the two bytes that a stream starts with. -/
  | start (read : Bytes)
  /-- It has read these of the five bytes before the data of a block. -/
  | block (read : Bytes)
  /-- The next byte is data, and so many behind it are. -/
  | data (left : ℕ)
  deriving DecidableEq, Repr

namespace StoredStream

/-- The two bytes a stream starts with are those of a deflated one without a dictionary. -/
def Starts (cmf flg : UInt8) : Prop :=
  cmf.toNat % 16 = 8 ∧ cmf.toNat / 16 ≤ 7 ∧ (256 * cmf.toNat + flg.toNat) % 31 = 0 ∧
    flg.toNat / 32 % 2 = 0

instance (cmf flg : UInt8) : Decidable (Starts cmf flg) := inferInstanceAs (Decidable (_ ∧ _))

/-- Behind the five bytes before the data of a block: its length is sent twice, once complemented. The
last block and the compressed ones, which zlib knows as well, are refused. -/
def opened (read : Bytes) : Except String StoredStream :=
  let length := byteAt read 1 + 256 * byteAt read 2
  if byteAt read 0 % 8 ≠ 0 then .error "Error -3 while decompressing data: invalid block type"
  else if length + (byteAt read 3 + 256 * byteAt read 4) ≠ 65535 then
    .error "Error -3 while decompressing data: invalid stored block lengths"
  else match length with
    | 0 => .ok (block [])
    | left + 1 => .ok (data left)

/-- The next byte. -/
def advance : StoredStream → UInt8 → Except String StoredStream
  | start [], b => .ok (start [b])
  | start (cmf :: _), b =>
    if Starts cmf b then .ok (block [])
    else .error "Error -3 while decompressing data: incorrect header check"
  | block read, b => if read.length < 4 then .ok (block (read ++ [b])) else opened (read ++ [b])
  | data 0, _ => .ok (block [])
  | data (left + 1), _ => .ok (data left)

/-- The next byte is data. -/
def isData : StoredStream → Bool
  | data _ => true
  | _ => false

/-- `decompress`, behind the output it has made already: only data waits where there is no room for
it. -/
def inflate (maxLength : ℕ) (stream : StoredStream) : (input output : Bytes) →
    Except String (Bytes × Bytes × StoredStream)
  | [], output => .ok (output, [], stream)
  | b :: rest, output =>
    if stream.isData ∧ maxLength ≠ 0 ∧ maxLength ≤ output.length then .ok (output, b :: rest, stream)
    else do
      let stream' ← stream.advance b
      inflate maxLength stream' rest (if stream.isData then output ++ [b] else output)

variable {maxLength : ℕ} {stream stream' : StoredStream} {input output result tail : Bytes}

/-- What comes of the next byte: it is left, as data there is no room for, or it is read. -/
theorem inflate_cons_cases {b : UInt8} {rest : Bytes}
    (h : inflate maxLength stream (b :: rest) output = .ok (result, tail, stream')) :
    (maxLength ≤ output.length ∧ result = output ∧ tail = b :: rest) ∨
      ∃ next output', (maxLength ≠ 0 → output.length ≤ maxLength → output'.length ≤ maxLength) ∧
        inflate maxLength next rest output' = .ok (result, tail, stream') := by
  unfold inflate at h
  split_ifs at h with hfull hdata
  · cases h
    exact .inl ⟨hfull.2.2, rfl, rfl⟩
  · obtain ⟨next, -, hnext⟩ := Fallible.bind_eq_ok.mp h
    refine .inr ⟨next, output ++ [b], fun hmax _ => ?_, hnext⟩
    have hroom : output.length < maxLength := not_le.mp fun hle => hfull ⟨hdata, hmax, hle⟩
    rwa [List.length_append, List.length_singleton]
  · obtain ⟨next, -, hnext⟩ := Fallible.bind_eq_ok.mp h
    exact .inr ⟨next, output, fun _ hroom => hroom, hnext⟩

/-- Whatever the decompressor reads of its input, it leaves the end of it. -/
theorem leavesEnd_inflate (h : inflate maxLength stream input output = .ok (result, tail, stream')) :
    ∃ consumed, input = consumed ++ tail := by
  induction input generalizing stream output with
  | nil =>
    cases h
    exact ⟨[], rfl⟩
  | cons b rest ih =>
    obtain ⟨-, -, rfl⟩ | ⟨next, output', -, hnext⟩ := inflate_cons_cases h
    · exact ⟨[], rfl⟩
    · obtain ⟨consumed, rfl⟩ := ih hnext
      exact ⟨b :: consumed, rfl⟩

/-- The output keeps to the limit, and input is left only where it reaches it. -/
theorem limit_inflate (hmax : maxLength ≠ 0) (hroom : output.length ≤ maxLength)
    (h : inflate maxLength stream input output = .ok (result, tail, stream')) :
    result.length ≤ maxLength ∧ (tail ≠ [] → result.length = maxLength) := by
  induction input generalizing stream output with
  | nil =>
    cases h
    exact ⟨hroom, fun htail => absurd rfl htail⟩
  | cons b rest ih =>
    obtain ⟨hfull, rfl, -⟩ | ⟨next, output', houtput', hnext⟩ := inflate_cons_cases h
    · exact ⟨hroom, fun _ => le_antisymm hroom hfull⟩
    · exact ih (houtput' hmax hroom) hnext

/-- The data of a block is put out, if there is room for it. -/
theorem inflate_data {bytes : Bytes} (rest : Bytes)
    (hroom : maxLength = 0 ∨ output.length + bytes.length ≤ maxLength) (hbytes : bytes ≠ []) :
    inflate maxLength (data (bytes.length - 1)) (bytes ++ rest) output =
      inflate maxLength (block []) rest (output ++ bytes) := by
  induction bytes generalizing output with
  | nil => exact absurd rfl hbytes
  | cons b bytes ih =>
    -- There is room for this byte, so that the reader does not stop before it.
    have hnotFull : ¬((data ((b :: bytes).length - 1)).isData ∧ maxLength ≠ 0 ∧
        maxLength ≤ output.length) := by
      rintro ⟨-, hmax, hfull⟩
      rw [List.length_cons] at hroom
      omega
    rw [List.cons_append, inflate, if_neg hnotFull]
    cases bytes with
    | nil => rfl
    | cons b' bytes =>
      have hrest := @ih (output ++ [b]) (by
        rw [List.length_append, List.length_singleton]
        rw [List.length_cons] at hroom
        omega) (List.cons_ne_nil b' bytes)
      rw [List.append_assoc, List.singleton_append] at hrest
      exact hrest

end StoredStream

/-- The five bytes before so much data. -/
def blockHeader (length : ℕ) : Bytes :=
  let low := length % 256
  let high := length / 256
  [0, UInt8.ofNat low, UInt8.ofNat high, UInt8.ofNat (255 - low), UInt8.ofNat (255 - high)]

/-- The bytes of a block. -/
def storedBlock (bytes : Bytes) : Bytes := blockHeader bytes.length ++ bytes

/-- The bytes of a block, with the empty one behind it that a flush leaves. -/
def flushedBlock (bytes : Bytes) : Bytes := storedBlock bytes ++ storedBlock []

/-- The two bytes a stream starts with, at the default window. -/
def zlibHeader : Bytes := [0x78, 0x01]

namespace StoredStream

variable {maxLength : ℕ} {output bytes : Bytes}

/-- What these five bytes say. -/
theorem opened_blockHeader {length : ℕ} (hlength : length < 65536) :
    opened (blockHeader length) = .ok (if length = 0 then block [] else data (length - 1)) := by
  have hvalue : ∀ n ≤ 255, (UInt8.ofNat n).toNat = n := fun n hn => by
    rw [UInt8.toNat_ofNat', Nat.mod_eq_of_lt (Nat.lt_succ_of_le hn)]
  unfold opened blockHeader byteAt
  simp only [List.getD_cons_zero, List.getD_cons_succ, UInt8.toNat_zero]
  rw [hvalue _ (by omega), hvalue _ (by omega), hvalue _ (by omega), hvalue _ (by omega),
    if_neg (by decide), if_neg (by omega), Nat.mod_add_div]
  cases length with
  | zero => rfl
  | succ left => rfl

/-- They are read before the data. -/
theorem inflate_header (b₀ b₁ b₂ b₃ b₄ : UInt8) (rest output : Bytes) :
    inflate maxLength (block []) ([b₀, b₁, b₂, b₃, b₄] ++ rest) output =
      opened [b₀, b₁, b₂, b₃, b₄] >>= fun next => inflate maxLength next rest output := rfl

/-- A block is put out, if there is room for its data. -/
theorem inflate_storedBlock (hbytes : bytes.length < 65536) (rest : Bytes)
    (hroom : maxLength = 0 ∨ output.length + bytes.length ≤ maxLength) :
    inflate maxLength (block []) (storedBlock bytes ++ rest) output =
      inflate maxLength (block []) rest (output ++ bytes) := by
  have hopened := opened_blockHeader hbytes
  unfold blockHeader at hopened
  dsimp only at hopened
  unfold storedBlock blockHeader
  dsimp only
  rw [List.append_assoc, inflate_header, hopened]
  by_cases hempty : bytes = []
  · rw [hempty, List.append_nil]
    rfl
  · rw [if_neg (mt List.length_eq_zero_iff.mp hempty)]
    exact inflate_data rest hroom hempty

/-- A stream starts with its first block. -/
theorem inflate_zlibHeader (rest output : Bytes) :
    inflate maxLength (start []) (zlibHeader ++ rest) output =
      inflate maxLength (block []) rest output := rfl

end StoredStream

namespace Decoders

/-- Library code for streams of stored blocks. -/
def storedCodecs : Codecs where
  Stream := StoredStream
  decompressobj := .start []
  decompress stream data maxLength := stream.inflate maxLength data []
  limit hmax h := StoredStream.limit_inflate hmax (Nat.zero_le _) h
  jpeg := sampleCodecs.jpeg
  merge := sampleCodecs.merge
  interleaves := sampleCodecs.interleaves

variable {maxLength : ℕ} {data : Bytes}

/-- A flushed block is put out, if there is room for its data, and nothing of it is left. -/
theorem decompress_flushedBlock (hdata : data.length < 65536)
    (hroom : maxLength = 0 ∨ data.length ≤ maxLength) :
    storedCodecs.decompress (.block []) (flushedBlock data) maxLength =
      .ok (data, [], .block []) := by
  have hroom' : maxLength = 0 ∨ ([] : Bytes).length + data.length ≤ maxLength := by
    rwa [List.length_nil, Nat.zero_add]
  have hblock := StoredStream.inflate_storedBlock hdata (storedBlock []) hroom'
  have hempty : StoredStream.inflate maxLength (.block []) (storedBlock []) data =
      .ok (data, [], .block []) := rfl
  exact hblock.trans hempty

/-- The first one comes behind the header. -/
theorem decompress_first (hdata : data.length < 65536)
    (hroom : maxLength = 0 ∨ data.length ≤ maxLength) :
    storedCodecs.decompress (.start []) (zlibHeader ++ flushedBlock data) maxLength =
      .ok (data, [], .block []) :=
  (StoredStream.inflate_zlibHeader _ []).trans (decompress_flushedBlock hdata hroom)

end Decoders

end VncDoTool
