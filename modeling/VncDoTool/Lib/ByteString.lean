import Mathlib.Data.List.Basic
import Mathlib.Tactic.Ring

/-!
# Byte strings

Byte strings as lists, fixed-size blocks, and the big-endian integer fields a binary
protocol packs into them.

* `Block n`: a byte string carrying the proof that it has `n` bytes.
* `byteAt`, `u16At`, `u32At`, `i32At`: the unsigned and signed fields at an offset.
* `be16`, `be32`, `beInt32`: the same fields written out. `u16At_be16`, `u32At_be32` and
  `i32At_beInt32` read them back.
-/

/-- A byte string. -/
abbrev Bytes : Type := List UInt8

/-- A byte string of exactly `n` bytes. -/
def Block (n : ℕ) : Type := {b : Bytes // b.length = n}

namespace Block

instance (n : ℕ) : DecidableEq (Block n) :=
  inferInstanceAs (DecidableEq {b : Bytes // b.length = n})

/-- The bytes of a block. -/
def bytes {n : ℕ} (b : Block n) : Bytes := b.val

@[simp] theorem length_bytes {n : ℕ} (b : Block n) : b.bytes.length = n := b.property

@[simp] theorem bytes_mk {n : ℕ} (b : Bytes) (h : b.length = n) :
    bytes (⟨b, h⟩ : Block n) = b := rfl

/-- Two blocks with the same bytes are equal. -/
@[ext] theorem ext {n : ℕ} {a b : Block n} (h : a.bytes = b.bytes) : a = b := Subtype.ext h

/-- The first `n` bytes of a byte string that has that many. -/
def ofPrefix (n : ℕ) (b : Bytes) (h : n ≤ b.length) : Block n :=
  ⟨b.take n, by simp [h]⟩

@[simp] theorem bytes_ofPrefix (n : ℕ) (b : Bytes) (h : n ≤ b.length) :
    (ofPrefix n b h).bytes = b.take n := rfl

/-- A byte as a block. -/
def single (b : UInt8) : Block 1 := ⟨[b], rfl⟩

@[simp] theorem bytes_single (b : UInt8) : (single b).bytes = [b] := rfl

/-- A byte string of known length as a block. -/
def of {n : ℕ} (b : Bytes) (h : b.length = n) : Block n := ⟨b, h⟩

@[simp] theorem bytes_of {n : ℕ} (b : Bytes) (h : b.length = n) : (of b h).bytes = b := rfl

/-- Reading a block back from the front of the string it starts. -/
theorem ofPrefix_append {n : ℕ} (b : Block n) (rest : Bytes)
    (h : n ≤ (b.bytes ++ rest).length) : ofPrefix n (b.bytes ++ rest) h = b := by
  apply Block.ext
  rw [bytes_ofPrefix, List.take_left' b.length_bytes]

end Block

/-! ## Reading fields -/

/-- The byte at an offset, as a number. -/
def byteAt (b : Bytes) (i : ℕ) : ℕ := (b.getD i 0).toNat

/-- The big-endian unsigned 16-bit field at an offset. -/
def u16At (b : Bytes) (i : ℕ) : ℕ := 256 * byteAt b i + byteAt b (i + 1)

/-- The big-endian unsigned 32-bit field at an offset. -/
def u32At (b : Bytes) (i : ℕ) : ℕ := 65536 * u16At b i + u16At b (i + 2)

/-- The big-endian two's complement 32-bit field at an offset. -/
def i32At (b : Bytes) (i : ℕ) : ℤ :=
  if u32At b i < 2 ^ 31 then (u32At b i : ℤ) else (u32At b i : ℤ) - 2 ^ 32

theorem byteAt_lt (b : Bytes) (i : ℕ) : byteAt b i < 256 := UInt8.toNat_lt _

theorem u16At_lt (b : Bytes) (i : ℕ) : u16At b i < 65536 := by
  have h₀ := byteAt_lt b i
  have h₁ := byteAt_lt b (i + 1)
  unfold u16At
  omega

@[simp] theorem byteAt_cons_zero (x : UInt8) (b : Bytes) : byteAt (x :: b) 0 = x.toNat := rfl

@[simp] theorem byteAt_cons_succ (x : UInt8) (b : Bytes) (i : ℕ) :
    byteAt (x :: b) (i + 1) = byteAt b i := rfl

/-- A byte that was written. -/
theorem byteAt_ofNat {n : ℕ} (h : n < 256) (rest : Bytes) :
    byteAt (UInt8.ofNat n :: rest) 0 = n := by
  rw [byteAt_cons_zero, UInt8.toNat_ofNat', Nat.mod_eq_of_lt (by omega)]

/-- Two numbers of four bits in a byte. -/
theorem nibbles {a b : ℕ} (hb : b < 16) : (16 * a + b) >>> 4 = a ∧ (16 * a + b) &&& 0xF = b := by
  have hmask : (16 * a + b) &&& (2 ^ 4 - 1) = (16 * a + b) % 2 ^ 4 :=
    Nat.and_two_pow_sub_one_eq_mod _ 4
  refine ⟨?_, hmask.trans (by omega)⟩
  rw [Nat.shiftRight_eq_div_pow]
  omega

@[simp] theorem u16At_cons_succ (x : UInt8) (b : Bytes) (i : ℕ) :
    u16At (x :: b) (i + 1) = u16At b i := rfl

@[simp] theorem u32At_cons_succ (x : UInt8) (b : Bytes) (i : ℕ) :
    u32At (x :: b) (i + 1) = u32At b i := rfl

/-- A field behind the first of two strings is the second's. -/
theorem byteAt_append_right (a b : Bytes) (i : ℕ) : byteAt (a ++ b) (a.length + i) = byteAt b i := by
  simp [byteAt, List.getD_eq_getElem?_getD, List.getElem?_append_right (Nat.le_add_right ..)]

theorem u16At_append_right (a b : Bytes) (i : ℕ) : u16At (a ++ b) (a.length + i) = u16At b i := by
  rw [u16At, u16At, Nat.add_assoc, byteAt_append_right, byteAt_append_right]

theorem u32At_append_right (a b : Bytes) (i : ℕ) : u32At (a ++ b) (a.length + i) = u32At b i := by
  rw [u32At, u32At, Nat.add_assoc, u16At_append_right, u16At_append_right]

theorem i32At_append_right (a b : Bytes) (i : ℕ) : i32At (a ++ b) (a.length + i) = i32At b i := by
  rw [i32At, i32At, u32At_append_right]

/-- A field inside the first of two strings does not see the second. -/
theorem byteAt_append_left {a : Bytes} {i : ℕ} (b : Bytes) (h : i < a.length) :
    byteAt (a ++ b) i = byteAt a i := by
  simp [byteAt, List.getD_eq_getElem?_getD, List.getElem?_append_left h]

theorem u16At_append_left {a : Bytes} {i : ℕ} (b : Bytes) (h : i + 1 < a.length) :
    u16At (a ++ b) i = u16At a i := by
  rw [u16At, u16At, byteAt_append_left b (by omega), byteAt_append_left b h]

theorem u32At_append_left {a : Bytes} {i : ℕ} (b : Bytes) (h : i + 3 < a.length) :
    u32At (a ++ b) i = u32At a i := by
  rw [u32At, u32At, u16At_append_left b (by omega), u16At_append_left b (by omega)]

/-! ## Writing fields -/

/-- An unsigned 16-bit field, most significant byte first. -/
def be16 (n : ℕ) : Bytes := [UInt8.ofNat (n / 256), UInt8.ofNat n]

/-- An unsigned 32-bit field, most significant byte first. -/
def be32 (n : ℕ) : Bytes :=
  [UInt8.ofNat (n / 16777216), UInt8.ofNat (n / 65536), UInt8.ofNat (n / 256), UInt8.ofNat n]

/-- A two's complement 32-bit field, most significant byte first. -/
def beInt32 (n : ℤ) : Bytes := be32 (n % 2 ^ 32).toNat

@[simp] theorem length_be16 (n : ℕ) : (be16 n).length = 2 := rfl

@[simp] theorem length_be32 (n : ℕ) : (be32 n).length = 4 := rfl

@[simp] theorem length_beInt32 (n : ℤ) : (beInt32 n).length = 4 := rfl

theorem u16At_be16 {n : ℕ} (h : n < 65536) (rest : Bytes) : u16At (be16 n ++ rest) 0 = n := by
  simp only [u16At, be16, List.cons_append, List.nil_append, byteAt_cons_zero,
    byteAt_cons_succ, UInt8.toNat_ofNat']
  omega

theorem u32At_be32 {n : ℕ} (h : n < 2 ^ 32) (rest : Bytes) : u32At (be32 n ++ rest) 0 = n := by
  simp only [u32At, u16At, be32, List.cons_append, List.nil_append, byteAt_cons_zero,
    byteAt_cons_succ, UInt8.toNat_ofNat', Nat.zero_add]
  omega

theorem i32At_beInt32 {n : ℤ} (hlo : -2 ^ 31 ≤ n) (hhi : n < 2 ^ 31) (rest : Bytes) :
    i32At (beInt32 n ++ rest) 0 = n := by
  have hlt : (n % 2 ^ 32).toNat < 2 ^ 32 := by omega
  rw [i32At, beInt32, u32At_be32 hlt]
  split <;> omega

/-- Offsets past a 16-bit field read the string behind it. -/
@[simp] theorem byteAt_be16_append (n i : ℕ) (rest : Bytes) :
    byteAt (be16 n ++ rest) (i + 2) = byteAt rest i := rfl

@[simp] theorem byteAt_be32_append (n i : ℕ) (rest : Bytes) :
    byteAt (be32 n ++ rest) (i + 4) = byteAt rest i := rfl

@[simp] theorem u16At_be16_append (n i : ℕ) (rest : Bytes) :
    u16At (be16 n ++ rest) (i + 2) = u16At rest i := rfl

@[simp] theorem u32At_be16_append (n i : ℕ) (rest : Bytes) :
    u32At (be16 n ++ rest) (i + 2) = u32At rest i := rfl

@[simp] theorem u32At_be32_append (n i : ℕ) (rest : Bytes) :
    u32At (be32 n ++ rest) (i + 4) = u32At rest i := rfl

/-! ## Checked writing

A packer refuses an integer its field cannot hold. -/

/-- An unsigned byte. -/
def pack8 (n : ℤ) : Option Bytes :=
  if 0 ≤ n ∧ n < 256 then some [UInt8.ofNat n.toNat] else none

/-- An unsigned 16-bit field. -/
def pack16 (n : ℤ) : Option Bytes :=
  if 0 ≤ n ∧ n < 65536 then some (be16 n.toNat) else none

/-- An unsigned 32-bit field. -/
def pack32 (n : ℤ) : Option Bytes :=
  if 0 ≤ n ∧ n < 2 ^ 32 then some (be32 n.toNat) else none

/-- A signed 32-bit field. -/
def packInt32 (n : ℤ) : Option Bytes :=
  if -2 ^ 31 ≤ n ∧ n < 2 ^ 31 then some (beInt32 n) else none

theorem pack8_natCast {n : ℕ} (h : n < 256) : pack8 n = some [UInt8.ofNat n] := by
  rw [pack8, if_pos (by omega), Int.toNat_natCast]

theorem pack16_natCast {n : ℕ} (h : n < 65536) : pack16 n = some (be16 n) := by
  rw [pack16, if_pos (by omega), Int.toNat_natCast]

theorem pack32_natCast {n : ℕ} (h : n < 2 ^ 32) : pack32 n = some (be32 n) := by
  rw [pack32, if_pos (by omega), Int.toNat_natCast]

theorem pack8_eq_some {n : ℤ} {b : Bytes} (h : pack8 n = some b) :
    ∃ m : ℕ, n = m ∧ m < 256 ∧ b = [UInt8.ofNat m] := by
  rw [pack8] at h
  split at h
  · cases h
    exact ⟨n.toNat, by omega, by omega, rfl⟩
  · cases h

theorem pack16_eq_some {n : ℤ} {b : Bytes} (h : pack16 n = some b) :
    ∃ m : ℕ, n = m ∧ m < 65536 ∧ b = be16 m := by
  rw [pack16] at h
  split at h
  · cases h
    exact ⟨n.toNat, by omega, by omega, rfl⟩
  · cases h

theorem pack32_eq_some {n : ℤ} {b : Bytes} (h : pack32 n = some b) :
    ∃ m : ℕ, n = m ∧ m < 2 ^ 32 ∧ b = be32 m := by
  rw [pack32] at h
  split at h
  · cases h
    exact ⟨n.toNat, by omega, by omega, rfl⟩
  · cases h

theorem packInt32_eq_some {n : ℤ} {b : Bytes} (h : packInt32 n = some b) :
    -2 ^ 31 ≤ n ∧ n < 2 ^ 31 ∧ b = beInt32 n := by
  rw [packInt32] at h
  split at h
  · next hn =>
    cases h
    exact ⟨hn.1, hn.2, rfl⟩
  · cases h
