import VncDoTool.Decoders.Base
import VncDoTool.Lib.Feeding

/-!
# Feeding decoders

A decoder is fed the bytes of its rectangle, with those of what comes next behind them.

* `Decoders.supply`: each read takes its bytes off the front.
* `Decoders.Decodes`: a decoder takes exactly some bytes and returns a value.
* `Decoders.Refuses`: a decoder raises a `DecodeError` on some bytes.
* `Decoders.ran_read`, `Decoders.ran_ofExcept`: what is known of a decoder that finished.
-/

namespace VncDoTool

namespace Decoders

open RFBClient Coroutine

variable {codecs : Codecs} {S α β : Type}

/-- The bytes of a read come off the front; `_packet` is what is left. -/
def supply : Supply Request Answer UInt8
  | .bytes n, input =>
    if h : n.toNat ≤ input.length then some (Block.ofPrefix n.toNat input h, input.drop n.toNat)
    else none
  | .packet, input => some (decide (input ≠ []), input)

/-- The decoder takes exactly `input` and returns `v`, leaving the client as `a'`. -/
abbrev Decodes (m : Gen (Decoding codecs) S α) (a : DAttrs codecs S) (input : Bytes) (v : α)
    (a' : DAttrs codecs S) : Prop := Consumes supply m a input v a'

/-- The decoder raises a `DecodeError` on `input`. -/
abbrev Refuses (m : Gen (Decoding codecs) S α) (a : DAttrs codecs S) (input : Bytes) : Prop :=
  Rejects supply m a input fun e => e.cls = .decodeError

variable {a a' : DAttrs codecs S} {input input' : Bytes}

theorem supply_bytes {n : ℕ} {block : Bytes} (h : block.length = n) (rest : Bytes) :
    supply (.bytes n) (block ++ rest) = some (Block.of block h, rest) := by
  subst h
  have hroom : block.length ≤ (block ++ rest).length := by
    rw [List.length_append]
    omega
  refine (dif_pos hroom).trans ?_
  refine congrArg some (Prod.ext (Block.ofPrefix_append (Block.of block rfl) rest hroom) ?_)
  exact List.drop_left

theorem decodes_read {n : ℕ} {b : Bytes} (h : b.length = n) (a : DAttrs codecs S) :
    Decodes (Gen.read n) a b (Block.of b h) a :=
  Consumes.yield (supply_bytes h) a

/-- A read, and what is done with its bytes. -/
theorem decodes_read_bind {n : ℕ} {b : Bytes} {f : Block n → Gen (Decoding codecs) S α} {v : α}
    (h : b.length = n) (hf : Decodes (f (Block.of b h)) a input v a') :
    Decodes (Gen.read n >>= f) a (b ++ input) v a' :=
  (decodes_read h a).bind hf

theorem refuses_read_bind {n : ℕ} {b : Bytes} {f : Block n → Gen (Decoding codecs) S α}
    (h : b.length = n) (hf : Refuses (f (Block.of b h)) a input) :
    Refuses (Gen.read n >>= f) a (b ++ input) :=
  Rejects.bind_right (decodes_read h a) hf

theorem decodes_ofExcept {v : Except PyErr α} {x : α} (h : v = .ok x) (a : DAttrs codecs S) :
    Decodes (Gen.lift (RFBClient.ofExcept v)) a [] x a := by
  subst h
  exact fun _ => rfl

/-- A call that may raise, and what is done with its value. -/
theorem decodes_ofExcept_bind {v : Except PyErr α} {x : α} {f : α → Gen (Decoding codecs) S β}
    {y : β} (h : v = .ok x) (hf : Decodes (f x) a input y a') :
    Decodes (Gen.lift (RFBClient.ofExcept v) >>= f) a input y a' :=
  (decodes_ofExcept h a).bind_nil hf

theorem refuses_ofExcept {v : Except PyErr α} {text : String} (h : v = .error ⟨.decodeError, text⟩)
    (a : DAttrs codecs S) (input : Bytes) : Refuses (Gen.lift (RFBClient.ofExcept v)) a input := by
  subst h
  exact fun rest => ⟨a, _, input ++ rest, rfl, rfl⟩

theorem refuses_raise (message : String) (a : DAttrs codecs S) (input : Bytes) :
    Refuses (Gen.raise .decodeError message : Gen (Decoding codecs) S α) a input :=
  fun rest => ⟨a, _, input ++ rest, rfl, rfl⟩

/-! ## Decoders that finished -/

variable {rest : Bytes}

/-- A read took its bytes off the front. -/
theorem ran_read {n : ℕ} {block : Block n}
    (h : Ran supply (Gen.read n : Gen (Decoding codecs) S (Block n)) a input a' block rest) :
    a = a' ∧ input = block.bytes ++ rest := by
  obtain ⟨hsame, hanswer⟩ := ran_yield h
  refine ⟨hsame, ?_⟩
  by_cases hroom : n ≤ input.length
  · have hsome : some (Block.ofPrefix n input hroom, input.drop n) = some (block, rest) :=
      (dif_pos hroom).symm.trans hanswer
    obtain ⟨rfl, rfl⟩ := Prod.mk.inj (Option.some.inj hsome)
    rw [Block.bytes_ofPrefix]
    exact (List.take_append_drop n input).symm
  · have hnone : none = some (block, rest) := (dif_neg hroom).symm.trans hanswer
    exact absurd hnone (by simp)

theorem ran_ofExcept {v : Except PyErr α} {x : α}
    (h : Ran supply (Gen.lift (RFBClient.ofExcept v) : Gen (Decoding codecs) S α) a input a' x rest) :
    v = .ok x ∧ a = a' ∧ input = rest := by
  cases v with
  | error e => cases h
  | ok y =>
    cases h
    exact ⟨rfl, rfl, rfl⟩

end Decoders

end VncDoTool
