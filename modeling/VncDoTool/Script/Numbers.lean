import Mathlib.Algebra.Order.Field.Rat
import Mathlib.Data.List.TakeDrop
import Mathlib.Data.List.TakeWhile
import Mathlib.Tactic.Positivity

/-!
# Numbers in a script

How the commands of a script read the numbers in it: Python's `int` and `float` of a text, for
numerals written with the digits of ASCII.

* `PyNumber.int`, `PyNumber.float`.
* `PyNumber.int_toDigits`: a number that was written with `%d` is read back.
* `Seconds`: a time written with `%.4f`; `Seconds.float_text`: it is read as a number.
-/

namespace VncDoTool

namespace PyNumber

/-- What `int` and `float` strip from both ends. -/
def isBlank (c : Char) : Bool := c = ' ' || ('\t' ≤ c && c ≤ '\r') || ('\x1c' ≤ c && c ≤ '\x1f')

/-- `w.strip()`. -/
def strip (w : List Char) : List Char :=
  ((w.dropWhile isBlank).reverse.dropWhile isBlank).reverse

/-- The digits of an unsigned numeral: single underscores may stand between them. -/
def digits (w : List Char) : Option (List Char) :=
  let parts := w.splitOn '_'
  if parts.all (fun part => !part.isEmpty && part.all Char.isDigit) then some parts.flatten else none

/-- An unsigned numeral. -/
def natural (w : List Char) : Option ℕ := (digits w).map fun ds => Nat.ofDigitChars 10 ds 0

/-- A numeral with a sign or without. -/
def signed : List Char → Option ℤ
  | '+' :: w => (natural w).map Int.ofNat
  | '-' :: w => (natural w).map fun n : ℕ => -Int.ofNat n
  | w => (natural w).map Int.ofNat

/-- `int(w)`; `none` is a `ValueError`. -/
def int (w : List Char) : Option ℤ := signed (strip w)

end PyNumber

/-- A `float`, but for the rounding of its digits. -/
inductive PyFloat : Type
  | finite (value : ℚ)
  | inf (negative : Bool)
  | nan
  deriving DecidableEq

namespace PyNumber

/-- A decimal without a sign: digits, with a point among them or without. -/
def decimal (w : List Char) : Option ℚ :=
  match w.span (· ≠ '.') with
  | (whole, []) => (natural whole).map fun n : ℕ => (n : ℚ)
  | (whole, _ :: fraction) =>
    if whole = [] ∧ fraction = [] then none
    else do
      let d ← if whole = [] then some [] else digits whole
      let f ← if fraction = [] then some [] else digits fraction
      some ((Nat.ofDigitChars 10 (d ++ f) 0 : ℚ) / 10 ^ f.length)

/-- A decimal with an exponent or without. -/
def scaled (w : List Char) : Option ℚ :=
  match w.span fun c => c ≠ 'e' ∧ c ≠ 'E' with
  | (mantissa, []) => decimal mantissa
  | (mantissa, _ :: exponent) => do
    let value ← decimal mantissa
    let n ← signed exponent
    some (value * 10 ^ n)

/-- What follows the sign. -/
def magnitude (negative : Bool) (w : List Char) : Option PyFloat :=
  let lower := w.map Char.toLower
  if lower = "inf".toList ∨ lower = "infinity".toList then some (.inf negative)
  else if lower = "nan".toList then some .nan
  else (scaled w).map fun value => .finite (if negative then -value else value)

/-- `float(w)`; `none` is a `ValueError`. -/
def float (w : List Char) : Option PyFloat :=
  match strip w with
  | '+' :: w => magnitude false w
  | '-' :: w => magnitude true w
  | w => magnitude false w

/-! ## Reading back what was written -/

variable {w : List Char}

/-- Digits are not stripped. -/
theorem strip_of_digits (h : ∀ c ∈ w, c.isDigit = true ∨ c = '.') : strip w = w := by
  have hblank : ∀ c ∈ w, isBlank c = false := by
    intro c hc
    rcases h c hc with hdigit | rfl
    · simp only [Char.isDigit, Bool.and_eq_true, decide_eq_true_eq] at hdigit
      have hlow : (48 : ℕ) ≤ c.toNat := hdigit.1
      have hspace : c ≠ ' ' := by
        rintro rfl
        exact absurd hlow (by decide)
      have hcontrol : ¬c ≤ '\x1f' := by
        intro hle
        have : c.toNat ≤ 31 := hle
        omega
      have hreturn : ¬c ≤ '\r' := by
        intro hle
        have : c.toNat ≤ 13 := hle
        omega
      simp [isBlank, hspace, hcontrol, hreturn]
    · decide
  have hdrop : ∀ {w : List Char}, (∀ c ∈ w, isBlank c = false) → w.dropWhile isBlank = w := by
    intro w hw
    cases w with
    | nil => rfl
    | cons c w => simp [hw c (by simp)]
  unfold strip
  rw [hdrop hblank, hdrop fun c hc => hblank c (List.mem_reverse.mp hc), List.reverse_reverse]

/-- A run of digits is a numeral. -/
theorem digits_of_digits (hne : w ≠ []) (h : ∀ c ∈ w, c.isDigit = true) : digits w = some w := by
  have hsplit : w.splitOn '_' = [w] := by
    refine List.splitOn_eq_singleton fun hmem => ?_
    exact absurd (h '_' hmem) (by decide)
  have hall : w.all Char.isDigit = true := List.all_eq_true.mpr h
  simp [digits, hsplit, hne, hall]

/-- Neither is a sign. -/
theorem signed_of_digits (h : ∀ c ∈ w, c.isDigit = true) :
    signed w = (natural w).map Int.ofNat := by
  unfold signed
  split
  next w => exact absurd (h '+' (by simp)) (by decide)
  next w => exact absurd (h '-' (by simp)) (by decide)
  next => rfl

theorem isDigit_toDigits {n : ℕ} {c : Char} (h : c ∈ Nat.toDigits 10 n) : c.isDigit = true :=
  Nat.isDigit_of_mem_toDigits (by decide) (by decide) h

theorem natural_toDigits (n : ℕ) : natural (Nat.toDigits 10 n) = some n := by
  unfold natural
  rw [digits_of_digits Nat.toDigits_ne_nil fun _ => isDigit_toDigits, Option.map_some,
    Nat.ofDigitChars_ten_toDigits]

/-- A number that was written is read back. -/
theorem int_toDigits (n : ℕ) : int (Nat.toDigits 10 n) = some (n : ℤ) := by
  unfold int
  rw [strip_of_digits fun c hc => .inl (isDigit_toDigits hc),
    signed_of_digits fun _ => isDigit_toDigits, natural_toDigits]
  rfl

end PyNumber

/-! ## Times -/

/-- A time as `%.4f` writes it. It is not negative: a clock that is set back between two events is left
out. -/
structure Seconds : Type where
  whole : ℕ
  fraction : Fin 10000

namespace Seconds

/-- The digits behind the point. -/
def decimals (t : Seconds) : List Char :=
  [(t.fraction.val / 1000).digitChar, (t.fraction.val / 100 % 10).digitChar,
    (t.fraction.val / 10 % 10).digitChar, (t.fraction.val % 10).digitChar]

/-- `%.4f`. -/
def text (t : Seconds) : List Char := Nat.toDigits 10 t.whole ++ '.' :: t.decimals

/-- The number written. -/
def value (t : Seconds) : ℚ :=
  (Nat.ofDigitChars 10 (Nat.toDigits 10 t.whole ++ t.decimals) 0 : ℚ) / 10 ^ 4

theorem isDigit_decimals {t : Seconds} {c : Char} (h : c ∈ t.decimals) : c.isDigit = true := by
  have hlt := t.fraction.isLt
  simp only [decimals, List.mem_cons, List.not_mem_nil, or_false] at h
  rcases h with rfl | rfl | rfl | rfl <;> rw [Nat.isDigit_digitChar, decide_eq_true_eq] <;> omega

theorem value_nonneg (t : Seconds) : 0 ≤ t.value := by
  unfold value
  positivity

theorem span_whole (t : Seconds) :
    t.text.span (· ≠ '.') = (Nat.toDigits 10 t.whole, '.' :: t.decimals) := by
  have hwhole : ∀ c ∈ Nat.toDigits 10 t.whole, (decide (c ≠ '.')) = true := by
    intro c hc
    have hdigit := PyNumber.isDigit_toDigits hc
    refine decide_eq_true fun hdot => ?_
    exact absurd (hdot ▸ hdigit) (by decide)
  rw [List.span_eq_takeWhile_dropWhile]
  unfold text
  rw [List.takeWhile_append_of_pos hwhole, List.dropWhile_append_of_pos hwhole]
  simp

/-- It is read as a number. -/
theorem float_text (t : Seconds) : PyNumber.float t.text = some (.finite t.value) := by
  have hchar : ∀ c ∈ t.text, c.isDigit = true ∨ c = '.' := by
    intro c hc
    simp only [text, List.mem_append, List.mem_cons] at hc
    rcases hc with hc | rfl | hc
    · exact .inl (PyNumber.isDigit_toDigits hc)
    · exact .inr rfl
    · exact .inl (isDigit_decimals hc)
  -- No sign, no exponent and no word: what is written is digits and a point.
  have hnot : ∀ d : Char, d.isDigit = false → d ≠ '.' → d ∉ t.text := by
    intro d hdigit hdot hmem
    rcases hchar d hmem with h | h
    · exact absurd (h.symm.trans hdigit) (by simp)
    · exact hdot h
  have hdecimal : PyNumber.decimal t.text = some t.value := by
    unfold PyNumber.decimal
    rw [span_whole]
    have hwhole := PyNumber.digits_of_digits Nat.toDigits_ne_nil
      fun c (hc : c ∈ Nat.toDigits 10 t.whole) => PyNumber.isDigit_toDigits hc
    have hfraction := PyNumber.digits_of_digits (by simp [decimals])
      fun c (hc : c ∈ t.decimals) => isDigit_decimals hc
    have hne : t.decimals ≠ [] := by simp [decimals]
    simp only [hne, Nat.toDigits_ne_nil, false_and, if_false, hwhole, hfraction]
    rfl
  have hscaled : PyNumber.scaled t.text = some t.value := by
    have hspan : t.text.span (fun c => decide (c ≠ 'e' ∧ c ≠ 'E')) = (t.text, []) := by
      rw [List.span_eq_takeWhile_dropWhile]
      have hall : ∀ c ∈ t.text, decide (c ≠ 'e' ∧ c ≠ 'E') = true := by
        intro c hc
        refine decide_eq_true ⟨?_, ?_⟩
        · rintro rfl
          exact hnot 'e' (by decide) (by decide) hc
        · rintro rfl
          exact hnot 'E' (by decide) (by decide) hc
      rw [List.takeWhile_eq_self_iff.mpr hall, List.dropWhile_eq_nil_iff.mpr hall]
    unfold PyNumber.scaled
    rw [hspan]
    exact hdecimal
  have hdot : '.' ∈ t.text := by simp [text]
  have hword : ∀ w : List Char, '.' ∉ w → t.text.map Char.toLower ≠ w := by
    intro w hw hmap
    refine hw (hmap ▸ List.mem_map.mpr ⟨'.', hdot, by decide⟩)
  have hmagnitude : PyNumber.magnitude false t.text = some (.finite t.value) := by
    unfold PyNumber.magnitude
    simp only [hword _ (show '.' ∉ "inf".toList by decide),
      hword _ (show '.' ∉ "infinity".toList by decide),
      hword _ (show '.' ∉ "nan".toList by decide), or_self, if_false, hscaled]
    rfl
  unfold PyNumber.float
  rw [PyNumber.strip_of_digits hchar]
  split
  next w hw => exact absurd (hw ▸ List.mem_cons_self) (hnot '+' (by decide) (by decide))
  next w hw => exact absurd (hw ▸ List.mem_cons_self) (hnot '-' (by decide) (by decide))
  next => exact hmagnitude

end Seconds

end VncDoTool
