import VncDoTool.Lib.ByteString

/-!
# Python's readings of byte strings

The built-in conversions the handshake code applies to bytes off the wire: `int` of a byte
string, `decode("ascii", "replace")`, and the `repr` that error messages quote.
-/

namespace VncDoTool

namespace PyText

/-- The bytes `int` strips from both ends: tab to carriage return, and space. -/
def isSpace (b : UInt8) : Bool := (9 ≤ b && b ≤ 13) || b = 32

/-- An ASCII decimal digit. -/
def isDigit (b : UInt8) : Bool := 48 ≤ b && b ≤ 57

/-- The rest of a decimal numeral whose first digits gave `acc`. Single underscores may
separate digits. -/
def digits : Bytes → ℕ → Option ℕ
  | [], acc => some acc
  | b :: rest, acc =>
    if isDigit b then digits rest (acc * 10 + (b.toNat - 48))
    else if b = 95 then
      match rest with
      | [] => none
      | d :: rest => if isDigit d then digits rest (acc * 10 + (d.toNat - 48)) else none
    else none

/-- An unsigned numeral: at least one digit. -/
def unsigned : Bytes → Option ℕ
  | [] => none
  | b :: rest => if isDigit b then digits rest (b.toNat - 48) else none

/-- `int(b)` for a byte string; `none` is a `ValueError`. -/
def int (b : Bytes) : Option ℤ :=
  match ((b.dropWhile isSpace).reverse.dropWhile isSpace).reverse with
  | 43 :: rest => (unsigned rest).map (fun n => (n : ℤ))
  | 45 :: rest => (unsigned rest).map (fun n => -(n : ℤ))
  | rest => (unsigned rest).map (fun n => (n : ℤ))

/-- `b.decode("ascii", "replace")`. -/
def decodeAscii (b : Bytes) : String :=
  String.ofList (b.map fun x => if x < 128 then Char.ofNat x.toNat else Char.ofNat 0xFFFD)

/-- `b.decode("iso-8859-1")`: every byte is the code point of the same number. -/
def decodeLatin1 (b : Bytes) : List Char := b.map fun x => Char.ofNat x.toNat

/-- The continuation bytes a UTF-8 start byte calls for, each with its range, and the bits the start
byte itself carries. `none` for a byte no sequence starts with. -/
def utf8Start (b : UInt8) : Option (ℕ × List (UInt8 × UInt8)) :=
  if b < 0x80 then some (b.toNat, [])
  else if b < 0xC2 then none
  else if b < 0xE0 then some (b.toNat - 0xC0, [(0x80, 0xBF)])
  else if b < 0xF0 then
    let second := if b = 0xE0 then (0xA0, 0xBF) else if b = 0xED then (0x80, 0x9F) else (0x80, 0xBF)
    some (b.toNat - 0xE0, [second, (0x80, 0xBF)])
  else if b < 0xF5 then
    let second := if b = 0xF0 then (0x90, 0xBF) else if b = 0xF4 then (0x80, 0x8F) else (0x80, 0xBF)
    some (b.toNat - 0xF0, [second, (0x80, 0xBF), (0x80, 0xBF)])
  else none

/-- The replacement character. -/
def replacement : Char := Char.ofNat 0xFFFD

/-- Decode with the sequence in progress, its bits so far and the bytes it still needs: a byte
that does not continue it ends it with one replacement character and is read afresh. -/
def utf8Replace : Bytes → ℕ → List (UInt8 × UInt8) → List Char
  | [], _, [] => []
  | [], _, _ :: _ => [replacement]
  | b :: rest, bits, needed =>
    match needed with
    | (lo, hi) :: more =>
      if lo ≤ b ∧ b ≤ hi then
        let bits := bits * 64 + (b.toNat - 0x80)
        if more.isEmpty then Char.ofNat bits :: utf8Replace rest 0 []
        else utf8Replace rest bits more
      else
        match utf8Start b with
        | none => replacement :: replacement :: utf8Replace rest 0 []
        | some (bits, []) => replacement :: Char.ofNat bits :: utf8Replace rest 0 []
        | some (bits, needed) => replacement :: utf8Replace rest bits needed
    | [] =>
      match utf8Start b with
      | none => replacement :: utf8Replace rest 0 []
      | some (bits, []) => Char.ofNat bits :: utf8Replace rest 0 []
      | some (bits, needed) => utf8Replace rest bits needed

/-- `b.decode("utf-8", "replace")`. -/
def decodeUtf8 (b : Bytes) : String := String.ofList (utf8Replace b 0 [])

/-- `s.rstrip("\n")`. -/
def rstripNewline (s : String) : String :=
  String.ofList (s.toList.reverse.dropWhile (· = '\n')).reverse

/-- One hexadecimal digit, lower case. -/
def hexDigit (n : ℕ) : Char := (Nat.digitChar n)

/-- How `repr` shows one byte of a byte string quoted with `quote`. -/
def reprByte (quote : Char) (b : UInt8) : List Char :=
  let c := Char.ofNat b.toNat
  if c = quote ∨ c = '\\' then ['\\', c]
  else if c = '\t' then ['\\', 't']
  else if c = '\n' then ['\\', 'n']
  else if c = '\r' then ['\\', 'r']
  else if 32 ≤ b ∧ b < 127 then [c]
  else ['\\', 'x', hexDigit (b.toNat / 16), hexDigit (b.toNat % 16)]

/-- `repr(b)` of a `bytes` object. Single quotes, unless the string holds one and no double
quote. -/
def repr (b : Bytes) : String :=
  let quote := if (39 : UInt8) ∈ b ∧ (34 : UInt8) ∉ b then '"' else '\''
  String.ofList (['b', quote] ++ b.flatMap (reprByte quote) ++ [quote])

end PyText

end VncDoTool
