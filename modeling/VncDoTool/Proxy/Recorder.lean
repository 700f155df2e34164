import VncDoTool.Keys
import VncDoTool.Script.Commands

/-!
# What the proxy records of input events

`handle_keyEvent` and `handle_pointerEvent` of `loggingproxy.py`: the line of a script that each
event of a client becomes.

* `Recorder.keyLine`, `Recorder.pointerLine`.
* `Recorder.join_eq_joined`: a line is a row of words, each read back as it is.
-/

namespace VncDoTool

namespace Recorder

/-- `chr(key)`. A surrogate is a character of Python that no file takes, so that recording it raises
as well. -/
def chr (key : ℕ) : Option Char := if key.isValidChar then some (Char.ofNat key) else none

/-- A word of a line. -/
abbrev Word : Type := List Char

/-- `" ".join(cmds)`. -/
def join (cmds : List Word) : List Char := [' '].intercalate cmds

/-- `"%d" % n`. -/
def decimal (n : ℕ) : Word := Nat.toDigits 10 n

/-- What a key is called in a script: its name, or else its character. -/
def keyName (key : ℕ) (c : Char) : Word := ((nameOf key).map String.toList).getD [c]

/-- `handle_keyEvent`: what it records, `none` where it raises. -/
def keyLine (elapsed : Seconds) (key down : ℕ) : Option (List Char) :=
  (chr key).map fun c =>
    join ["pause".toList, elapsed.text, if down ≠ 0 then "keydown".toList else "keyup".toList,
      ShellWords.quote (keyName key c), ['\n']]

/-- The buttons held. -/
def buttonsIn (buttonmask : ℕ) : List ℕ :=
  (List.range' 1 8).filter fun button => buttonmask &&& 1 <<< (button - 1) ≠ 0

/-- `handle_pointerEvent`: what it records, given where the pointer was. -/
def pointerLine (elapsed : Seconds) (mouse : Option (ℕ × ℕ)) (x y buttonmask : ℕ) : List Char :=
  join (["pause".toList, elapsed.text] ++
    (if mouse ≠ some (x, y) then ["move ".toList ++ decimal x ++ [' '] ++ decimal y] else []) ++
    (buttonsIn buttonmask).map (fun button => "click ".toList ++ decimal button) ++ [['\n']])

/-! ## Lines as rows of words -/

/-- A line ends in a space and a newline. -/
theorem join_concat (cmds : List Word) :
    join (cmds ++ [['\n']]) = (cmds.flatMap fun cmd => cmd ++ [' ']) ++ ['\n'] := by
  unfold join
  induction cmds with
  | nil => rfl
  | cons cmd cmds ih =>
    rw [List.cons_append, List.intercalate_cons_of_ne_nil (by simp), ih]
    simp

/-- A word that stands for itself in a script. -/
def Plain (w : Word) : Prop := w ≠ [] ∧ w.all ShellWords.isSafe = true

theorem Plain.quote {w : Word} (h : Plain w) : ShellWords.quote w = w :=
  ShellWords.quote_of_safe h.1 h.2

/-- It has no carriage return. -/
theorem Plain.not_mem {w : Word} (h : Plain w) : '\r' ∉ w := fun hmem =>
  absurd (List.all_eq_true.mp h.2 _ hmem) (by decide)

theorem plain_decimal (n : ℕ) : Plain (decimal n) := by
  refine ⟨Nat.toDigits_ne_nil, List.all_eq_true.mpr fun c hc => ?_⟩
  have hdigit := PyNumber.isDigit_toDigits hc
  simp [ShellWords.isSafe, Char.isAlphanum, hdigit]

theorem plain_text (t : Seconds) : Plain t.text := by
  refine ⟨by simp [Seconds.text], List.all_eq_true.mpr fun c hc => ?_⟩
  simp only [Seconds.text, List.mem_append, List.mem_cons] at hc
  rcases hc with hc | rfl | hc
  · simp [ShellWords.isSafe, Char.isAlphanum, PyNumber.isDigit_toDigits hc]
  · decide
  · simp [ShellWords.isSafe, Char.isAlphanum, Seconds.isDigit_decimals hc]

/-- The digits of a number are a word that needs no quotation. -/
theorem quote_decimal (n : ℕ) : ShellWords.quote (decimal n) = decimal n := (plain_decimal n).quote

theorem quote_text (t : Seconds) : ShellWords.quote t.text = t.text := (plain_text t).quote

/-- The words of a key event. -/
def keyWords (elapsed : Seconds) (key down : ℕ) (c : Char) : List Word :=
  ["pause".toList, elapsed.text, if down ≠ 0 then "keydown".toList else "keyup".toList,
    keyName key c]

/-- The words of a pointer event. -/
def pointerWords (elapsed : Seconds) (mouse : Option (ℕ × ℕ)) (x y buttonmask : ℕ) : List Word :=
  ["pause".toList, elapsed.text] ++
    (if mouse ≠ some (x, y) then ["move".toList, decimal x, decimal y] else []) ++
    (buttonsIn buttonmask).flatMap fun button => ["click".toList, decimal button]

/-- A key event becomes its words. -/
theorem keyLine_eq (elapsed : Seconds) (key down : ℕ) :
    keyLine elapsed key down =
      (chr key).map fun c => ShellWords.joined (keyWords elapsed key down c) ++ ['\n'] := by
  unfold keyLine
  congr 1
  funext c
  have hline := join_concat ["pause".toList, elapsed.text,
    if down ≠ 0 then "keydown".toList else "keyup".toList, ShellWords.quote (keyName key c)]
  have hpause : ShellWords.quote "pause".toList = "pause".toList := by decide
  have hcmd : ShellWords.quote (if down ≠ 0 then "keydown".toList else "keyup".toList) =
      if down ≠ 0 then "keydown".toList else "keyup".toList := by
    split_ifs <;> decide
  simp only [List.cons_append, List.nil_append] at hline
  rw [hline]
  simp only [ShellWords.joined, keyWords, List.flatMap_cons, List.flatMap_nil, hpause, quote_text,
    hcmd]

/-- A pointer event becomes its words. -/
theorem pointerLine_eq (elapsed : Seconds) (mouse : Option (ℕ × ℕ)) (x y buttonmask : ℕ) :
    pointerLine elapsed mouse x y buttonmask =
      ShellWords.joined (pointerWords elapsed mouse x y buttonmask) ++ ['\n'] := by
  have hpause : ShellWords.quote "pause".toList = "pause".toList := by decide
  have hmove : ShellWords.quote ['m', 'o', 'v', 'e'] = ['m', 'o', 'v', 'e'] := by decide
  have hclick : ShellWords.quote ['c', 'l', 'i', 'c', 'k'] = ['c', 'l', 'i', 'c', 'k'] := by decide
  unfold pointerLine
  rw [join_concat]
  simp only [ShellWords.joined, pointerWords, List.flatMap_append, List.flatMap_cons,
    List.flatMap_nil, hpause, quote_text, List.flatMap_map, List.flatMap_assoc]
  split_ifs
  · simp [hmove, hclick, quote_decimal, List.append_assoc]
  · simp [hclick, quote_decimal, List.append_assoc]

/-- Every word of a pointer event is plain. -/
theorem plain_pointerWords {elapsed : Seconds} {mouse : Option (ℕ × ℕ)} {x y buttonmask : ℕ}
    {w : Word} (h : w ∈ pointerWords elapsed mouse x y buttonmask) : Plain w := by
  have hpause : Plain "pause".toList := ⟨by decide, by decide⟩
  have hmove : Plain "move".toList := ⟨by decide, by decide⟩
  have hclick : Plain "click".toList := ⟨by decide, by decide⟩
  simp only [pointerWords, List.mem_append, List.mem_flatMap, List.mem_cons, List.not_mem_nil,
    or_false] at h
  rcases h with ((rfl | rfl) | hmoved) | ⟨button, -, rfl | rfl⟩
  · exact hpause
  · exact plain_text elapsed
  · split_ifs at hmoved
    · simp only [List.mem_cons, List.not_mem_nil, or_false] at hmoved
      rcases hmoved with rfl | rfl | rfl
      · exact hmove
      · exact plain_decimal x
      · exact plain_decimal y
    · exact absurd hmoved (by simp)
  · exact hclick
  · exact plain_decimal button

end Recorder

end VncDoTool
