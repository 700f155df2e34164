import Mathlib.Data.List.Basic

/-!
# Shell words

Quoting words for a shell, and reading them back: `quote` and a reader of POSIX words as Python's
`shlex` has them.

* `ShellWords.quote`: a word that is not safe as it stands is put between single quotes.
* `ShellWords.lex`: the reader, one character at a time; `none` where a quotation or an escape is
  not closed.
* `ShellWords.lex_quote`: a quoted word is read back as one word; `ShellWords.lex_joined`: words
  that were quoted and joined are read back.
-/

namespace ShellWords

/-- Where the reader is. -/
inductive LexState : Type
  | space
  | word
  /-- Behind this quotation mark. -/
  | quotation (mark : Char)
  /-- Behind a backslash, inside double quotes or not. -/
  | escape (quoted : Bool)
  | comment
  deriving DecidableEq, Repr

/-- The characters that separate words. -/
def isSpace (c : Char) : Bool := c = ' ' || c = '\t' || c = '\r' || c = '\n'

/-- The quotation marks. -/
def isMark (c : Char) : Bool := c = '\'' || c = '"'

/-- A word that is read to its end. -/
def emit (token : List Char) (quoted : Bool) : List (List Char) :=
  if token = [] ∧ quoted = false then [] else [token]

/-- Read the words, given the word begun and whether a part of it was quoted. -/
def lex : LexState → (token : List Char) → (quoted : Bool) → List Char → Option (List (List Char))
  | .space, _, _, [] => some []
  | .comment, _, _, [] => some []
  | .word, token, quoted, [] => some (emit token quoted)
  | .quotation _, _, _, [] => none
  | .escape _, _, _, [] => none
  | .space, _, _, c :: text =>
    if isSpace c then lex .space [] false text
    else if c = '#' then lex .comment [] false text
    else if c = '\\' then lex (.escape false) [] false text
    else if isMark c then lex (.quotation c) [] true text
    else lex .word [c] false text
  | .comment, _, _, c :: text =>
    if c = '\n' then lex .space [] false text else lex .comment [] false text
  | .word, token, quoted, c :: text =>
    if isSpace c then (lex .space [] false text).map (emit token quoted ++ ·)
    else if c = '#' then (lex .comment [] false text).map (emit token quoted ++ ·)
    else if isMark c then lex (.quotation c) token true text
    else if c = '\\' then lex (.escape false) token quoted text
    else lex .word (token ++ [c]) quoted text
  | .quotation mark, token, quoted, c :: text =>
    if c = mark then lex .word token quoted text
    else if c = '\\' ∧ mark = '"' then lex (.escape true) token quoted text
    else lex (.quotation mark) (token ++ [c]) quoted text
  | .escape inside, token, quoted, c :: text =>
    -- Between double quotes a backslash escapes only itself and the quotation mark.
    let kept := if inside ∧ c ≠ '\\' ∧ c ≠ '"' then ['\\'] else []
    lex (if inside then .quotation '"' else .word) (token ++ kept ++ [c]) quoted text

/-- The words of a text. -/
def split (text : List Char) : Option (List (List Char)) := lex .space [] false text

/-- The characters that need no quotation: letters and digits of ASCII, and some others. -/
def isSafe (c : Char) : Bool := c.isAlphanum || c ∈ "_@%+=:,./-".toList

/-- A character between single quotes: a single quote itself stands between double quotes. -/
def quoteChar (c : Char) : List Char := if c = '\'' then "'\"'\"'".toList else [c]

/-- Quote a word. -/
def quote (w : List Char) : List Char :=
  if w = [] then "''".toList
  else if w.all isSafe then w
  else '\'' :: (w.flatMap quoteChar ++ ['\''])

/-! ## Reading back -/

variable {token w text : List Char} {quoted : Bool}

/-- A safe character is part of a word wherever it stands. -/
theorem special_of_isSafe {c : Char} (h : isSafe c = true) :
    isSpace c = false ∧ c ≠ '#' ∧ c ≠ '\\' ∧ isMark c = false := by
  have hne : ∀ d : Char, isSafe d = false → c ≠ d := by
    rintro d hd rfl
    exact absurd (h.symm.trans hd) (by simp)
  refine ⟨?_, hne _ (by decide), hne _ (by decide), ?_⟩
  · simp [isSpace, hne ' ' (by decide), hne '\t' (by decide), hne '\r' (by decide),
      hne '\n' (by decide)]
  · simp [isMark, hne '\'' (by decide), hne '"' (by decide)]

/-- Safe characters go on with a word. -/
theorem lex_word_of_safe (h : w.all isSafe = true) :
    lex .word token quoted (w ++ text) = lex .word (token ++ w) quoted text := by
  induction w generalizing token with
  | nil => simp
  | cons c w ih =>
    rw [List.all_cons, Bool.and_eq_true] at h
    obtain ⟨hspace, hhash, hescape, hmark⟩ := special_of_isSafe h.1
    simp [lex, hspace, hhash, hescape, hmark, ih h.2]

/-- What stands between single quotes goes on with a word. -/
theorem lex_quotation :
    lex (.quotation '\'') token true (w.flatMap quoteChar ++ '\'' :: text) =
      lex .word (token ++ w) true text := by
  induction w generalizing token with
  | nil => simp [lex]
  | cons c w ih =>
    rw [List.flatMap_cons, List.append_assoc]
    by_cases hquote : c = '\''
    · -- the quotation is closed, the mark stands between double quotes, and it is opened again
      simp [quoteChar, hquote, lex, isSpace, isMark, ih]
    · simp [quoteChar, hquote, lex, ih]

/-- A quoted word is read as that word. -/
theorem lex_quote (hend : ∀ c ∈ text.head?, isSpace c = true) :
    lex .space [] false (quote w ++ text) = (lex .space [] false text).map (w :: ·) := by
  have hword : ∀ token quoted, emit token quoted = [token] →
      lex .word token quoted text = (lex .space [] false text).map (token :: ·) := by
    intro token quoted hemit
    cases text with
    | nil => simp [lex, hemit]
    | cons c text =>
      have hspace : isSpace c = true := hend c rfl
      simp only [lex, hspace, if_true, hemit, List.singleton_append]
  unfold quote
  split_ifs with hnil hsafe
  · subst hnil
    have hread : lex .space [] false ("''".toList ++ text) = lex .word [] true text := by
      simp [lex, isSpace, isMark]
    rw [hread, hword [] true (by simp [emit])]
  · obtain ⟨c, w, rfl⟩ := List.exists_cons_of_ne_nil hnil
    rw [List.all_cons, Bool.and_eq_true] at hsafe
    obtain ⟨hspace, hhash, hescape, hmark⟩ := special_of_isSafe hsafe.1
    have hread : lex .space [] false (c :: w ++ text) = lex .word (c :: w) false text := by
      rw [List.cons_append, lex]
      simp only [hspace, hhash, hescape, hmark, Bool.false_eq_true, if_false]
      rw [lex_word_of_safe hsafe.2, List.singleton_append]
    rw [hread, hword _ false (by simp [emit])]
  · have hread : lex .space [] false ('\'' :: (w.flatMap quoteChar ++ ['\'']) ++ text) =
        lex .word w true text := by
      have h := @lex_quotation [] w text
      simpa [lex, isSpace, isMark] using h
    rw [hread, hword w true (by simp [emit])]

/-- Spaces between words are skipped. -/
theorem lex_space {c : Char} (h : isSpace c = true) :
    lex .space [] false (c :: text) = lex .space [] false text := by
  rw [lex]
  simp [h]

/-- Words, each quoted and followed by a space. -/
def joined (ws : List (List Char)) : List Char := ws.flatMap fun w => quote w ++ [' ']

/-- Quoting adds quotation marks only. -/
theorem mem_of_mem_quote {c : Char} (h : c ∈ quote w) (hmark : isMark c = false) : c ∈ w := by
  simp only [isMark, Bool.or_eq_false_iff, decide_eq_false_iff_not] at hmark
  unfold quote at h
  split_ifs at h with hnil hsafe
  · simp [hmark.1] at h
  · exact h
  · simp only [List.mem_cons, List.mem_append, List.mem_flatMap, List.not_mem_nil, or_false,
      hmark.1, false_or] at h
    obtain ⟨d, hd, hc⟩ := h
    unfold quoteChar at hc
    split_ifs at hc
    · simp [hmark.1, hmark.2] at hc
    · exact List.mem_singleton.mp hc ▸ hd

/-- They are read back. -/
theorem lex_joined (ws : List (List Char)) :
    lex .space [] false (joined ws ++ text) = (lex .space [] false text).map (ws ++ ·) := by
  induction ws with
  | nil => simp [joined]
  | cons w ws ih =>
    have hcons : joined (w :: ws) ++ text = quote w ++ (' ' :: (joined ws ++ text)) := by
      simp [joined]
    have hspace : isSpace ' ' = true := rfl
    rw [hcons, lex_quote (by simp [hspace]), lex_space hspace, ih, Option.map_map]
    rfl

/-- A word of safe characters needs no quotation. -/
theorem quote_of_safe (hne : w ≠ []) (h : w.all isSafe = true) : quote w = w := by
  rw [quote, if_neg hne, if_pos h]

end ShellWords
