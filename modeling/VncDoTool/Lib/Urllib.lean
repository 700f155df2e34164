import Mathlib.Data.List.TakeWhile
import Mathlib.Data.Nat.Notation
import VncDoTool.Lib.Fallible

/-!
# Splitting and composing addresses

`urlsplit` and `urlunsplit` as Python's `urllib.parse` has them, on lists of characters.

* `Urllib.Tables`: what depends on the release: the tables of Unicode, what may stand between
  brackets, and how an address without an authority is composed.
* `Urllib.urlsplit`, `SplitResult.hostname`, `SplitResult.port`, `Urllib.urlunsplit`.
* `Urllib.Clean`: the characters each part may hold; `clean_of_urlsplit`: what was split is clean.
* `Urllib.urlsplit_urlunsplit`: clean parts are told apart again once they are composed.
* `SplitResult.hostinfo_of_plain`, `SplitResult.port_toDigits`, `lowerHost_lowerHost`: a netloc made
  of a host and a port is read as these.
-/

namespace Urllib

/-- A text is its characters. -/
abbrev Text := List Char

/-- The code point is one of ASCII. -/
def isAscii (c : Char) : Bool := c.toNat < 128

/-- The `ValueError`s of splitting, and of the parts read from what was split. -/
inductive SplitError : Type
  | invalidIPv6
  | netlocNormalization (netloc : Text)
  | portNotInteger (port : Text)
  | portTooLong
  | portOutOfRange
  deriving DecidableEq, Repr

/-- What the release of the library decides. -/
structure Tables : Type where
  /-- `text.lower()`. -/
  lower : Text → Text
  /-- `unicodedata.normalize("NFKC", text)`. -/
  nfkc : Text → Text
  /-- The look at a netloc with brackets; early releases take none. -/
  checkBrackets : Text → Except SplitError Unit
  /-- A scheme and a path composed without an authority. -/
  withoutNetloc : (scheme path : Text) → Text
  /-- On ASCII there is one table. -/
  lower_ascii : ∀ t : Text, (∀ c ∈ t, isAscii c = true) → lower t = t.map Char.toLower

/-- What an early release makes of ASCII. -/
def Tables.ascii : Tables where
  lower text := text.map Char.toLower
  nfkc text := text
  checkBrackets _ := .ok ()
  withoutNetloc scheme path := if scheme = [] then path else scheme ++ ':' :: path
  lower_ascii _ _ := rfl

/-! ## Partitions -/

/-- `text.partition(sep)[0]`. -/
def before (sep : Char) (text : Text) : Text := text.takeWhile (· ≠ sep)

/-- `text.partition(sep)[2]`. -/
def behind (sep : Char) (text : Text) : Text := (text.dropWhile (· ≠ sep)).tail

/-- `text.rpartition(sep)[2]`. -/
def behindLast (sep : Char) (text : Text) : Text := (text.reverse.takeWhile (· ≠ sep)).reverse

section Partition

variable {sep : Char} {a b text : Text}

theorem before_append (h : sep ∉ a) : before sep (a ++ sep :: b) = a := by
  have hall : ∀ c ∈ a, decide (c ≠ sep) = true := fun c hc =>
    decide_eq_true fun heq => h (heq ▸ hc)
  rw [before, List.takeWhile_append_of_pos hall, List.takeWhile_cons_of_neg (by simp), List.append_nil]

theorem behind_append (h : sep ∉ a) : behind sep (a ++ sep :: b) = b := by
  have hall : ∀ c ∈ a, decide (c ≠ sep) = true := fun c hc =>
    decide_eq_true fun heq => h (heq ▸ hc)
  rw [behind, List.dropWhile_append_of_pos hall, List.dropWhile_cons_of_neg (by simp), List.tail_cons]

theorem before_of_notMem (h : sep ∉ text) : before sep text = text :=
  List.takeWhile_eq_self_iff.mpr fun _ hc => decide_eq_true fun heq => h (heq ▸ hc)

theorem behind_of_notMem (h : sep ∉ text) : behind sep text = [] := by
  have hnil : text.dropWhile (· ≠ sep) = [] :=
    List.dropWhile_eq_nil_iff.mpr fun c hc => decide_eq_true fun heq => h (heq ▸ hc)
  rw [behind, hnil]
  rfl

theorem behindLast_of_notMem (h : sep ∉ text) : behindLast sep text = text := by
  have hself : text.reverse.takeWhile (· ≠ sep) = text.reverse :=
    List.takeWhile_eq_self_iff.mpr fun c hc =>
      decide_eq_true fun heq => h (heq ▸ List.mem_reverse.mp hc)
  rw [behindLast, hself, List.reverse_reverse]

theorem notMem_before : sep ∉ before sep text := by
  intro h
  have hne := List.mem_takeWhile_imp h
  exact of_decide_eq_true hne rfl

theorem notMem_behindLast : sep ∉ behindLast sep text := by
  intro h
  have hne := List.mem_takeWhile_imp (List.mem_reverse.mp h)
  exact of_decide_eq_true hne rfl

theorem mem_of_mem_before {c : Char} (h : c ∈ before sep text) : c ∈ text :=
  List.takeWhile_subset _ h

theorem mem_of_mem_behind {c : Char} (h : c ∈ behind sep text) : c ∈ text :=
  (List.dropWhile_sublist _).subset (List.mem_of_mem_tail h)

theorem mem_of_mem_behindLast {c : Char} (h : c ∈ behindLast sep text) : c ∈ text :=
  List.mem_reverse.mp (List.takeWhile_subset _ (List.mem_reverse.mp h))

end Partition

/-! ## Splitting -/

/-- The parts of an address. -/
structure SplitResult : Type where
  scheme : Text
  netloc : Text
  path : Text
  query : Text
  fragment : Text
  deriving DecidableEq, Repr

/-- C0 controls and space, which `urlsplit` strips from the front. -/
def isC0OrSpace (c : Char) : Bool := c.toNat ≤ 32

/-- The characters `urlsplit` takes out wherever they stand. -/
def isRemoved (c : Char) : Bool := c = '\t' || c = '\r' || c = '\n'

/-- `scheme_chars`. -/
def isSchemeChar (c : Char) : Bool := c.isAlphanum || c = '+' || c = '-' || c = '.'

/-- What ends a netloc. -/
def isDelimiter (c : Char) : Bool := c = '/' || c = '?' || c = '#'

/-- The scheme and what follows it. -/
def splitScheme (tables : Tables) (url : Text) : Text × Text :=
  if ':' ∈ url ∧ (before ':' url).head?.any Char.isAlpha ∧ (before ':' url).all isSchemeChar then
    (tables.lower (before ':' url), behind ':' url)
  else ([], url)

/-- `_splitnetloc`, where the text begins with `//`. -/
def splitNetloc (url : Text) : Text × Text :=
  if url.take 2 = ['/', '/'] then
    ((url.drop 2).takeWhile fun c => !isDelimiter c, (url.drop 2).dropWhile fun c => !isDelimiter c)
  else ([], url)

/-- `_checknetloc`. -/
def checkNetloc (tables : Tables) (netloc : Text) : Except SplitError Unit :=
  if netloc.all isAscii then .ok ()
  else
    let n := netloc.filter fun c => !(c = '@' || c = ':' || c = '#' || c = '?')
    if n = tables.nfkc n then .ok ()
    else if (tables.nfkc n).any fun c => isDelimiter c || c = '@' || c = ':' then
      .error (.netlocNormalization netloc)
    else .ok ()

/-- The look at the brackets of a netloc: there are both kinds or neither. -/
def checkNetlocBrackets (tables : Tables) (netloc : Text) : Except SplitError Unit :=
  if '[' ∈ netloc then
    if ']' ∈ netloc then tables.checkBrackets netloc else .error .invalidIPv6
  else if ']' ∈ netloc then .error .invalidIPv6
  else .ok ()

/-- `urlsplit`. -/
def urlsplit (tables : Tables) (url : Text) : Except SplitError SplitResult := do
  let url := (url.dropWhile isC0OrSpace).filter fun c => !isRemoved c
  let scheme := (splitScheme tables url).1
  let url := (splitScheme tables url).2
  let netloc := (splitNetloc url).1
  let url := (splitNetloc url).2
  checkNetlocBrackets tables netloc
  let fragment := behind '#' url
  let url := before '#' url
  let query := behind '?' url
  let path := before '?' url
  checkNetloc tables netloc
  pure { scheme, netloc, path, query, fragment }

namespace SplitResult

/-- `_hostinfo`: the text of the host and that of the port. -/
def hostinfo (parts : SplitResult) : Text × Text :=
  let hostinfo := behindLast '@' parts.netloc
  if '[' ∈ hostinfo then
    let bracketed := behind '[' hostinfo
    (before ']' bracketed, behind ':' (behind ']' bracketed))
  else (before ':' hostinfo, behind ':' hostinfo)

/-- What `lower` makes of a host; the zone of a scoped address stays as it is. -/
def lowerHost (tables : Tables) (host : Text) : Text :=
  tables.lower (before '%' host) ++ host.dropWhile (· ≠ '%')

/-- `hostname`. -/
def hostname (tables : Tables) (parts : SplitResult) : Option Text :=
  if parts.hostinfo.1 = [] then none else some (lowerHost tables parts.hostinfo.1)

/-- `port`. `int` refuses more than 4300 digits. -/
def port (parts : SplitResult) : Except SplitError (Option ℕ) :=
  let text := parts.hostinfo.2
  if text = [] then .ok none
  else if text.all Char.isDigit then
    if 4300 < text.length then .error .portTooLong
    else if Nat.ofDigitChars 10 text 0 ≤ 65535 then .ok (some (Nat.ofDigitChars 10 text 0))
    else .error .portOutOfRange
  else .error (.portNotInteger text)

end SplitResult

/-- `urlunsplit`. -/
def urlunsplit (tables : Tables) (parts : SplitResult) : Text :=
  let url :=
    if parts.netloc = [] then tables.withoutNetloc parts.scheme parts.path
    else
      let path := if parts.path ≠ [] ∧ parts.path.head? ≠ some '/' then '/' :: parts.path else parts.path
      ['/', '/'] ++ parts.netloc ++ path
  let url := if parts.scheme = [] then url else parts.scheme ++ ':' :: url
  let url := if parts.query = [] then url else url ++ '?' :: parts.query
  if parts.fragment = [] then url else url ++ '#' :: parts.fragment

/-! ## What was split -/

variable {tables : Tables} {url : Text} {parts : SplitResult}

/-- The characters of each part. -/
structure Clean (parts : SplitResult) : Prop where
  netloc : ∀ c ∈ parts.netloc, isDelimiter c = false ∧ isRemoved c = false
  path : ∀ c ∈ parts.path, c ≠ '?' ∧ c ≠ '#' ∧ isRemoved c = false
  query : ∀ c ∈ parts.query, c ≠ '#' ∧ isRemoved c = false
  fragment : ∀ c ∈ parts.fragment, isRemoved c = false
  rooted : parts.netloc ≠ [] → parts.path = [] ∨ parts.path.head? = some '/'

/-- The steps of a split that succeeds. -/
theorem urlsplit_eq_ok (h : urlsplit tables url = .ok parts) :
    ∃ rest, (∀ c ∈ rest, isRemoved c = false) ∧ parts.netloc = (splitNetloc rest).1 ∧
      parts.path = before '?' (before '#' (splitNetloc rest).2) ∧
      parts.query = behind '?' (before '#' (splitNetloc rest).2) ∧
      parts.fragment = behind '#' (splitNetloc rest).2 := by
  obtain ⟨_, -, h⟩ := Fallible.bind_eq_ok.mp h
  obtain ⟨_, -, h⟩ := Fallible.bind_eq_ok.mp h
  cases h
  refine ⟨_, ?_, rfl, rfl, rfl, rfl⟩
  have hstripped : ∀ c ∈ (url.dropWhile isC0OrSpace).filter fun c => !isRemoved c,
      isRemoved c = false := fun c hc => by simpa using List.of_mem_filter hc
  intro c hc
  apply hstripped
  unfold splitScheme at hc
  split_ifs at hc
  · exact mem_of_mem_behind hc
  · exact hc

theorem mem_splitNetloc_fst {rest : Text} {c : Char} (h : c ∈ (splitNetloc rest).1) :
    c ∈ rest ∧ isDelimiter c = false := by
  unfold splitNetloc at h
  split_ifs at h
  · have hnot := List.mem_takeWhile_imp h
    exact ⟨List.mem_of_mem_drop (List.takeWhile_subset _ h), by simpa using hnot⟩
  · exact absurd h List.not_mem_nil

theorem mem_splitNetloc_snd {rest : Text} {c : Char} (h : c ∈ (splitNetloc rest).2) : c ∈ rest := by
  unfold splitNetloc at h
  split_ifs at h
  · exact List.mem_of_mem_drop ((List.dropWhile_sublist _).subset h)
  · exact h

/-- What follows a netloc begins with what ended it. -/
theorem splitNetloc_snd_head {rest : Text} (h : (splitNetloc rest).1 ≠ []) :
    (splitNetloc rest).2 = [] ∨ ∃ c tail, (splitNetloc rest).2 = c :: tail ∧ isDelimiter c = true := by
  unfold splitNetloc at h ⊢
  split_ifs at h ⊢ with hslashes
  · cases hrest : (rest.drop 2).dropWhile fun c => !isDelimiter c with
    | nil => exact .inl rfl
    | cons c tail =>
      have hhead := List.head?_dropWhile_not (fun c => !isDelimiter c) (rest.drop 2)
      simp only [hrest, List.head?_cons] at hhead
      exact .inr ⟨c, tail, rfl, by simpa using hhead⟩
  · exact absurd rfl h

/-- What was split is clean. -/
theorem clean_of_urlsplit (h : urlsplit tables url = .ok parts) : Clean parts := by
  obtain ⟨rest, hrest, hnetloc, hpath, hquery, hfragment⟩ := urlsplit_eq_ok h
  -- The authority, the path, the query, the fragment, and how the path begins.
  refine ⟨?_, ?_, ?_, ?_, ?_⟩
  · intro c hc
    rw [hnetloc] at hc
    obtain ⟨hmem, hdelimiter⟩ := mem_splitNetloc_fst hc
    exact ⟨hdelimiter, hrest c hmem⟩
  · intro c hc
    rw [hpath] at hc
    have hmem := mem_of_mem_before hc
    refine ⟨?_, ?_, hrest c (mem_splitNetloc_snd (mem_of_mem_before hmem))⟩
    · rintro rfl
      exact notMem_before hc
    · rintro rfl
      exact notMem_before hmem
  · intro c hc
    rw [hquery] at hc
    have hmem := mem_of_mem_behind hc
    refine ⟨?_, hrest c (mem_splitNetloc_snd (mem_of_mem_before hmem))⟩
    rintro rfl
    exact notMem_before hmem
  · intro c hc
    rw [hfragment] at hc
    exact hrest c (mem_splitNetloc_snd (mem_of_mem_behind hc))
  · intro hne
    rw [hnetloc] at hne
    rw [hpath]
    rcases splitNetloc_snd_head hne with hnil | ⟨c, tail, hcons, hdelimiter⟩
    · rw [hnil]
      exact .inl rfl
    · rw [hcons]
      simp only [isDelimiter, Bool.or_eq_true, decide_eq_true_eq] at hdelimiter
      rcases hdelimiter with (rfl | rfl) | rfl
      · exact .inr rfl
      · exact .inl rfl
      · exact .inl rfl

/-! ## Composing and splitting again -/

/-- Parts with a scheme and an authority that are told apart once they are composed. -/
structure Composable (tables : Tables) (parts : SplitResult) : Prop where
  clean : Clean parts
  scheme_head : parts.scheme.head?.any Char.isAlpha = true
  scheme_chars : parts.scheme.all isSchemeChar = true
  scheme_lower : tables.lower parts.scheme = parts.scheme
  netloc_ne : parts.netloc ≠ []
  netloc_ascii : parts.netloc.all isAscii = true
  netloc_open : '[' ∉ parts.netloc
  netloc_close : ']' ∉ parts.netloc

/-- A text with what follows its separator, if there is any. -/
def joined (sep : Char) (text rest : Text) : Text := if rest = [] then text else text ++ sep :: rest

theorem before_joined {sep : Char} {text : Text} (rest : Text) (h : sep ∉ text) :
    before sep (joined sep text rest) = text := by
  unfold joined
  split_ifs
  · exact before_of_notMem h
  · exact before_append h

theorem behind_joined {sep : Char} {text : Text} (rest : Text) (h : sep ∉ text) :
    behind sep (joined sep text rest) = rest := by
  unfold joined
  split_ifs with hnone
  · rw [behind_of_notMem h, hnone]
  · exact behind_append h

theorem mem_joined {sep c : Char} {text rest : Text} (h : c ∈ joined sep text rest) :
    c ∈ text ∨ c = sep ∨ c ∈ rest := by
  unfold joined at h
  split_ifs at h
  · exact .inl h
  · rcases List.mem_append.mp h with hmem | hmem
    · exact .inl hmem
    · exact .inr (List.mem_cons.mp hmem)

/-- What stands behind the netloc. -/
def tailText (parts : SplitResult) : Text :=
  joined '#' (joined '?' parts.path parts.query) parts.fragment

/-- The text of parts with a scheme and an authority. -/
theorem urlunsplit_eq (hscheme : parts.scheme ≠ []) (hnetloc : parts.netloc ≠ [])
    (hrooted : parts.path = [] ∨ parts.path.head? = some '/') :
    urlunsplit tables parts =
      parts.scheme ++ ':' :: '/' :: '/' :: (parts.netloc ++ tailText parts) := by
  have hpath : ¬(parts.path ≠ [] ∧ parts.path.head? ≠ some '/') := by
    rintro ⟨hne, hhead⟩
    exact hrooted.elim hne hhead
  unfold urlunsplit tailText joined
  simp only [if_neg hscheme, if_neg hnetloc, if_neg hpath]
  split_ifs <;> simp

/-- The first hash of clean parts is that of the fragment. -/
theorem hash_notMem (h : Clean parts) : '#' ∉ joined '?' parts.path parts.query := by
  intro hmem
  rcases mem_joined hmem with hpath | heq | hquery
  · exact (h.path _ hpath).2.1 rfl
  · exact absurd heq (by decide)
  · exact (h.query _ hquery).1 rfl

/-- What stands behind the netloc begins with what ends it. -/
theorem tailText_head (h : Clean parts) (hnetloc : parts.netloc ≠ []) :
    tailText parts = [] ∨ ∃ c tail, tailText parts = c :: tail ∧ isDelimiter c = true := by
  unfold tailText
  rcases h.rooted hnetloc with hnil | hroot
  · rw [hnil]
    unfold joined
    split_ifs with hfragment hquery
    · exact .inl rfl
    · exact .inr ⟨'?', _, rfl, rfl⟩
    · exact .inr ⟨'#', _, rfl, rfl⟩
    · exact .inr ⟨'?', _, rfl, rfl⟩
  · obtain ⟨tail, htail⟩ := List.head?_eq_some_iff.mp hroot
    rw [htail]
    unfold joined
    split_ifs
    all_goals exact .inr ⟨'/', _, rfl, rfl⟩

/-- A netloc is what stands between the slashes and the first delimiter behind them. -/
theorem splitNetloc_eq {netloc tail : Text} (hnetloc : ∀ c ∈ netloc, isDelimiter c = false)
    (htail : tail = [] ∨ ∃ c rest, tail = c :: rest ∧ isDelimiter c = true) :
    splitNetloc ('/' :: '/' :: (netloc ++ tail)) = (netloc, tail) := by
  have hall : ∀ c ∈ netloc, (!isDelimiter c) = true := fun c hc => by simp [hnetloc c hc]
  have hstop : tail.takeWhile (fun c => !isDelimiter c) = [] ∧
      tail.dropWhile (fun c => !isDelimiter c) = tail := by
    rcases htail with rfl | ⟨c, rest, rfl, hc⟩
    · exact ⟨rfl, rfl⟩
    · exact ⟨List.takeWhile_cons_of_neg (by simp [hc]), List.dropWhile_cons_of_neg (by simp [hc])⟩
  have hslashes : ('/' :: '/' :: (netloc ++ tail)).take 2 = ['/', '/'] := rfl
  unfold splitNetloc
  rw [if_pos hslashes]
  show ((netloc ++ tail).takeWhile _, (netloc ++ tail).dropWhile _) = _
  rw [List.takeWhile_append_of_pos hall, List.dropWhile_append_of_pos hall, hstop.1, hstop.2,
    List.append_nil]

/-- Letters and the other characters of a scheme are neither stripped nor removed. -/
theorem isRemoved_of_isSchemeChar {c : Char} (h : isSchemeChar c = true) : isRemoved c = false := by
  by_contra hremoved
  simp only [isRemoved, Bool.not_eq_false, Bool.or_eq_true, decide_eq_true_eq] at hremoved
  rcases hremoved with (rfl | rfl) | rfl
  all_goals exact absurd h (by decide)

theorem isC0OrSpace_of_isAlpha {c : Char} (h : c.isAlpha = true) : isC0OrSpace c = false := by
  have hnone : ∀ n < 33, (Char.ofNat n).isAlpha = false := by decide
  apply decide_eq_false
  intro hle
  have hnot := hnone c.toNat (by omega)
  rw [Char.ofNat_toNat] at hnot
  exact absurd (h.symm.trans hnot) (by decide)

/-- Nothing is stripped from parts that are clean. -/
theorem stripped_eq (h : Composable tables parts) :
    (((parts.scheme ++ ':' :: '/' :: '/' :: (parts.netloc ++ tailText parts)).dropWhile
      isC0OrSpace).filter fun c => !isRemoved c) =
    parts.scheme ++ ':' :: '/' :: '/' :: (parts.netloc ++ tailText parts) := by
  have hdrop : (parts.scheme ++ ':' :: '/' :: '/' :: (parts.netloc ++ tailText parts)).dropWhile
      isC0OrSpace = parts.scheme ++ ':' :: '/' :: '/' :: (parts.netloc ++ tailText parts) := by
    cases hscheme : parts.scheme with
    | nil =>
      have hhead := h.scheme_head
      rw [hscheme] at hhead
      exact absurd hhead (by decide)
    | cons c rest =>
      have hhead := h.scheme_head
      rw [hscheme] at hhead
      have halpha : c.isAlpha = true := hhead
      exact List.dropWhile_cons_of_neg (by simp [isC0OrSpace_of_isAlpha halpha])
  rw [hdrop]
  apply List.filter_eq_self.mpr
  intro c hc
  -- Each part is clean, and so are the delimiters between them.
  have hkept : isRemoved c = false := by
    rcases List.mem_append.mp hc with hscheme | hc
    · exact isRemoved_of_isSchemeChar (List.all_eq_true.mp h.scheme_chars c hscheme)
    · rcases List.mem_cons.mp hc with rfl | hc
      · rfl
      rcases List.mem_cons.mp hc with rfl | hc
      · rfl
      rcases List.mem_cons.mp hc with rfl | hc
      · rfl
      rcases List.mem_append.mp hc with hnetloc | htail
      · exact (h.clean.netloc c hnetloc).2
      rcases mem_joined htail with htext | rfl | hfragment
      · rcases mem_joined htext with hpath | rfl | hquery
        · exact (h.clean.path c hpath).2.2
        · rfl
        · exact (h.clean.query c hquery).2
      · rfl
      · exact h.clean.fragment c hfragment
  simp [hkept]

/-- The scheme is what stands before the first colon. -/
theorem splitScheme_eq (h : Composable tables parts) (rest : Text) :
    splitScheme tables (parts.scheme ++ ':' :: rest) = (parts.scheme, rest) := by
  have hnot : ':' ∉ parts.scheme := fun hmem =>
    absurd (List.all_eq_true.mp h.scheme_chars ':' hmem) (by decide)
  unfold splitScheme
  rw [before_append hnot, behind_append hnot, if_pos ⟨by simp, h.scheme_head, h.scheme_chars⟩,
    h.scheme_lower]

/-- Clean parts are told apart again. -/
theorem urlsplit_urlunsplit (h : Composable tables parts) :
    urlsplit tables (urlunsplit tables parts) = .ok parts := by
  have hscheme : parts.scheme ≠ [] := by
    intro hnil
    have hhead := h.scheme_head
    rw [hnil] at hhead
    exact absurd hhead (by decide)
  have hsplit := splitNetloc_eq (fun c hc => (h.clean.netloc c hc).1)
    (tailText_head h.clean h.netloc_ne)
  have hbrackets : checkNetlocBrackets tables parts.netloc = .ok () := by
    rw [checkNetlocBrackets, if_neg h.netloc_open, if_neg h.netloc_close]
  have hcheck : checkNetloc tables parts.netloc = .ok () := by
    rw [checkNetloc, if_pos h.netloc_ascii]
  have hquestion : '?' ∉ parts.path := fun hmem => (h.clean.path _ hmem).1 rfl
  have hhash := hash_notMem h.clean
  rw [urlunsplit_eq hscheme h.netloc_ne (h.clean.rooted h.netloc_ne)]
  unfold urlsplit
  simp only [stripped_eq h, splitScheme_eq h, hsplit, hbrackets, hcheck]
  unfold tailText
  simp only [before_joined _ hhash, behind_joined _ hhash, before_joined _ hquestion,
    behind_joined _ hquestion]
  rfl

/-! ## Hosts and ports -/

/-- What holds of each character of a text by computation. -/
theorem forall_mem_of_all {text : Text} {P : Char → Prop} [DecidablePred P]
    (h : (text.all fun c => decide (P c)) = true) : ∀ c ∈ text, P c := fun c hc =>
  of_decide_eq_true (List.all_eq_true.mp h c hc)

/-- Lower case letters are of ASCII if the letters are, and have no lower case of their own. -/
theorem toLower_spec {c : Char} (h : isAscii c = true) :
    isAscii c.toLower = true ∧ c.toLower.toLower = c.toLower := by
  have hall : ∀ n < 128, isAscii (Char.ofNat n).toLower = true ∧
      (Char.ofNat n).toLower.toLower = (Char.ofNat n).toLower := by decide
  have hlt : c.toNat < 128 := of_decide_eq_true h
  have hc := hall c.toNat hlt
  rwa [Char.ofNat_toNat] at hc

/-- No other character becomes one that is not a letter. -/
theorem eq_of_toLower {c d : Char} (h : isAscii c = true) (hd : d ∈ "/?#:[]@%\t\r\n".toList)
    (heq : c.toLower = d) : c = d := by
  have hall : ∀ n < 128, ("/?#:[]@%\t\r\n".toList.all fun d =>
      decide ((Char.ofNat n).toLower = d → Char.ofNat n = d)) = true := by decide
  have hlt : c.toNat < 128 := of_decide_eq_true h
  have hc := forall_mem_of_all (hall c.toNat hlt) d hd
  rw [Char.ofNat_toNat] at hc
  exact hc heq

section Hosts

variable {host : Text}

theorem lowerHost_eq (hascii : ∀ c ∈ host, isAscii c = true) :
    SplitResult.lowerHost tables host =
      (before '%' host).map Char.toLower ++ host.dropWhile (· ≠ '%') := by
  rw [SplitResult.lowerHost, tables.lower_ascii _ fun c hc => hascii c (mem_of_mem_before hc)]

theorem mem_lowerHost {c : Char} (hascii : ∀ c ∈ host, isAscii c = true)
    (h : c ∈ SplitResult.lowerHost tables host) : ∃ d ∈ host, c = d ∨ c = d.toLower := by
  rw [lowerHost_eq hascii] at h
  rcases List.mem_append.mp h with hlow | hzone
  · obtain ⟨d, hd, rfl⟩ := List.mem_map.mp hlow
    exact ⟨d, mem_of_mem_before hd, .inr rfl⟩
  · exact ⟨c, (List.dropWhile_sublist _).subset hzone, .inl rfl⟩

theorem isAscii_lowerHost (hascii : ∀ c ∈ host, isAscii c = true) :
    ∀ c ∈ SplitResult.lowerHost tables host, isAscii c = true := by
  intro c hc
  obtain ⟨d, hd, rfl | rfl⟩ := mem_lowerHost hascii hc
  · exact hascii _ hd
  · exact (toLower_spec (hascii d hd)).1

/-- Lowering a host brings in no delimiter. -/
theorem notMem_lowerHost {d : Char} (hascii : ∀ c ∈ host, isAscii c = true)
    (hd : d ∈ "/?#:[]@%\t\r\n".toList) (h : d ∉ host) : d ∉ SplitResult.lowerHost tables host := by
  intro hmem
  obtain ⟨c, hc, rfl | heq⟩ := mem_lowerHost hascii hmem
  · exact h hc
  · exact h (eq_of_toLower (hascii c hc) hd heq.symm ▸ hc)

/-- Nor does it take any out. -/
theorem mem_lowerHost_of_mem {d : Char} (hascii : ∀ c ∈ host, isAscii c = true)
    (hlower : d.toLower = d) (h : d ∈ host) : d ∈ SplitResult.lowerHost tables host := by
  rw [lowerHost_eq hascii]
  rw [← List.takeWhile_append_dropWhile (p := fun c => decide (c ≠ '%')) (l := host)] at h
  rcases List.mem_append.mp h with hlow | hzone
  · exact List.mem_append_left _ (List.mem_map.mpr ⟨d, hlow, hlower⟩)
  · exact List.mem_append_right _ hzone

/-- A host is lowered once. -/
theorem lowerHost_lowerHost (hascii : ∀ c ∈ host, isAscii c = true) :
    SplitResult.lowerHost tables (SplitResult.lowerHost tables host) =
      SplitResult.lowerHost tables host := by
  have hlow : ∀ c ∈ (before '%' host).map Char.toLower, c ≠ '%' := by
    intro c hc heq
    obtain ⟨d, hd, rfl⟩ := List.mem_map.mp hc
    have hpercent := eq_of_toLower (hascii d (mem_of_mem_before hd)) (by decide) heq
    exact notMem_before (hpercent ▸ hd)
  have hall : ∀ c ∈ (before '%' host).map Char.toLower, decide (c ≠ '%') = true := fun c hc =>
    decide_eq_true (hlow c hc)
  have hzone : (host.dropWhile (· ≠ '%')).takeWhile (· ≠ '%') = [] ∧
      (host.dropWhile (· ≠ '%')).dropWhile (· ≠ '%') = host.dropWhile (· ≠ '%') := by
    cases hdrop : host.dropWhile (· ≠ '%') with
    | nil => exact ⟨rfl, rfl⟩
    | cons c rest =>
      have hhead := List.head?_dropWhile_not (· ≠ '%') host
      rw [hdrop] at hhead
      have hc : ¬(decide (c ≠ '%')) = true := by simpa using hhead
      exact ⟨List.takeWhile_cons_of_neg hc, List.dropWhile_cons_of_neg hc⟩
  rw [lowerHost_eq (isAscii_lowerHost hascii), lowerHost_eq hascii, before,
    List.takeWhile_append_of_pos hall, List.dropWhile_append_of_pos hall, hzone.1, hzone.2,
    List.append_nil, List.map_map]
  congr 1
  apply List.map_congr_left
  intro c hc
  exact (toLower_spec (hascii c (mem_of_mem_before hc))).2

/-- A host without delimiters and what stands behind its colon. -/
theorem SplitResult.hostinfo_of_plain {port : Text} (hcolon : ':' ∉ host)
    (hopen : '[' ∉ host ++ ':' :: port)
    (hnetloc : behindLast '@' parts.netloc = host ++ ':' :: port) :
    parts.hostinfo = (host, port) := by
  unfold SplitResult.hostinfo
  rw [hnetloc]
  simp only [if_neg hopen, before_append hcolon, behind_append hcolon]

/-- A port that was written in decimal. -/
theorem SplitResult.port_toDigits {n : ℕ} (hport : parts.hostinfo.2 = Nat.toDigits 10 n)
    (hn : n ≤ 65535) : parts.port = .ok (some n) := by
  have hdigits : (Nat.toDigits 10 n).all Char.isDigit = true :=
    List.all_eq_true.mpr fun c hc => Nat.isDigit_of_mem_toDigits (by decide) (by decide) hc
  have hlength : ¬4300 < (Nat.toDigits 10 n).length := by
    have hle : (Nat.toDigits 10 n).length ≤ 5 :=
      (Nat.length_toDigits_le_iff (by decide) (by decide)).mpr (by omega)
    omega
  unfold SplitResult.port
  simp only [hport, if_neg Nat.toDigits_ne_nil, if_pos hdigits, if_neg hlength,
    Nat.ofDigitChars_ten_toDigits, if_pos hn]

/-- A port fits its field. -/
theorem SplitResult.port_le {n : ℕ} (h : parts.port = .ok (some n)) : n ≤ 65535 := by
  unfold SplitResult.port at h
  dsimp only at h
  split_ifs at h with hnone hdigits hlong hle
  all_goals cases h
  exact hle

end Hosts

end Urllib
