import VncDoTool.Client.State
import VncDoTool.Lib.Urllib

/-!
# WebSocket addresses

`websocket.py`: an address is normalised once, when the command line is read, and split again when
the client connects.

* `WebSocket.parseUrl`, `WebSocket.dialled`: `parse_url`, and the host and port `connect` dials.
* `WebSocket.HostForm`: a host as a URL may name one; `WebSocket.Survives`: what normalising leaves.
* `WebSocket.survives_iff`: an address with a name or an IPv4 address survives, unless its port is
  written as zero, and one with an IPv6 literal does not.
-/

namespace VncDoTool

namespace WebSocket

open Urllib

/-- `DEFAULT_PORTS`. -/
def defaultPort (scheme : Text) : Option ℕ :=
  if scheme = "ws".toList then some 80
  else if scheme = "wss".toList then some 443
  else none

/-- The exception a `SplitError` stands for. -/
def splitError : SplitError → PyErr
  | .invalidIPv6 => ⟨.valueError, "Invalid IPv6 URL"⟩
  | .netlocNormalization netloc =>
    ⟨.valueError,
      s!"netloc {String.ofList netloc} contains invalid characters under NFKC normalization"⟩
  | .portNotInteger port =>
    ⟨.valueError, s!"Port could not be cast to integer value as {String.ofList port}"⟩
  | .portTooLong => ⟨.valueError, "Exceeds the limit (4300 digits) for integer string conversion"⟩
  | .portOutOfRange => ⟨.valueError, "Port out of range 0-65535"⟩

/-- A step of splitting, whose error goes up. -/
def splitting {α : Type} (step : Except SplitError α) : Except PyErr α := step.mapError splitError

/-- `parts.port or DEFAULT_PORTS[scheme]`. -/
def portOrDefault (scheme : Text) : Option ℕ → Except PyErr ℕ
  | some (n + 1) => .ok (n + 1)
  | _ =>
    match defaultPort scheme with
    | some default => .ok default
    | none => .error ⟨.keyError, String.ofList scheme⟩

/-- `parse_url`: the normalised URL and its port. -/
def parseUrl (tables : Tables) (server : Text) : Except PyErr (Text × ℕ) := do
  let parts ← splitting (urlsplit tables server)
  let scheme := tables.lower parts.scheme
  let hostname := (parts.hostname tables).getD []
  if (defaultPort scheme).isNone then throw ⟨.valueError, String.ofList server⟩
  else if hostname = [] then throw ⟨.valueError, String.ofList server⟩
  else do
    let port ← splitting parts.port
    let port ← portOrDefault scheme port
    let netloc := hostname ++ ':' :: Nat.toDigits 10 port
    let path := if parts.path = [] then ['/'] else parts.path
    pure (urlunsplit tables { scheme, netloc, path, query := parts.query, fragment := [] }, port)

/-- The host and the port `connect` dials. -/
def dialled (tables : Tables) (url : Text) : Except PyErr (Text × ℕ) := do
  let parts ← splitting (urlsplit tables url)
  match parts.hostname tables with
  | none => throw ⟨.assertionError, ""⟩
  | some host => do
    let scheme := tables.lower parts.scheme
    let port ← splitting parts.port
    let port ← portOrDefault scheme port
    pure (host, port)

/-! ## What an address names -/

/-- What stands behind the user in a netloc. -/
def authority (parts : SplitResult) : Text := behindLast '@' parts.netloc

/-- The port behind a host, if there is one. -/
def PortForm (text : Text) : Prop :=
  text = [] ∨ ∃ digits : Text, text = ':' :: digits ∧ digits.all Char.isDigit

/-- A host as a URL names one, with its port or without. -/
inductive HostForm : Text → Prop
  /-- A DNS name or an IPv4 address: characters of ASCII that delimit nothing. -/
  | name {name rest : Text} (hne : name ≠ [])
      (hname : ∀ c ∈ name, isAscii c = true ∧ c ∉ ":[]".toList) (hrest : PortForm rest) :
      HostForm (name ++ rest)
  /-- An IPv6 address in brackets. -/
  | literal {address rest : Text} (hcolon : ':' ∈ address)
      (haddress : ∀ c ∈ address, isAscii c = true ∧ c ∉ "[]".toList) (hrest : PortForm rest) :
      HostForm ('[' :: (address ++ ']' :: rest))

/-- The port an address names, or else that of its scheme. -/
def NamesPort (tables : Tables) (parts : SplitResult) (port : ℕ) : Prop :=
  parts.port = .ok (some port) ∨
    parts.port = .ok none ∧ defaultPort (tables.lower parts.scheme) = some port

/-- What is left of an address, split into `parts`, in the `url` and the `port` it was made into:
`parts'` are the parts of `url`. -/
structure Survives (tables : Tables) (parts : SplitResult) (url : Text) (port : ℕ)
    (parts' : SplitResult) (host : Text) : Prop where
  split : urlsplit tables url = .ok parts'
  names : parts.hostname tables = some host
  host_eq : parts'.hostname tables = some host
  port_named : NamesPort tables parts port
  port_eq : parts'.port = .ok (some port)
  path_eq : parts'.path = if parts.path = [] then ['/'] else parts.path
  query_eq : parts'.query = parts.query
  dials : dialled tables url = .ok (host, port)
  again : parseUrl tables url = .ok (url, port)

/-! ## Normalising -/

variable {tables : Tables} {server url : Text} {parts : SplitResult} {host : Text} {port : ℕ}

/-- The parts a URL is composed of. -/
def normal (tables : Tables) (parts : SplitResult) (host : Text) (port : ℕ) : SplitResult where
  scheme := tables.lower parts.scheme
  netloc := host ++ ':' :: Nat.toDigits 10 port
  path := if parts.path = [] then ['/'] else parts.path
  query := parts.query
  fragment := []

theorem splitting_eq_ok {α : Type} {step : Except SplitError α} {v : α} :
    splitting step = .ok v ↔ step = .ok v := by
  cases step <;> simp [splitting, Except.mapError]

/-- An address that is accepted, split into its parts. -/
theorem parseUrl_eq_ok (hsplit : urlsplit tables server = .ok parts) :
    parseUrl tables server = .ok (url, port) ↔
      ∃ host p, defaultPort (tables.lower parts.scheme) ≠ none ∧ host ≠ [] ∧
        parts.hostname tables = some host ∧ parts.port = .ok p ∧
        portOrDefault (tables.lower parts.scheme) p = .ok port ∧
        url = urlunsplit tables (normal tables parts host port) := by
  -- An empty host name and none are refused alike.
  have hhost : ∀ host, host ≠ [] → (parts.hostname tables).getD [] = host →
      parts.hostname tables = some host := by
    intro host hne heq
    cases hname : parts.hostname tables with
    | none =>
      rw [hname] at heq
      exact absurd heq.symm hne
    | some h =>
      rw [hname] at heq
      exact congrArg some heq
  constructor
  · intro h
    obtain ⟨parts', hparts, h⟩ := Fallible.bind_eq_ok.mp h
    obtain rfl : parts' = parts := by
      have heq := (splitting_eq_ok.mp hparts).symm.trans hsplit
      exact Except.ok.inj heq
    by_cases hscheme : (defaultPort (tables.lower parts'.scheme)).isNone
    · rw [if_pos hscheme] at h
      cases h
    by_cases hnone : (parts'.hostname tables).getD [] = []
    · rw [if_neg hscheme, if_pos hnone] at h
      cases h
    rw [if_neg hscheme, if_neg hnone] at h
    obtain ⟨p, hp, h⟩ := Fallible.bind_eq_ok.mp h
    obtain ⟨port', hport, h⟩ := Fallible.bind_eq_ok.mp h
    cases h
    exact ⟨_, p, by simpa using hscheme, hnone, hhost _ hnone rfl, splitting_eq_ok.mp hp, hport,
      rfl⟩
  · rintro ⟨host, p, hscheme, hne, hname, hp, hport, rfl⟩
    unfold parseUrl
    have hsome : ¬(defaultPort (tables.lower parts.scheme)).isNone = true := by simpa using hscheme
    apply Fallible.bind_eq_ok.mpr ⟨parts, splitting_eq_ok.mpr hsplit, ?_⟩
    simp only [hname, Option.getD_some]
    rw [if_neg hsome, if_neg hne]
    exact Fallible.bind_eq_ok.mpr
      ⟨p, splitting_eq_ok.mpr hp, Fallible.bind_eq_ok.mpr ⟨port, hport, rfl⟩⟩

/-- A scheme with a port of its own. -/
theorem scheme_spec (h : defaultPort (tables.lower parts.scheme) ≠ none) :
    (tables.lower parts.scheme).head?.any Char.isAlpha = true ∧
      (tables.lower parts.scheme).all isSchemeChar = true ∧
      tables.lower (tables.lower parts.scheme) = tables.lower parts.scheme ∧
      ∃ default, defaultPort (tables.lower parts.scheme) = some default ∧ 0 < default ∧
        default ≤ 65535 := by
  have hlower {scheme : Text} (hascii : ∀ c ∈ scheme, isAscii c = true)
      (hsame : scheme.map Char.toLower = scheme) : tables.lower scheme = scheme := by
    rw [tables.lower_ascii scheme hascii, hsame]
  unfold defaultPort at h ⊢
  split_ifs at h ⊢ with hws hwss
  · rw [hws]
    have hws : tables.lower "ws".toList = "ws".toList :=
      hlower (forall_mem_of_all (by decide)) (by decide)
    exact ⟨by decide, by decide, hws, 80, rfl, by decide, by decide⟩
  · rw [hwss]
    have hwss : tables.lower "wss".toList = "wss".toList :=
      hlower (forall_mem_of_all (by decide)) (by decide)
    exact ⟨by decide, by decide, hwss, 443, rfl, by decide, by decide⟩
  · exact absurd rfl h

theorem normal_path_ne (tables : Tables) (parts : SplitResult) (host : Text) (port : ℕ) :
    (normal tables parts host port).path ≠ [] := by
  unfold normal
  split_ifs with hnone
  · exact List.cons_ne_nil _ _
  · exact hnone

/-- The characters a host with its port behind it may not hold. -/
def special : Text := "/?#[]\t\r\n".toList

/-- A port behind a host brings in a colon and digits. -/
theorem notMem_netloc {d : Char} (hcolon : d ≠ ':') (hdigit : d.isDigit = false) (h : d ∉ host) :
    d ∉ host ++ ':' :: Nat.toDigits 10 port := by
  intro hmem
  rcases List.mem_append.mp hmem with hhost | hport
  · exact h hhost
  · rcases List.mem_cons.mp hport with heq | hmem
    · exact hcolon heq
    · have hisDigit : d.isDigit = true := Nat.isDigit_of_mem_toDigits (by decide) (by decide) hmem
      exact absurd (hisDigit.symm.trans hdigit) (by decide)

theorem isAscii_of_isDigit {c : Char} (h : c.isDigit = true) : isAscii c = true := by
  simp only [Char.isDigit, Bool.and_eq_true, decide_eq_true_eq] at h
  have hle : c.toNat ≤ 57 := h.2
  exact decide_eq_true (by omega)

/-- A URL composed of a host that delimits nothing is split into the same parts. -/
theorem composable_normal (hclean : Clean parts) (hnetloc : parts.netloc ≠ [])
    (hscheme : defaultPort (tables.lower parts.scheme) ≠ none)
    (hascii : ∀ c ∈ host, isAscii c = true) (hplain : ∀ d ∈ special, d ∉ host) :
    Composable tables (normal tables parts host port) := by
  obtain ⟨hhead, hchars, hlower, -⟩ := scheme_spec hscheme
  have hspecial : ∀ d ∈ special, d ≠ ':' ∧ d.isDigit = false := forall_mem_of_all (by decide)
  have hnot {d : Char} (hd : d ∈ special) : d ∉ host ++ ':' :: Nat.toDigits 10 port :=
    notMem_netloc (hspecial d hd).1 (hspecial d hd).2 (hplain d hd)
  -- An empty path becomes the root; any other is kept, and is rooted.
  have hpath : (normal tables parts host port).path = ['/'] ∨
      (normal tables parts host port).path = parts.path ∧ parts.path.head? = some '/' := by
    unfold normal
    split_ifs with hnone
    · exact .inl rfl
    · exact .inr ⟨rfl, (hclean.rooted hnetloc).resolve_left hnone⟩
  refine ⟨⟨?_, ?_, hclean.query, ?_, ?_⟩, hhead, hchars, hlower, ?_, ?_, hnot (by decide),
    hnot (by decide)⟩
  · intro c hc
    refine ⟨?_, ?_⟩
    · by_contra hdelimiter
      simp only [isDelimiter, Bool.not_eq_false, Bool.or_eq_true, decide_eq_true_eq] at hdelimiter
      rcases hdelimiter with (rfl | rfl) | rfl
      all_goals exact hnot (by decide) hc
    · by_contra hremoved
      simp only [isRemoved, Bool.not_eq_false, Bool.or_eq_true, decide_eq_true_eq] at hremoved
      rcases hremoved with (rfl | rfl) | rfl
      all_goals exact hnot (by decide) hc
  · intro c hc
    rcases hpath with hroot | ⟨hsame, -⟩
    · rw [hroot] at hc
      rw [List.mem_singleton.mp hc]
      decide
    · rw [hsame] at hc
      exact hclean.path c hc
  · intro c hc
    exact absurd hc List.not_mem_nil
  · intro _
    rcases hpath with hroot | ⟨hsame, hhead⟩
    · rw [hroot]
      exact .inr rfl
    · rw [hsame]
      exact .inr hhead
  · exact List.append_ne_nil_of_right_ne_nil _ (List.cons_ne_nil _ _)
  · apply List.all_eq_true.mpr
    intro c hc
    rcases List.mem_append.mp hc with hhost | hport
    · exact hascii c hhost
    · rcases List.mem_cons.mp hport with rfl | hdigit
      · rfl
      · have hisDigit := Nat.isDigit_of_mem_toDigits (by decide) (by decide) hdigit
        exact isAscii_of_isDigit hisDigit

/-! ## The host of an address -/

theorem notMem_portForm {rest : Text} {d : Char} (h : PortForm rest) (hcolon : d ≠ ':')
    (hdigit : d.isDigit = false) : d ∉ rest := by
  rcases h with rfl | ⟨digits, rfl, hdigits⟩
  · exact List.not_mem_nil
  · intro hmem
    rcases List.mem_cons.mp hmem with heq | hmem
    · exact hcolon heq
    · exact absurd ((List.all_eq_true.mp hdigits d hmem).symm.trans hdigit) (by decide)

/-- A name is the host, whether a port follows it or not. -/
theorem hostinfo_name {name rest : Text} (hname : ∀ c ∈ name, isAscii c = true ∧ c ∉ ":[]".toList)
    (hrest : PortForm rest) (h : authority parts = name ++ rest) :
    '[' ∉ authority parts ∧ parts.hostinfo.1 = name := by
  have hcolon : ':' ∉ name := fun hmem => (hname _ hmem).2 (by decide)
  have hopen : '[' ∉ authority parts := by
    rw [h]
    intro hmem
    rcases List.mem_append.mp hmem with hmem | hmem
    · exact (hname _ hmem).2 (by decide)
    · exact notMem_portForm hrest (by decide) (by decide) hmem
  have hinfo : parts.hostinfo.1 = before ':' (authority parts) := by
    unfold SplitResult.hostinfo
    exact congrArg Prod.fst (if_neg hopen)
  refine ⟨hopen, ?_⟩
  rw [hinfo, h]
  rcases hrest with rfl | ⟨digits, rfl, -⟩
  · rw [List.append_nil]
    exact before_of_notMem hcolon
  · exact before_append hcolon

/-- What stands between brackets is the host. -/
theorem hostinfo_literal {address rest : Text}
    (haddress : ∀ c ∈ address, isAscii c = true ∧ c ∉ "[]".toList)
    (h : authority parts = '[' :: (address ++ ']' :: rest)) :
    '[' ∈ authority parts ∧ parts.hostinfo.1 = address := by
  have hclose : ']' ∉ address := fun hmem => (haddress _ hmem).2 (by decide)
  have hopen : '[' ∈ authority parts := by
    rw [h]
    exact List.mem_cons_self
  have hinfo : parts.hostinfo.1 = before ']' (behind '[' (authority parts)) := by
    unfold SplitResult.hostinfo
    exact congrArg Prod.fst (if_pos hopen)
  refine ⟨hopen, ?_⟩
  rw [hinfo, h]
  show before ']' (behind '[' ([] ++ '[' :: (address ++ ']' :: rest))) = address
  rw [behind_append List.not_mem_nil]
  exact before_append hclose

/-- A part of an authority without brackets may be followed by a port once it is lowered. -/
theorem notMem_lowerHost_of_authority {text : Text} (hclean : Clean parts)
    (hsub : ∀ c ∈ text, c ∈ authority parts)
    (hascii : ∀ c ∈ text, isAscii c = true) (hbrackets : ∀ c ∈ text, c ∉ "[]".toList) :
    ∀ d ∈ special, d ∉ SplitResult.lowerHost tables text := by
  have hlisted : ∀ d ∈ special, d ∈ "/?#:[]@%\t\r\n".toList ∧
      (d ∈ "[]".toList ∨ isDelimiter d = true ∨ isRemoved d = true) :=
    forall_mem_of_all (by decide)
  intro d hd
  obtain ⟨hmem, hkind⟩ := hlisted d hd
  apply notMem_lowerHost hascii hmem
  intro htext
  obtain ⟨hdelimiter, hremoved⟩ := hclean.netloc d (mem_of_mem_behindLast (hsub d htext))
  rcases hkind with hbracket | hkind | hkind
  · exact hbrackets d htext hbracket
  · exact absurd (hdelimiter.symm.trans hkind) (by decide)
  · exact absurd (hremoved.symm.trans hkind) (by decide)

/-- The port a normalised URL names. -/
theorem portOrDefault_spec {p : Option ℕ} (hscheme : defaultPort (tables.lower parts.scheme) ≠ none)
    (hp : parts.port = .ok p) (h : portOrDefault (tables.lower parts.scheme) p = .ok port) :
    0 < port ∧ port ≤ 65535 ∧ (NamesPort tables parts port ↔ p ≠ some 0) := by
  obtain ⟨-, -, -, default, hdefault, hpos, hle⟩ := scheme_spec hscheme
  unfold NamesPort
  rw [hp]
  unfold portOrDefault at h
  rcases p with _ | n
  · simp only [hdefault] at h
    cases h
    exact ⟨hpos, hle, by simp [hdefault]⟩
  · rcases n with _ | n
    · simp only [hdefault] at h
      cases h
      have hne : (0 : ℕ) ≠ port := hpos.ne
      exact ⟨hpos, hle, by simp [hne]⟩
    · cases h
      exact ⟨Nat.succ_pos n, SplitResult.port_le hp, by simp⟩

/-- A host that delimits nothing is read back from the URL with its port. -/
theorem normal_spec (tables : Tables) (parts : SplitResult) (hhost : ':' ∉ host) (hat : '@' ∉ host) (hopen : '[' ∉ host)
    (hport : port ≤ 65535) :
    (normal tables parts host port).hostinfo = (host, Nat.toDigits 10 port) ∧
      (normal tables parts host port).port = .ok (some port) := by
  have hinfo : (normal tables parts host port).hostinfo = (host, Nat.toDigits 10 port) :=
    SplitResult.hostinfo_of_plain hhost (notMem_netloc (by decide) (by decide) hopen)
      (behindLast_of_notMem (notMem_netloc (by decide) (by decide) hat))
  refine ⟨hinfo, SplitResult.port_toDigits ?_ hport⟩
  rw [hinfo]

/-! ## What survives -/

/-- What the host of an accepted address looks like, be it a name or a literal: with any port behind
it, it makes parts that are told apart again. -/
theorem host_spec {text : Text} (hclean : Clean parts)
    (hscheme : defaultPort (tables.lower parts.scheme) ≠ none) (hne : text ≠ [])
    (hsub : ∀ c ∈ text, c ∈ authority parts)
    (htext : ∀ c ∈ text, isAscii c = true ∧ c ∉ "[]".toList) (hinfo : parts.hostinfo.1 = text)
    (hhostname : parts.hostname tables = some host) :
    host = SplitResult.lowerHost tables text ∧ '@' ∉ host ∧ '[' ∉ host ∧
      ∀ port, Composable tables (normal tables parts host port) := by
  have hascii : ∀ c ∈ text, isAscii c = true := fun c hc => (htext c hc).1
  have hlower : host = SplitResult.lowerHost tables text := by
    unfold SplitResult.hostname at hhostname
    rw [hinfo, if_neg hne] at hhostname
    exact (Option.some.inj hhostname).symm
  have hnetloc : parts.netloc ≠ [] := by
    intro hnil
    obtain ⟨c, hc⟩ := List.exists_mem_of_ne_nil text hne
    have hmem := mem_of_mem_behindLast (hsub c hc)
    rw [hnil] at hmem
    exact List.not_mem_nil hmem
  have hplain : ∀ d ∈ special, d ∉ SplitResult.lowerHost tables text :=
    notMem_lowerHost_of_authority hclean hsub hascii fun c hc => (htext c hc).2
  rw [hlower]
  refine ⟨rfl, ?_, hplain '[' (by decide), fun port => ?_⟩
  · exact notMem_lowerHost hascii (by decide) fun hmem => notMem_behindLast (hsub _ hmem)
  · exact composable_normal hclean hnetloc hscheme (isAscii_lowerHost hascii) hplain

/-- The name of a host survives, with a port that is not written as zero. -/
theorem survives_of_name {name rest : Text} (hne : name ≠ [])
    (hname : ∀ c ∈ name, isAscii c = true ∧ c ∉ ":[]".toList) (hrest : PortForm rest)
    (hsplit : urlsplit tables server = .ok parts) (hauthority : authority parts = name ++ rest)
    (h : parseUrl tables server = .ok (url, port)) :
    (∃ parts' host, Survives tables parts url port parts' host) ↔ parts.port ≠ .ok (some 0) := by
  obtain ⟨host, p, hscheme, hhostne, hhostname, hp, hport, rfl⟩ := (parseUrl_eq_ok hsplit).mp h
  obtain ⟨hpos, hle, hnames⟩ := portOrDefault_spec hscheme hp hport
  have hascii : ∀ c ∈ name, isAscii c = true := fun c hc => (hname c hc).1
  have hsub : ∀ c ∈ name, c ∈ authority parts := fun c hc => by
    rw [hauthority]
    exact List.mem_append_left _ hc
  have htext : ∀ c ∈ name, isAscii c = true ∧ c ∉ "[]".toList := fun c hc =>
    ⟨hascii c hc, fun hmem => (hname c hc).2 (List.mem_cons_of_mem _ hmem)⟩
  obtain ⟨hlower, hat, hopen, hcomposable⟩ := host_spec (clean_of_urlsplit hsplit) hscheme hne hsub
    htext (hostinfo_name hname hrest hauthority).2 hhostname
  have hcolon : ':' ∉ host := by
    rw [hlower]
    exact notMem_lowerHost hascii (by decide) fun hmem => (hname _ hmem).2 (by decide)
  have hagain : urlsplit tables (urlunsplit tables (normal tables parts host port)) =
      .ok (normal tables parts host port) := urlsplit_urlunsplit (hcomposable port)
  obtain ⟨hinfo', hport'⟩ := normal_spec tables parts hcolon hat hopen hle
  have hhostname' : (normal tables parts host port).hostname tables = some host := by
    unfold SplitResult.hostname
    rw [hinfo', if_neg hhostne, hlower, lowerHost_lowerHost hascii]
  -- the scheme and the port of the URL are those it was composed of
  have hsame : tables.lower (normal tables parts host port).scheme = tables.lower parts.scheme :=
    (scheme_spec hscheme).2.2.1
  have hportagain :
      portOrDefault (tables.lower (normal tables parts host port).scheme) (some port) =
        .ok port := by
    obtain ⟨n, rfl⟩ := Nat.exists_eq_succ_of_ne_zero hpos.ne'
    rfl
  have hwhole : normal tables (normal tables parts host port) host port =
      normal tables parts host port := by
    unfold normal at hsame ⊢
    simp only [hsame, SplitResult.mk.injEq, true_and, and_true]
    exact if_neg (normal_path_ne tables parts host port)
  constructor
  · rintro ⟨parts', host', hsurvives⟩ hzero
    have hp0 : p = some 0 := Except.ok.inj (hp.symm.trans hzero)
    exact hnames.mp hsurvives.port_named hp0
  · intro hzero
    have hp0 : p ≠ some 0 := fun heq => hzero (heq ▸ hp)
    refine ⟨_, host, hagain, hhostname, hhostname', hnames.mpr hp0, hport', rfl, rfl, ?_, ?_⟩
    · unfold dialled
      apply Fallible.bind_eq_ok.mpr ⟨_, splitting_eq_ok.mpr hagain, ?_⟩
      simp only [hhostname']
      exact Fallible.bind_eq_ok.mpr ⟨some port, splitting_eq_ok.mpr hport',
        Fallible.bind_eq_ok.mpr ⟨port, hportagain, rfl⟩⟩
    · refine (parseUrl_eq_ok hagain).mpr
        ⟨host, some port, ?_, hhostne, hhostname', hport', hportagain, ?_⟩
      · rw [hsame]
        exact hscheme
      · rw [hwhole]

/-- The brackets of a literal are lost, and what stands before its first colon is taken for the
host. -/
theorem not_survives_of_literal {address rest : Text} (hcolon : ':' ∈ address)
    (haddress : ∀ c ∈ address, isAscii c = true ∧ c ∉ "[]".toList)
    (hsplit : urlsplit tables server = .ok parts)
    (hauthority : authority parts = '[' :: (address ++ ']' :: rest))
    (h : parseUrl tables server = .ok (url, port)) :
    ¬∃ parts' host, Survives tables parts url port parts' host := by
  obtain ⟨host, p, hscheme, hhostne, hhostname, hp, hport, rfl⟩ := (parseUrl_eq_ok hsplit).mp h
  have hsub : ∀ c ∈ address, c ∈ authority parts := fun c hc => by
    rw [hauthority]
    exact List.mem_cons_of_mem _ (List.mem_append_left _ hc)
  obtain ⟨hlower, hat, hopen, hcomposable⟩ := host_spec (clean_of_urlsplit hsplit) hscheme
    (List.ne_nil_of_mem hcolon) hsub haddress (hostinfo_literal haddress hauthority).2 hhostname
  have hmem : ':' ∈ host := by
    rw [hlower]
    exact mem_lowerHost_of_mem (fun c hc => (haddress c hc).1) (by decide) hcolon
  rintro ⟨parts', host', hsurvives⟩
  obtain rfl : host' = host := Option.some.inj (hsurvives.names.symm.trans hhostname)
  obtain rfl : parts' = normal tables parts host' port :=
    Except.ok.inj (hsurvives.split.symm.trans (urlsplit_urlunsplit (hcomposable port)))
  -- the host that is read back ends before the first colon, so it has none
  have hauthority' : authority (normal tables parts host' port) =
      host' ++ ':' :: Nat.toDigits 10 port :=
    behindLast_of_notMem (notMem_netloc (by decide) (by decide) hat)
  have hinfo : (normal tables parts host' port).hostinfo.1 =
      before ':' (authority (normal tables parts host' port)) := by
    have hnone : '[' ∉ authority (normal tables parts host' port) := by
      rw [hauthority']
      exact notMem_netloc (by decide) (by decide) hopen
    unfold SplitResult.hostinfo
    exact congrArg Prod.fst (if_neg hnone)
  have hread := hsurvives.host_eq
  unfold SplitResult.hostname at hread
  split_ifs at hread with hnil
  have hascii : ∀ c ∈ (normal tables parts host' port).hostinfo.1, isAscii c = true := by
    intro c hc
    rw [hinfo] at hc
    exact List.all_eq_true.mp (hcomposable port).netloc_ascii c
      (mem_of_mem_behindLast (mem_of_mem_before hc))
  have hnot : ':' ∉ SplitResult.lowerHost tables (normal tables parts host' port).hostinfo.1 := by
    apply notMem_lowerHost hascii (by decide)
    rw [hinfo]
    exact notMem_before
  rw [Option.some.inj hread] at hnot
  exact hnot hmem

/-- An address with a name or an IPv4 address survives unless its port is written as zero; one with
an IPv6 literal never does. -/
theorem survives_iff (hsplit : urlsplit tables server = .ok parts)
    (hform : HostForm (authority parts)) (h : parseUrl tables server = .ok (url, port)) :
    (∃ parts' host, Survives tables parts url port parts' host) ↔
      '[' ∉ authority parts ∧ parts.port ≠ .ok (some 0) := by
  generalize hauthority : authority parts = text at hform
  cases hform with
  | name hne hname hrest =>
    have hopen := (hostinfo_name hname hrest hauthority).1
    rw [hauthority] at hopen
    rw [survives_of_name hne hname hrest hsplit hauthority h]
    exact ⟨fun hzero => ⟨hopen, hzero⟩, fun hboth => hboth.2⟩
  | literal hcolon haddress hrest =>
    refine ⟨fun hsurvives => ?_, fun hboth => absurd List.mem_cons_self hboth.1⟩
    exact absurd hsurvives (not_survives_of_literal hcolon haddress hsplit hauthority h)

/-- An address in capitals, with a fragment. -/
theorem survives_localhost :
    ∃ parts' host, Survives Tables.ascii
      ⟨"ws".toList, "Localhost:5942".toList, "/Path".toList, "q=1".toList, "frag".toList⟩
      "ws://localhost:5942/Path?q=1".toList 5942 parts' host := by
  have hsplit : urlsplit Tables.ascii "WS://Localhost:5942/Path?q=1#frag".toList = .ok
      ⟨"ws".toList, "Localhost:5942".toList, "/Path".toList, "q=1".toList, "frag".toList⟩ := by
    decide
  have hform : HostForm ("Localhost".toList ++ ":5942".toList) :=
    .name (by decide) (forall_mem_of_all (by decide)) (.inr ⟨"5942".toList, by decide, by decide⟩)
  have h : parseUrl Tables.ascii "WS://Localhost:5942/Path?q=1#frag".toList =
      .ok ("ws://localhost:5942/Path?q=1".toList, 5942) := by decide
  exact (survives_iff hsplit hform h).mpr ⟨by decide, by decide⟩

/-- The address of the loopback interface is accepted, and names no host any more. -/
theorem not_survives_loopback :
    urlsplit Tables.ascii "ws://[::1]:5900/".toList = .ok
      ⟨"ws".toList, "[::1]:5900".toList, "/".toList, [], []⟩ ∧
    parseUrl Tables.ascii "ws://[::1]:5900/".toList = .ok ("ws://::1:5900/".toList, 5900) ∧
    dialled Tables.ascii "ws://::1:5900/".toList = .error ⟨.assertionError, ""⟩ ∧
    ¬∃ parts' host, Survives Tables.ascii
      ⟨"ws".toList, "[::1]:5900".toList, "/".toList, [], []⟩ "ws://::1:5900/".toList 5900
        parts' host := by
  have hdials : dialled Tables.ascii "ws://::1:5900/".toList = .error ⟨.assertionError, ""⟩ := by
    decide
  refine ⟨by decide, by decide, hdials, ?_⟩
  rintro ⟨parts', host, hsurvives⟩
  exact absurd (hsurvives.dials.symm.trans hdials) (by simp)

end WebSocket

end VncDoTool
