import VncDoTool.Client.State

/-!
# VeNCrypt subtypes and TLS options

`vencrypt.py`: which of the offered subtypes of security type 19 the client requests, and the
options its TLS tunnel is built with.

* `choose_eq_some`: what is requested was offered, is preferred and is usable.
* `clientOptions_of_choose`: unless unverified peers are allowed, what is requested is an X509
  subtype and its tunnel checks the certificate against the configured, non-empty host name.
-/

namespace VncDoTool

namespace VeNCrypt

/-- The subtypes whose tunnel carries no certificate. -/
def anonymousSubtypes : List VeNCryptSubtypes := [.tlsNone, .tlsVnc, .tlsPlain]

/-- The subtypes whose tunnel carries a certificate. -/
def x509Subtypes : List VeNCryptSubtypes := [.x509None, .x509Vnc, .x509Plain]

def vncAuthSubtypes : List VeNCryptSubtypes := [.tlsVnc, .x509Vnc]

def plainAuthSubtypes : List VeNCryptSubtypes := [.tlsPlain, .x509Plain]

/-- Ordered most protected first. -/
def preference : List VeNCryptSubtypes :=
  [.x509Vnc, .x509Plain, .x509None, .tlsVnc, .tlsPlain, .tlsNone]

/-- `INSECURE_FLAG`. -/
def insecureFlag : String := "--tls-insecure-skip-verify"

structure TLSPolicy : Type where
  hostname : Option String := none
  caCerts : Option String := none
  allowUnverified : Bool := false
  deriving DecidableEq, Repr

structure Credentials : Type where
  username : Option String := none
  password : Option String := none
  deriving DecidableEq, Repr

/-- `not hostname`: neither `None` nor the empty string can be checked against a certificate. -/
def TLSPolicy.nameless (policy : TLSPolicy) : Bool := policy.hostname = none ∨ policy.hostname = some ""

/-- A number off the wire is one of these subtypes. -/
def among (subtype : ℕ) (subtypes : List VeNCryptSubtypes) : Bool :=
  subtype ∈ subtypes.map VeNCryptSubtypes.value

/-- Why this client will not speak `subtype`, or `none` if it will. -/
def unusable (subtype : ℕ) (policy : TLSPolicy) (credentials : Credentials) : Option String :=
  if subtype = VeNCryptSubtypes.plain.value then
    some "sends the password in the clear over an unencrypted socket"
  else if ¬among subtype preference then some "not implemented"
  else if among subtype anonymousSubtypes ∧ ¬policy.allowUnverified then
    some s!"anonymous TLS carries no certificate to verify, so it needs {insecureFlag}"
  else if among subtype x509Subtypes ∧ ¬policy.allowUnverified ∧ policy.nameless then
    some s!"no hostname to check the certificate against, so it needs {insecureFlag}"
  else if among subtype vncAuthSubtypes ∧ credentials.password = none then
    some "no password given"
  else if among subtype plainAuthSubtypes ∧
      (credentials.username = none ∨ credentials.password = none) then
    some "no username and password given"
  else none

/-- The most protected usable subtype on offer. -/
def choose (offered : List ℕ) (policy : TLSPolicy) (credentials : Credentials) :
    Option VeNCryptSubtypes :=
  preference.find? fun subtype =>
    subtype.value ∈ offered ∧ unusable subtype.value policy credentials = none

/-- What to call `subtype` in a message: any normal security type may be listed among the
subtypes, which are numbered from 256 up. -/
def name (subtype : ℕ) : String :=
  if subtype < VeNCryptSubtypes.plain.value then AuthTypes.describe subtype
  else VeNCryptSubtypes.describe subtype

/-- The message that none of the offered subtypes is usable. -/
def refusal (offered : List ℕ) (policy : TLSPolicy) (credentials : Credentials) : String :=
  let reasons := offered.map fun subtype =>
    let reason := (unusable subtype policy credentials).getD "None"
    s!"\n  {name subtype}: {reason}"
  s!"no usable VeNCrypt subtype, of the {offered.length} offered:{String.join reasons}"

/-- `client_options`: the options of the tunnel, or the text of what building them raised. -/
def clientOptions (optionsError : RFBClient.ClientOptions → Option String)
    (subtype : VeNCryptSubtypes) (policy : TLSPolicy) : Except String RFBClient.ClientOptions :=
  let build := fun options =>
    match optionsError options with
    | some error => .error error
    | none => .ok options
  if subtype ∈ anonymousSubtypes then build .anonymous
  else if policy.allowUnverified then build .unverified
  else
    match policy.hostname with
    | none =>
      .error (s!"no hostname to verify an X509 certificate against; " ++
        s!"{insecureFlag} is what accepts one unverified")
    | some hostname => build (.verified hostname policy.caCerts)

variable {offered : List ℕ} {policy : TLSPolicy} {credentials : Credentials}
  {subtype : VeNCryptSubtypes}

/-- What is requested was offered, is preferred and is usable. -/
theorem choose_eq_some (h : choose offered policy credentials = some subtype) :
    subtype ∈ preference ∧ subtype.value ∈ offered ∧
      unusable subtype.value policy credentials = none := by
  have hmem : subtype ∈ preference := List.mem_of_find?_eq_some h
  have hsat := List.find?_some h
  simp only [Bool.decide_and, Bool.and_eq_true, decide_eq_true_eq] at hsat
  exact ⟨hmem, hsat.1, hsat.2⟩

/-- A usable preferred subtype, unless unverified peers are allowed, carries a certificate, and
there is a host name to check it against. -/
theorem x509_of_unusable_eq_none (hmem : subtype ∈ preference)
    (h : unusable subtype.value policy credentials = none) (hverify : policy.allowUnverified = false) :
    subtype ∈ x509Subtypes ∧ ∃ hostname, policy.hostname = some hostname ∧ hostname ≠ "" := by
  unfold unusable at h
  split_ifs at h with hplain hpref hanon hx509 hvnc
  all_goals
    rw [hverify] at hanon hx509
    have hx : subtype ∈ x509Subtypes := by
      cases subtype <;> first | decide | exact absurd ⟨by decide, by decide⟩ hanon |
        exact absurd hmem (by decide)
    have hnamed : policy.nameless = false := by
      have hamong : among subtype.value x509Subtypes := by
        unfold among
        exact decide_eq_true (List.mem_map_of_mem hx)
      cases hn : policy.nameless with
      | false => rfl
      | true => exact absurd ⟨hamong, by decide, hn⟩ hx509
    refine ⟨hx, ?_⟩
    unfold TLSPolicy.nameless at hnamed
    rcases hhost : policy.hostname with _ | hostname
    · simp [hhost] at hnamed
    · refine ⟨hostname, rfl, ?_⟩
      intro hempty
      simp [hhost, hempty] at hnamed

/-- The options of an X509 tunnel to a named host check the certificate against that name. -/
theorem clientOptions_of_x509 {optionsError : RFBClient.ClientOptions → Option String}
    {hostname : String} {options : RFBClient.ClientOptions} (hx : subtype ∈ x509Subtypes)
    (hverify : policy.allowUnverified = false) (hhost : policy.hostname = some hostname)
    (h : clientOptions optionsError subtype policy = .ok options) :
    options = .verified hostname policy.caCerts := by
  have hanon : subtype ∉ anonymousSubtypes := by
    intro hmem
    cases subtype <;> first | exact absurd hmem (by decide) | exact absurd hx (by decide)
  unfold clientOptions at h
  rw [if_neg hanon, hverify, hhost] at h
  simp only [Bool.false_eq_true, if_false] at h
  split at h
  · exact absurd h (by simp)
  · exact (Except.ok.inj h).symm

/-- The options of what is requested, unless unverified peers are allowed. -/
theorem clientOptions_of_choose {optionsError : RFBClient.ClientOptions → Option String}
    {options : RFBClient.ClientOptions} (hchoose : choose offered policy credentials = some subtype)
    (hverify : policy.allowUnverified = false)
    (h : clientOptions optionsError subtype policy = .ok options) :
    subtype ∈ x509Subtypes ∧ ∃ hostname, policy.hostname = some hostname ∧ hostname ≠ "" ∧
      options = .verified hostname policy.caCerts := by
  obtain ⟨hmem, -, husable⟩ := choose_eq_some hchoose
  obtain ⟨hx, hostname, hhost, hne⟩ := x509_of_unusable_eq_none hmem husable hverify
  exact ⟨hx, hostname, hhost, hne, clientOptions_of_x509 hx hverify hhost h⟩

end VeNCrypt

end VncDoTool
