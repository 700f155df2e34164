import VncDoTool.Client.Startup
import VncDoTool.Client.Termination
import VncDoTool.Client.Authentication

/-!
# Credentials and the tunnel

When a client that settles on VeNCrypt starts its tunnel, and what it has written by then.

* `RFBClient.Approaches`: where the generator of VeNCrypt stands before its tunnel;
  `RFBClient.approaches_vencryptHandler`: it starts one only behind a question about `_packet` that
  was answered no, and with options its policy allows.
* `RFBClient.Secure`: a log in which no credentials come before the tunnel, and there is one tunnel.
* `RFBClient.Stands`: where a run that settles on VeNCrypt can be; `RFBClient.stands_of_reachesBy`.
* `RFBClient.credentials_in_tunnel`: so the log is secure at every point of such a run, and the tunnel
  is started on an empty buffer.
-/

namespace VncDoTool

namespace RFBClient

variable {D S : Type}

/-! ## What may be shown -/

/-- A call of `startTLS`. -/
def Event.startsTLS : Event → Bool
  | .startTLS _ => true
  | _ => false

/-- Credentials: the response to a challenge, or a user name and password. -/
def Event.discloses : Event → Bool
  | .wrote .challengeResponse _ | .wrote .plainCredentials _ => true
  | _ => false

/-- No credentials come before the tunnel, and there is one tunnel at most. -/
def Secure (log : List Event) : Prop :=
  (∀ before e after, log = before ++ e :: after → e.discloses = true →
    ∃ t ∈ before, t.startsTLS = true) ∧ log.countP Event.startsTLS ≤ 1

/-- No credentials, and no tunnel. -/
def Hushed (log : List Event) : Prop := ∀ e ∈ log, e.startsTLS = false ∧ e.discloses = false

/-- One tunnel, and no credentials before it. -/
def Tunnelled (log : List Event) : Prop :=
  ∃ before options after, log = before ++ .startTLS options :: after ∧ Hushed before ∧
    ∀ e ∈ after, e.startsTLS = false

theorem countP_startsTLS_eq_zero {log : List Event} (h : ∀ e ∈ log, e.startsTLS = false) :
    log.countP Event.startsTLS = 0 := by
  rw [List.countP_eq_zero]
  intro e he
  simp [h e he]

theorem Hushed.append {log es : List Event} (h : Hushed log) (hes : Hushed es) :
    Hushed (log ++ es) := by
  intro e he
  rcases List.mem_append.mp he with he | he
  · exact h e he
  · exact hes e he

theorem Hushed.secure {log : List Event} (h : Hushed log) : Secure log := by
  constructor
  · rintro before e after rfl hdiscloses
    have he := (h e (by simp)).2
    exact absurd hdiscloses (by simp [he])
  · rw [countP_startsTLS_eq_zero fun e he => (h e he).1]
    exact Nat.zero_le 1

theorem Tunnelled.append {log es : List Event} (h : Tunnelled log)
    (hes : ∀ e ∈ es, e.startsTLS = false) : Tunnelled (log ++ es) := by
  obtain ⟨before, options, after, rfl, hbefore, hafter⟩ := h
  refine ⟨before, options, after ++ es, by simp, hbefore, ?_⟩
  intro e he
  rcases List.mem_append.mp he with he | he
  · exact hafter e he
  · exact hes e he

theorem Tunnelled.secure {log : List Event} (h : Tunnelled log) : Secure log := by
  obtain ⟨before, options, after, rfl, hbefore, hafter⟩ := h
  constructor
  · intro before' e after' hlog hdiscloses
    -- The credentials are not among what comes before the tunnel, nor are they the tunnel.
    rcases List.append_eq_append_iff.mp hlog with ⟨es, rfl, hes⟩ | ⟨es, rfl, hes⟩
    · cases es with
      | nil =>
        obtain ⟨rfl, -⟩ := List.cons.inj hes
        exact absurd hdiscloses (by simp [Event.discloses])
      | cons t es =>
        obtain ⟨rfl, -⟩ := List.cons.inj hes
        exact ⟨.startTLS options, by simp, rfl⟩
    · cases es with
      | nil =>
        obtain ⟨rfl, -⟩ := List.cons.inj hes
        exact absurd hdiscloses (by simp [Event.discloses])
      | cons t es =>
        obtain ⟨rfl, -⟩ := List.cons.inj hes
        have he := (hbefore e (by simp)).2
        exact absurd hdiscloses (by simp [he])
  · rw [List.countP_append, List.countP_cons,
      countP_startsTLS_eq_zero fun e he => (hbefore e he).1, countP_startsTLS_eq_zero hafter]
    rfl

theorem hushed_of_requests {es : List Event} (h : ∀ e ∈ es, e.requests = true) : Hushed es := by
  intro e he
  have hrequests := h e he
  cases e with
  | wrote what data => cases what <;> simp_all [Event.requests, Event.startsTLS, Event.discloses]
  | _ => exact absurd hrequests (by simp [Event.requests])

theorem not_startsTLS_of_answers {e : Event} (h : e.answers = true) : e.startsTLS = false := by
  cases e with
  | startTLS options => exact absurd h (by simp [Event.answers])
  | _ => rfl

/-- Unless unverified peers are allowed, a tunnel is for a subtype with a certificate, and its
options check it against the configured host name. -/
def Checked (policy : VeNCrypt.TLSPolicy) (subtype : VeNCryptSubtypes) (options : ClientOptions) :
    Prop :=
  policy.allowUnverified = false →
    subtype ∈ VeNCrypt.x509Subtypes ∧ ∃ hostname, policy.hostname = some hostname ∧ hostname ≠ "" ∧
      options = .verified hostname policy.caCerts

/-- The subtype that was requested last, and a tunnel for it. -/
structure Tunnel (policy : VeNCrypt.TLSPolicy) (a : Attrs D S) (options : ClientOptions) : Prop where
  requested : .wrote .vencryptSubtype (be32 a.vencryptSubtype.value) ∈ a.log
  checked : Checked policy a.vencryptSubtype options

/-! ## The generator before the tunnel -/

/-- The generator of VeNCrypt once it was told that nothing is buffered: it fails, or starts the
tunnel and only then goes on. -/
def Opens (policy : VeNCrypt.TLSPolicy) (t : Attrs D S) (x : GenStep D S Bool) : Prop :=
  (∃ e, x = .failed t e) ∨ ∃ options, Tunnel policy t options ∧
    x.Honours (answering mayRaise) anything
      { t with tlsHandshakePending := true, log := t.log ++ [.startTLS options] }

/-- The generator of VeNCrypt before its tunnel. -/
inductive Approaches (policy : VeNCrypt.TLSPolicy) : Attrs D S → GenStep D S Bool → Prop
  | failed {a a' : Attrs D S} {e : PyErr} (h : Handles Event.requests a a') :
      Approaches policy a (.failed a' e)
  | asks {a a' : Attrs D S} {y : Request} {resume : Answer y → Attrs D S → GenStep D S Bool}
      (h : Handles Event.requests a a') (hbytes : ∃ n : ℕ, y = .bytes n)
      (hnext : ∀ answer t, Meanwhile a' t → Approaches policy t (resume answer t)) :
      Approaches policy a (.yielded a' y resume)
  /-- It asks whether anything is buffered; what is buffered fails it. -/
  | checks {a : Attrs D S} {resume : Bool → Attrs D S → GenStep D S Bool}
      (hwaiting : ∃ e, resume true a = .failed a e) (hclear : Opens policy a (resume false a)) :
      Approaches policy a (.yielded a .packet resume)

variable {policy : VeNCrypt.TLSPolicy}

theorem Handles.tlsPolicy_eq {P : Event → Bool} {a a' : Attrs D S} (h : Handles P a a') :
    tlsPolicy a' = tlsPolicy a := by
  obtain ⟨_, _, _, _, _, _, rfl, _⟩ := h
  rfl

/-- What a handler has shown. -/
theorem Handles.exists_shown {P : Event → Bool} {a a' : Attrs D S} (h : Handles P a a') :
    ∃ es, a'.log = a.log ++ es ∧ ∀ e ∈ es, P e = true := by
  obtain ⟨_, _, _, _, _, es, rfl, hes⟩ := h
  exact ⟨es, rfl, hes⟩

theorem Meanwhile.tlsPolicy_eq {a t : Attrs D S} (h : Meanwhile a t) : tlsPolicy t = tlsPolicy a := by
  obtain ⟨_, rfl⟩ := h
  rfl

theorem reads_bind {α β : Type} {m : Gen D S α} {f : α → Gen D S β} {a : Attrs D S}
    (hm : Reads (m.run a)) (hf : ∀ v t, Reads ((f v).run t)) : Reads ((m >>= f).run a) := hm.bind hf

theorem reads_read (n : ℕ) (a : Attrs D S) : Reads ((Gen.read n).run a) :=
  ⟨⟨n, rfl⟩, fun _ _ => trivial⟩

theorem reads_lift {α : Type} (m : Py (Attrs D S) α) (a : Attrs D S) : Reads ((Gen.lift m).run a) := by
  rw [Gen.run_lift]
  cases m.run a <;> trivial

theorem reads_agreeOnVersion (a : Attrs D S) : Reads ((agreeOnVersion : Gen D S Unit).run a) := by
  unfold agreeOnVersion
  refine reads_bind (reads_read 2 a) fun offer t => ?_
  dsimp only
  split_ifs
  · refine reads_bind (reads_lift _ t) fun _ t => ?_
    refine reads_bind (reads_read 1 t) fun ack t => ?_
    split_ifs <;> trivial
  · trivial

theorem reads_requestSubtype (a : Attrs D S) :
    Reads ((requestSubtype : Gen D S VeNCryptSubtypes).run a) := by
  unfold requestSubtype
  refine reads_bind (reads_read 1 a) fun count t => ?_
  dsimp only
  split_ifs
  · trivial
  · refine reads_bind (reads_read _ t) fun block t => ?_
    rw [Coroutine.run_bind, Coroutine.run_get, Coroutine.Step.bind_done]
    split
    · trivial
    next chosen _ => exact reads_bind trivial fun _ t => reads_bind (reads_lift _ t) fun _ _ => trivial

/-- What comes first only reads and requests. -/
theorem approaches_bind {α : Type} {m : Gen D S α} {f : α → Gen D S Bool} {a₀ a : Attrs D S}
    {Q : Attrs D S → α → Prop} (hm : (m.run a).Honours (requesting mayRaise) Q a₀)
    (hreads : Reads (m.run a))
    (hf : ∀ v t a₀, Handles Event.requests a₀ t → Q t v → Approaches policy a₀ ((f v).run t)) :
    Approaches policy a₀ ((m >>= f).run a) := by
  rw [Coroutine.run_bind]
  revert hm hreads
  generalize m.run a = x
  intro hm hreads
  induction x generalizing a₀ with
  | done t v => exact hf v t a₀ hm.1 hm.2
  | failed t e => exact .failed hm.1
  | yielded t y resume ih =>
    exact .asks hm.1 hreads.1 fun answer s hs => ih answer s (hm.2.2 answer s hs) (hreads.2 answer s)

section

variable {library : Library}
  {decoders : ℤ → Option (Decoder (D := D) (S := S) (baseCallback library))}

/-- Inside the tunnel. -/
theorem honours_authenticateInside (chosen : VeNCryptSubtypes) (a : Attrs D S) :
    ((authenticateInside (base library decoders) chosen >>= fun _ =>
      securityResult (base library decoders)).run a).Honours (answering mayRaise) anything a := by
  refine Coroutine.honours_bind (Q := anything) ?_ ?_
  · unfold authenticateInside
    split_ifs
    · exact honours_readChallenge fun _ _ _ _ => trivial
    · exact honours_lift rfl ((Handles.emit a rfl).trans (Handles.emit _ rfl)) trivial
    · exact Coroutine.honours_pure trivial
  · intro _ a _
    exact honours_securityResult fun _ => trivial

/-- The acknowledgement of the subtype, and what follows it. -/
theorem approaches_startTunnel {chosen : VeNCryptSubtypes} {a₀ a : Attrs D S}
    (h : Handles Event.requests a₀ a) (hchosen : Requested a chosen) :
    Approaches (tlsPolicy a) a₀ ((startTunnel (base library decoders) chosen >>= fun _ =>
      authenticateInside (base library decoders) chosen >>= fun _ =>
        securityResult (base library decoders)).run a) := by
  obtain ⟨hsubtype, hwrote, offered, credentials, hchoose⟩ := hchosen
  unfold startTunnel
  rw [bind_assoc]
  refine .asks h ⟨1, rfl⟩ ?_
  rintro ack t ⟨pending, rfl⟩
  -- Refused, it ends in an exception; granted, it looks at the buffer before TLS starts.
  by_cases hack : byteAt ack.bytes 0 ≠ 1
  · show Approaches _ _ (((if byteAt ack.bytes 0 ≠ 1 then Gen.raise _ _ else _) >>= _).run _)
    rw [if_pos hack]
    exact .failed (Handles.refl _)
  · show Approaches _ _ (((if byteAt ack.bytes 0 ≠ 1 then Gen.raise _ _ else _) >>= _).run _)
    rw [if_neg hack]
    refine .checks ⟨_, rfl⟩ ?_
    unfold Opens
    simp only [Coroutine.run_bind, Coroutine.run_get, Coroutine.Step.bind_done, Bool.false_eq_true,
      if_false]
    cases hoptions : VeNCrypt.clientOptions (base library decoders).library.optionsError chosen
        (tlsPolicy { a with tlsHandshakePending := pending }) with
    | error error => exact .inl ⟨⟨.securityError, s!"cannot start TLS for VeNCrypt: {error}"⟩, rfl⟩
    | ok options =>
      refine .inr ⟨options, ⟨by rw [hsubtype]; exact hwrote, ?_⟩, honours_authenticateInside chosen _⟩
      intro hverify
      rw [hsubtype]
      exact VeNCrypt.clientOptions_of_choose hchoose hverify hoptions

/-- The whole handler. -/
theorem approaches_vencryptHandler (a : Attrs D S) :
    Approaches (tlsPolicy a) a ((vencryptHandler (base library decoders)).run a) := by
  unfold vencryptHandler
  have hagreed : ((agreeOnVersion : Gen D S Unit).run a).Honours (requesting mayRaise) _ a :=
    honours_agreeOnVersion.unchanged tlsPolicy (fun _ _ h => h.tlsPolicy_eq) fun _ _ h =>
      h.tlsPolicy_eq
  refine approaches_bind hagreed (reads_agreeOnVersion a) ?_
  rintro _ t a₀ h ⟨-, hpolicy⟩
  have hrequested : ((requestSubtype : Gen D S VeNCryptSubtypes).run t).Honours
      (requesting mayRaise) _ t :=
    honours_requestSubtype.unchanged tlsPolicy (fun _ _ h => h.tlsPolicy_eq) fun _ _ h =>
      h.tlsPolicy_eq
  refine approaches_bind (hrequested.from_earlier h) (reads_requestSubtype t) ?_
  rintro chosen u a₀ h ⟨hchosen, hpolicy'⟩
  rw [← hpolicy, ← hpolicy']
  exact approaches_startTunnel h hchosen

end

/-! ## The pump before the tunnel -/

/-- What the generator comes to before its tunnel when its questions are answered. -/
inductive Pause.Approaches (policy : VeNCrypt.TLSPolicy) (waiting : Bool) (a : Attrs D S) :
    Pause D S Bool → Prop
  | failed {a' : Attrs D S} {e : PyErr} (h : Handles Event.requests a a') :
      Approaches policy waiting a (.failed a' e)
  | wants {a' : Attrs D S} (n : ℕ) {resume : Block n → Attrs D S → GenStep D S Bool}
      (h : Handles Event.requests a a')
      (hnext : ∀ block t, Meanwhile a' t → RFBClient.Approaches policy t (resume block t)) :
      Approaches policy waiting a (.wants a' n resume)
  | opened {p : Pause D S Bool} (options : ClientOptions) (hwaiting : waiting = false)
      (htunnel : Tunnel policy a options)
      (hinside : p.Honours (answering mayRaise) anything
        { a with tlsHandshakePending := true, log := a.log ++ [.startTLS options] }) :
      Approaches policy waiting a p

theorem drive_approaches (waiting : Bool) {x : GenStep D S Bool} {a : Attrs D S}
    (h : Approaches policy a x) : (drive waiting x).Approaches policy waiting a := by
  cases h with
  | failed h => exact .failed h
  | asks h hbytes hnext =>
    obtain ⟨n, rfl⟩ := hbytes
    exact .wants n h hnext
  | @checks _ resume hwaiting hclear =>
    cases waiting with
    | true =>
      obtain ⟨e, hfailed⟩ := hwaiting
      simp only [drive]
      rw [hfailed]
      exact .failed (Handles.refl a)
    | false =>
      simp only [drive]
      rcases hclear with ⟨e, hfailed⟩ | ⟨options, htunnel, hinside⟩
      · rw [hfailed]
        exact .failed (Handles.refl a)
      · exact .opened options rfl htunnel (drive_honours Meanwhile.refl false hinside)

/-! ## Runs -/

/-- The parked handler belongs to a run that may still start its tunnel, or has given up. -/
def Expected.Nears (policy : VeNCrypt.TLSPolicy) (a : Attrs D S) : Expected D S → Prop
  | .auth | .numberSecurityTypes | .securityTypes _ | .connFailed | .connMessage _ => True
  | .pump (.security _) _ resume => ∀ block t, Meanwhile a t → Approaches policy t (resume block t)
  | .ended (.security _) _ => True
  | _ => False

/-- The parked handler belongs to a run that has started its tunnel. -/
def Expected.Inside (a : Attrs D S) : Expected D S → Prop
  | .pump (.security _) _ resume =>
    ∀ block t, Meanwhile a t → (resume block t).Honours (answering mayRaise) anything t
  | .ended (.security _) _ => True
  | e => e.admitted = true

/-- Where a run that settles on VeNCrypt stands. -/
inductive Stands (policy : VeNCrypt.TLSPolicy) (c : RFBClient D S) : Prop
  | initial (hlog : Hushed c.attrs.log) (hpolicy : tlsPolicy c.attrs = policy)
      (hphase : c.phase = .initial)
  | nears (e : Expected D S) (hlog : Hushed c.attrs.log) (hpolicy : tlsPolicy c.attrs = policy)
      (hphase : c.phase = .expecting e) (hnears : e.Nears policy c.attrs)
  | inside (e : Expected D S) (hlog : Tunnelled c.attrs.log) (hphase : c.phase = .expecting e)
      (hinside : e.Inside c.attrs)

theorem Stands.secure {c : RFBClient D S} (h : Stands policy c) : Secure c.attrs.log := by
  cases h with
  | initial hlog => exact hlog.secure
  | nears e hlog => exact hlog.secure
  | inside e hlog => exact hlog.secure

/-- A turn of the loop settles on no security type but VeNCrypt. -/
def SettlesOnVeNCrypt (c : RFBClient D S) : Prop :=
  ∀ secType, ready c = true → chosenType c = some secType → secType = AuthTypes.vencrypt.value

/-- A handler call that starts a tunnel uses up the buffer, and its tunnel is for the subtype that
was requested. -/
def TunnelsSafely (policy : VeNCrypt.TLSPolicy) (c c' : RFBClient D S) : Prop :=
  ∀ es options, c'.attrs.log = c.attrs.log ++ es → .startTLS options ∈ es →
    c.packet.drop (expectedLen c) = [] ∧ c'.packet = [] ∧ Tunnel policy c.attrs options

/-- The run goes on inside the tunnel, and starts no other. -/
def GoesOnInside (log : List Event) (c : RFBClient D S) : Prop :=
  ∃ e es, c.attrs.log = log ++ es ∧ (∀ e ∈ es, e.startsTLS = false) ∧
    c.phase = .expecting e ∧ e.Inside c.attrs

theorem GoesOnInside.stands {log : List Event} {c : RFBClient D S} (h : GoesOnInside log c)
    (hlog : Tunnelled log) : Stands policy c := by
  obtain ⟨e, es, heq, hes, hphase, hinside⟩ := h
  exact .inside e (heq ▸ hlog.append hes) hphase hinside

section

variable {library : Library}
  {decoders : ℤ → Option (Decoder (D := D) (S := S) (baseCallback library))}

/-- Aborting starts no tunnel. -/
theorem not_startsTLS_complaint (reason : String) :
    ∀ e ∈ ([.called (.vncProtocolError reason), .loseConnection] : List Event),
      e.startsTLS = false := by
  intro e he
  rcases List.mem_cons.mp he with rfl | he
  · rfl
  · rw [List.mem_singleton.mp he]
    rfl

/-- One step of a generator inside the tunnel. -/
theorem inside_pump {secType size : ℕ} {x : GenStep D S Bool} {c : RFBClient D S} {a : Attrs D S}
    (hphase : c.phase = .expecting (.ended (.security secType) size))
    (h : (drive (!c.packet.isEmpty) x).Honours (answering mayRaise) anything a) :
    GoesOnInside a.log
      (client ((pump (base library decoders) (.security secType) x).run c)) := by
  -- What the generator showed so far starts no tunnel.
  have hshown : ∀ a', Handles Event.answers a a' →
      ∃ es, a'.log = a.log ++ es ∧ ∀ e ∈ es, e.startsTLS = false := by
    intro a' hdoes
    obtain ⟨es, hlog, hes⟩ := hdoes.exists_shown
    exact ⟨es, hlog, fun e he => not_startsTLS_of_answers (hes e he)⟩
  -- Whether it aborts or raises, it is finished.
  have haborts : ∀ a' reason, Handles Event.answers a a' → GoesOnInside a.log (client
      ((abortConnection (base library decoders) reason).run { c with attrs := a' })) := by
    intro a' reason hdoes
    obtain ⟨es, hlog, hes⟩ := hshown a' hdoes
    rw [run_abortConnection]
    refine ⟨_, es ++ [.called (.vncProtocolError reason), .loseConnection], ?_, ?_, hphase, trivial⟩
    · show a'.log ++ _ = _
      rw [hlog, List.append_assoc]
    · intro e he
      rcases List.mem_append.mp he with he | he
      · exact hes e he
      · exact not_startsTLS_complaint reason e he
  rw [run_pump]
  cases hdrive : drive (!c.packet.isEmpty) x with
  | done a' proceed =>
    rw [hdrive] at h
    cases h with
    | done hdoes _ =>
      obtain ⟨es, hlog, hes⟩ := hshown a' hdoes
      cases proceed with
      | false => exact ⟨_, es, hlog, hes, hphase, trivial⟩
      | true =>
        refine ⟨.serverInit, es ++ [.wrote .clientInit [if a'.factory.shared then 1 else 0]],
          ?_, ?_, rfl, rfl⟩
        · show a'.log ++ _ = _
          rw [hlog, List.append_assoc]
        · intro e he
          rcases List.mem_append.mp he with he | he
          · exact hes e he
          · rw [List.mem_singleton.mp he]
            rfl
  | failed a' e =>
    rw [hdrive] at h
    cases h with
    | failed hdoes _ =>
      simp only
      split_ifs
      · exact haborts a' _ hdoes
      · obtain ⟨es, hlog, hes⟩ := hshown a' hdoes
        exact ⟨_, es, hlog, hes, hphase, trivial⟩
  | wants a' n resume =>
    rw [hdrive] at h
    cases h with
    | wants hdoes _ hnext =>
      simp only
      split_ifs
      · exact haborts a' _ hdoes
      · obtain ⟨es, hlog, hes⟩ := hshown a' hdoes
        exact ⟨_, es, hlog, hes, rfl, hnext⟩

/-- No handler of the session starts a tunnel. -/
theorem not_startsTLS_of_admitted {e : Expected D S} (h : e.admitted = true) {ev : Event}
    (hshows : e.shows ev = true) : ev.startsTLS = false := by
  cases ev with
  | startTLS options =>
    cases e with
    | pump task size resume =>
      cases task <;> exact absurd hshows (by simp_all [Expected.shows, Expected.admitted,
        Task.inSession, Event.converses, Event.updates])
    | _ => exact absurd hshows (by simp_all [Expected.shows, Expected.admitted,
        Event.converses, Event.updates])
  | _ => rfl

/-- A turn of the loop inside the tunnel. -/
theorem inside_turn {c : RFBClient D S} {e : Expected D S} (hsound : Sound (baseCallback library) c)
    (hready : ready c = true) (hphase : c.phase = .expecting e) (hinside : e.Inside c.attrs) :
    GoesOnInside c.attrs.log (client ((turn (base library decoders)).run c)) := by
  obtain ⟨e', hphase', hlen, -⟩ := exists_of_ready hready
  obtain rfl : e = e' := Phase.expecting.inj (hphase.symm.trans hphase')
  -- In the session nothing of the kind is shown.
  have hsession : e.admitted = true →
      GoesOnInside c.attrs.log (client ((turn (base library decoders)).run c)) := by
    intro he
    have hleaves : Leaves e.shows c (client ((turn (base library decoders)).run c)) :=
      leaves_turn hsound hready hphase
    obtain ⟨es, hlog, hes⟩ := hleaves.exists_shown
    have hin : admitted (client ((turn (base library decoders)).run c)) = true := by
      rw [run_turn _ hphase hlen]
      exact admitted_handle hphase he
    obtain ⟨e', hphase', he'⟩ := exists_of_admitted hin
    refine ⟨e', es, hlog, ?_, hphase', ?_⟩
    · intro ev hev
      rcases hes ev hev with hshows | hcomplains | rfl
      · exact not_startsTLS_of_admitted he hshows
      · cases ev with
        | startTLS options => exact absurd hcomplains (by simp [Event.complains])
        | _ => rfl
      · rfl
    · cases e' with
      | pump task size resume =>
        cases task with
        | security secType => exact absurd he' (by simp [Expected.admitted, Task.inSession])
        | _ => exact he'
      | ended task size =>
        cases task with
        | security secType => trivial
        | _ => exact he'
      | _ => exact he'
  cases e with
  | pump task size resume =>
    cases task with
    | security secType =>
      rw [run_turn _ hphase hlen, run_handle_pump]
      exact @inside_pump _ _ library decoders secType size.toNat _
        { c with
          packet := c.packet.drop size.toNat
          phase := .expecting (.ended (.security secType) size.toNat) } _ rfl
        (drive_honours Meanwhile.refl _ (hinside _ c.attrs (Meanwhile.refl _)))
    | message msgid => exact hsession rfl
    | rectangle rect => exact hsession rfl
  | ended task size =>
    cases task with
    | security secType =>
      rw [run_turn _ hphase hlen]
      exact ⟨_, [], (List.append_nil _).symm, List.forall_mem_nil _, hphase, trivial⟩
    | message msgid => exact hsession rfl
    | rectangle rect => exact hsession rfl
  | _ => exact hsession hinside

/-- The run is still before the tunnel, and has shown neither a tunnel nor credentials. -/
def StaysNear (policy : VeNCrypt.TLSPolicy) (a : Attrs D S) (c : RFBClient D S) : Prop :=
  ∃ e es, c.attrs.log = a.log ++ es ∧ Hushed es ∧ tlsPolicy c.attrs = tlsPolicy a ∧
    c.phase = .expecting e ∧ e.Nears policy c.attrs

theorem StaysNear.stands {a : Attrs D S} {c : RFBClient D S} (h : StaysNear policy a c)
    (hlog : Hushed a.log) (hpolicy : tlsPolicy a = policy) : Stands policy c := by
  obtain ⟨e, es, heq, hes, hsame, hphase, hnears⟩ := h
  exact .nears e (heq ▸ hlog.append hes) (hsame.trans hpolicy) hphase hnears

theorem hushed_complaint (reason : String) :
    Hushed [.called (.vncProtocolError reason), .loseConnection] := by
  intro e he
  rcases List.mem_cons.mp he with rfl | he
  · exact ⟨rfl, rfl⟩
  · rw [List.mem_singleton.mp he]
    exact ⟨rfl, rfl⟩

theorem staysNear_abortConnection {reason : String} {c : RFBClient D S} {e : Expected D S}
    (hphase : c.phase = .expecting e) (hplain : e.plain = true) (hnears : e.Nears policy c.attrs) :
    StaysNear policy c.attrs (client ((abortConnection (base library decoders) reason).run c)) := by
  rw [run_abortConnection]
  refine ⟨e, _, rfl, hushed_complaint reason, rfl, hphase, ?_⟩
  -- No generator is parked, so that what is parked says nothing of the attributes.
  cases e with
  | pump task size resume => exact absurd hplain (by simp [Expected.plain])
  | ended task size => cases task <;> exact hnears
  | _ => exact hnears

/-- One step of a generator before its tunnel: it stays there, or it finds the buffer empty and
starts its tunnel. -/
theorem near_pump {secType size : ℕ} {x : GenStep D S Bool} {c : RFBClient D S}
    (hphase : c.phase = .expecting (.ended (.security secType) size))
    (h : Approaches policy c.attrs x) :
    StaysNear policy c.attrs
      (client ((pump (base library decoders) (.security secType) x).run c)) ∨
    ∃ options, c.packet = [] ∧ Tunnel policy c.attrs options ∧
      GoesOnInside (c.attrs.log ++ [.startTLS options])
        (client ((pump (base library decoders) (.security secType) x).run c)) := by
  have hdriven := drive_approaches (!c.packet.isEmpty) h
  generalize hdrive : drive (!c.packet.isEmpty) x = p at hdriven
  cases hdriven with
  | @failed a' e h =>
    have hpolicy := h.tlsPolicy_eq
    obtain ⟨es, hlog, hes⟩ := h.exists_shown
    left
    rw [run_pump, hdrive]
    simp only
    -- An abort reports and closes: it starts no TLS and writes no credentials.
    have haborts : ∀ reason, StaysNear policy c.attrs (client
        ((abortConnection (base library decoders) reason).run { c with attrs := a' })) := by
      intro reason
      rw [run_abortConnection]
      refine ⟨_, es ++ [.called (.vncProtocolError reason), .loseConnection], ?_,
        (hushed_of_requests hes).append (hushed_complaint reason), hpolicy, hphase, trivial⟩
      show a'.log ++ _ = _
      rw [hlog, List.append_assoc]
    split_ifs
    · exact haborts _
    · exact ⟨_, es, hlog, hushed_of_requests hes, hpolicy, hphase, trivial⟩
  | @wants a' n resume h hnext =>
    obtain ⟨es, hlog, hes⟩ := h.exists_shown
    left
    rw [run_pump, hdrive]
    simp only
    rw [if_neg (Int.not_lt.mpr (Int.natCast_nonneg n))]
    exact ⟨_, es, hlog, hushed_of_requests hes, h.tlsPolicy_eq, rfl, hnext⟩
  -- Only an empty buffer lets TLS start.
  | opened options hwaiting htunnel hinside =>
    refine .inr ⟨options, by simpa using hwaiting, htunnel, ?_⟩
    exact inside_pump hphase (hdrive ▸ hinside)

/-- Settling on VeNCrypt. -/
theorem near_startSecurity {c : RFBClient D S} (hpolicy : tlsPolicy c.attrs = policy) :
    StaysNear policy c.attrs
      (client ((startSecurity (base library decoders) AuthTypes.vencrypt.value).run c)) := by
  have hhandler : securityHandler (base library decoders) AuthTypes.vencrypt.value =
      some (vencryptHandler (base library decoders)) := rfl
  have happroaches : Approaches policy c.attrs ((vencryptHandler (base library decoders)).run c.attrs) :=
    hpolicy ▸ approaches_vencryptHandler c.attrs
  -- The first thing it does is to wait for the server's version.
  obtain ⟨resume, hrun⟩ : ∃ resume : Block 2 → Attrs D S → GenStep D S Bool,
      (vencryptHandler (base library decoders)).run c.attrs =
        .yielded c.attrs (.bytes (2 : ℕ)) resume := ⟨_, rfl⟩
  rw [hrun] at happroaches
  rw [run_startSecurity, hhandler]
  simp only
  rw [hrun]
  have hparked : (pump (base library decoders) (.security AuthTypes.vencrypt.value)
      (.yielded c.attrs (.bytes (2 : ℕ)) resume)).run c = .ok () { c with
        phase := .expecting (.pump (.security AuthTypes.vencrypt.value) (2 : ℕ) resume) } :=
    @run_pump_of_yielded D S _ (.security AuthTypes.vencrypt.value) c.attrs 2 resume c
  rw [hparked]
  cases happroaches with
  | asks h hbytes hnext =>
    exact ⟨_, [], (List.append_nil _).symm, List.forall_mem_nil _, rfl, rfl, hnext⟩

/-- What was shown before is shown before. -/
theorem StaysNear.after {a₀ a : Attrs D S} {es : List Event} {c : RFBClient D S}
    (h : StaysNear policy a c) (hlog : a.log = a₀.log ++ es) (hes : Hushed es)
    (hpolicy : tlsPolicy a = tlsPolicy a₀) : StaysNear policy a₀ c := by
  obtain ⟨e, es', heq, hes', hsame, hphase, hnears⟩ := h
  exact ⟨e, es ++ es', by rw [heq, hlog, List.append_assoc], hes.append hes', hsame.trans hpolicy,
    hphase, hnears⟩

theorem SettlesOnVeNCrypt.of_chooses {c : RFBClient D S} (h : SettlesOnVeNCrypt c)
    (hready : ready c = true) {e : Expected D S} (hphase : c.phase = .expecting e)
    (hlen : e.len ≤ c.packet.length) (secType : ℕ)
    (hchooses : e.chooses (Block.ofPrefix e.len c.packet hlen) = some secType) :
    secType = AuthTypes.vencrypt.value := by
  refine h secType hready ?_
  unfold chosenType
  rw [hphase]
  cases e with
  | auth => exact hchooses
  | securityTypes count => exact hchooses
  | _ => exact absurd hchooses (by simp [Expected.chooses])

/-- A handler call before the tunnel. -/
theorem near_handle {e : Expected D S} {block : Block e.len} {c : RFBClient D S}
    (hphase : c.phase = .expecting e) (hpolicy : tlsPolicy c.attrs = policy)
    (hnears : e.Nears policy c.attrs)
    (hsettles : ∀ secType, e.chooses block = some secType → secType = AuthTypes.vencrypt.value) :
    StaysNear policy c.attrs (client ((handle (base library decoders) e block).run c)) ∨
    ∃ options, c.packet = [] ∧ Tunnel policy c.attrs options ∧
      GoesOnInside (c.attrs.log ++ [.startTLS options])
        (client ((handle (base library decoders) e block).run c)) := by
  -- A handler that only parks another logs nothing.
  have hparks : ∀ e' : Expected D S, e'.Nears policy c.attrs →
      StaysNear policy c.attrs { c with phase := .expecting e' } := fun e' he' =>
    ⟨e', [], (List.append_nil _).symm, List.forall_mem_nil _, rfl, rfl, he'⟩
  cases e with
  | auth =>
    left
    have hauth := hsettles _ rfl
    simp only [handle, handleAuth]
    split_ifs
    · exact hparks .connFailed trivial
    · rw [hauth]
      exact near_startSecurity hpolicy
    · exact staysNear_abortConnection hphase rfl trivial
  | numberSecurityTypes =>
    left
    simp only [handle, handleNumberSecurityTypes]
    split_ifs
    · exact hparks (.securityTypes _) trivial
    · exact hparks .connFailed trivial
  | securityTypes count =>
    left
    simp only [handle, handleSecurityTypes]
    split
    next secType hmax =>
      obtain rfl := hsettles secType hmax
      -- The client writes its choice before the exchange starts.
      have hchosen : Hushed [.wrote .securityType [UInt8.ofNat AuthTypes.vencrypt.value]] := by
        intro e he
        rw [List.mem_singleton.mp he]
        exact ⟨rfl, rfl⟩
      have hstarted : StaysNear policy _
          (client ((startSecurity (base library decoders) AuthTypes.vencrypt.value).run { c with
            attrs := { c.attrs with
              log := c.attrs.log ++
                [.wrote .securityType [UInt8.ofNat AuthTypes.vencrypt.value]] } })) :=
        near_startSecurity hpolicy
      exact hstarted.after rfl hchosen rfl
    · exact staysNear_abortConnection hphase rfl trivial
  | connFailed =>
    left
    simp only [handle, handleConnFailed]
    split_ifs
    · exact staysNear_abortConnection hphase rfl trivial
    · exact hparks (.connMessage _) trivial
  | connMessage waitfor => exact .inl (staysNear_abortConnection hphase rfl trivial)
  | pump task size resume =>
    cases task with
    -- Only here can the tunnel be opened.
    | security secType =>
      rw [run_handle_pump]
      exact @near_pump _ _ _ library decoders secType size.toNat _
        { c with phase := .expecting (.ended (.security secType) size.toNat) } rfl
        (hnears block c.attrs (Meanwhile.refl _))
    | _ => exact absurd hnears not_false
  | ended task size =>
    cases task with
    | security secType =>
      exact .inl ⟨_, [], (List.append_nil _).symm, List.forall_mem_nil _, rfl, hphase, trivial⟩
    | _ => exact absurd hnears not_false
  | _ => exact absurd hnears not_false

/-- What a turn of the loop keeps: where the run stands, and that it tunnels safely. -/
theorem stands_turn {c : RFBClient D S} (hsound : Sound (baseCallback library) c)
    (hready : ready c = true) (hsettles : SettlesOnVeNCrypt c) (h : Stands policy c) :
    Stands policy (client ((turn (base library decoders)).run c)) ∧
      TunnelsSafely policy c (client ((turn (base library decoders)).run c)) := by
  obtain ⟨e, hphase, hlen, -⟩ := exists_of_ready hready
  -- A call that starts no tunnel tunnels safely.
  have hsilent : ∀ es, (client ((turn (base library decoders)).run c)).attrs.log = c.attrs.log ++ es →
      (∀ e ∈ es, e.startsTLS = false) →
      TunnelsSafely policy c (client ((turn (base library decoders)).run c)) := by
    intro es hlog hes es' options hlog' hmem
    obtain rfl := List.append_cancel_left (hlog.symm.trans hlog')
    exact absurd (hes _ hmem) (by simp [Event.startsTLS])
  cases h with
  | initial hlog hpolicy hinitial =>
    rw [hphase] at hinitial
    exact absurd hinitial (by simp)
  | nears e' hlog hpolicy hphase' hnears =>
    obtain rfl : e = e' := Phase.expecting.inj (hphase.symm.trans hphase')
    have hstep := @near_handle _ _ _ library decoders e (Block.ofPrefix e.len c.packet hlen)
      { c with packet := c.packet.drop e.len } hphase hpolicy hnears
      fun secType => hsettles.of_chooses hready hphase hlen secType
    rw [← run_turn (base library decoders) hphase hlen] at hstep
    rcases hstep with hnear | ⟨options, hempty, htunnel, hinside⟩
    · obtain ⟨-, es, heq, hes, -⟩ := id hnear
      exact ⟨hnear.stands hlog hpolicy, hsilent es heq fun e he => (hes e he).1⟩
    · have htunnelled : Tunnelled (c.attrs.log ++ [.startTLS options]) :=
        ⟨c.attrs.log, options, [], rfl, hlog, List.forall_mem_nil _⟩
      refine ⟨hinside.stands htunnelled, ?_⟩
      intro es options' hlog' hmem
      -- It is the one tunnel the call started.
      obtain ⟨_, es', heq, hes', -⟩ := hinside
      have hsame : es = .startTLS options :: es' := by
        refine List.append_cancel_left (hlog'.symm.trans (heq.trans ?_))
        simp
      have hdrop : c.packet.drop (expectedLen c) = [] := by
        rw [expectedLen_of_phase hphase]
        exact hempty
      refine ⟨hdrop, ?_, ?_⟩
      · have hshorter := @length_packet_turn D S library decoders c hready
        have hlength := List.drop_eq_nil_iff.mp hdrop
        exact List.eq_nil_of_length_eq_zero (by omega)
      · rw [hsame] at hmem
        rcases List.mem_cons.mp hmem with heq' | hmem
        · obtain rfl := Event.startTLS.inj heq'
          exact htunnel
        · exact absurd (hes' _ hmem) (by simp [Event.startsTLS])
  | inside e' hlog hphase' hinside =>
    have hgoes : GoesOnInside c.attrs.log (client ((turn (base library decoders)).run c)) :=
      inside_turn hsound hready hphase' hinside
    obtain ⟨-, es, heq, hes, -⟩ := id hgoes
    exact ⟨hgoes.stands hlog, hsilent es heq hes⟩

/-- What a delivery keeps: it starts no tunnel before the loop. -/
theorem stands_deliver {c : RFBClient D S} (data : Bytes) (h : Stands policy c) :
    Stands policy (client ((deliver (base library decoders) data).run c)) ∧
      ∃ es, (client ((deliver (base library decoders) data).run c)).attrs.log = c.attrs.log ++ es ∧
        Hushed es := by
  have hmeanwhile : Meanwhile c.attrs (extend c data).attrs := ⟨false, rfl⟩
  cases h with
  | initial hlog hpolicy hphase =>
    have hextend : Stands policy (extend c data) := .initial hlog hpolicy hphase
    rw [run_deliver_of_initial _ hphase, run_handleInitial]
    split_ifs
    · rw [run_answerHeader]
      cases negotiate (announced ((extend c data).packet.take 12)) with
      | none => exact ⟨hextend, [], (List.append_nil _).symm, List.forall_mem_nil _⟩
      | some version =>
        -- The reply to the greeting is all a delivery writes.
        have hgreets : Hushed [.wrote .protocolVersion (versionMessage version)] := by
          intro e he
          rw [List.mem_singleton.mp he]
          exact ⟨rfl, rfl⟩
        refine ⟨.nears _ (hlog.append hgreets) hpolicy rfl ?_, _, rfl, hgreets⟩
        split_ifs <;> trivial
    · exact ⟨hextend, [], (List.append_nil _).symm, List.forall_mem_nil _⟩
    · rw [run_abortConnection]
      exact ⟨.initial (hlog.append (hushed_complaint _)) hpolicy hphase, _, rfl, hushed_complaint _⟩
  -- Bytes that come in set `_tls_handshake_pending` back at most.
  | nears e hlog hpolicy hphase hnears =>
    rw [run_deliver_of_expecting _ hphase]
    refine ⟨.nears e hlog hpolicy hphase ?_, [], (List.append_nil _).symm, List.forall_mem_nil _⟩
    cases e with
    | pump task size resume =>
      cases task with
      | security secType => exact fun block t ht => hnears block t (hmeanwhile.trans ht)
      | _ => exact hnears
    | ended task size => cases task <;> exact hnears
    | _ => exact hnears
  | inside e hlog hphase hinside =>
    rw [run_deliver_of_expecting _ hphase]
    refine ⟨.inside e hlog hphase ?_, [], (List.append_nil _).symm, List.forall_mem_nil _⟩
    cases e with
    | pump task size resume =>
      cases task with
      | security secType => exact fun block t ht => hinside block t (hmeanwhile.trans ht)
      | _ => exact hinside
    | ended task size => cases task <;> exact hinside
    | _ => exact hinside

/-- Where a run that settles on VeNCrypt stands. -/
theorem stands_of_reachesBy {factory : Factory} {decoding : D} {own : S} {received : Bytes}
    {d : Delivery D S} (h : ReachesBy SettlesOnVeNCrypt (base library decoders)
      (fresh factory decoding own) received d) :
    Stands (tlsPolicy (fresh factory decoding own).attrs) (client d) := by
  induction h with
  | start => exact .initial (List.forall_mem_nil _) rfl rfl
  | delivered data _ _ _ _ ih => exact (stands_deliver data ih).1
  | dropped data _ _ _ ih => exact ih
  | turned h hready hgood ih =>
    exact (stands_turn (sound_of_reaches h.reaches) hready hgood ih).1

/-- In a run that settles on VeNCrypt no credentials are written before a tunnel is started, and one
is at most. The handler call that starts it has used up all that was received, requested the subtype
it is for, and, unless unverified peers are allowed, has its options check an X509 certificate against
the configured host name. A delivery by itself starts none. -/
theorem credentials_in_tunnel {factory : Factory} {decoding : D} {own : S} {received : Bytes}
    {d : Delivery D S} (h : ReachesBy SettlesOnVeNCrypt (base library decoders)
      (fresh factory decoding own) received d) :
    Secure (client d).attrs.log ∧
    (∀ c, d = .ok () c → ready c = true → SettlesOnVeNCrypt c →
      TunnelsSafely (tlsPolicy (fresh factory decoding own : RFBClient D S).attrs) c
        (client ((turn (base library decoders)).run c))) ∧
    ∀ data, ∃ es, (client ((deliver (base library decoders) data).run (client d))).attrs.log =
      (client d).attrs.log ++ es ∧ ∀ e ∈ es, e.startsTLS = false := by
  have hstands := stands_of_reachesBy h
  refine ⟨hstands.secure, ?_, ?_⟩
  · rintro c rfl hready hgood
    exact (stands_turn (sound_of_reaches h.reaches) hready hgood hstands).2
  · intro data
    obtain ⟨es, hlog, hes⟩ := (@stands_deliver _ _ _ library decoders _ data hstands).2
    exact ⟨es, hlog, fun e he => (hes e he).1⟩

end

/-- A client that has a host name to check a certificate against, and credentials. -/
def namedClient : RFBClient Unit Unit :=
  fresh { tlsHostname := some "host", username := some "u", password := some "p" } () ()

/-- A server that speaks 3.3, dictates VeNCrypt, offers 0.2 of it and X509Plain alone, and agrees to
both. -/
def offersX509Plain : Bytes :=
  versionMessage (3, 3) ++ be32 AuthTypes.vencrypt.value ++ [0, 2] ++ [0] ++ [1] ++
    be32 VeNCryptSubtypes.x509Plain.value ++ [1]

/-- Where that client stands so many turns behind the delivery of these bytes. -/
def towardsTunnel : (turns : ℕ) → Delivery Unit Unit
  | 0 => (deliver (base sampleLibrary fun _ => none) offersX509Plain).run namedClient
  | turns + 1 => (turn (base sampleLibrary fun _ => none)).run (client (towardsTunnel turns))

/-- The loop goes on, and settles on VeNCrypt first and on nothing behind it. -/
theorem towardsTunnel_goesOn : ∀ turns < 6, ∃ c, towardsTunnel turns = .ok () c ∧ ready c = true ∧
    chosenType c = if turns = 0 then some AuthTypes.vencrypt.value else none
  | 0, _ => ⟨_, rfl, by decide +kernel, by decide +kernel⟩
  | 1, _ => ⟨_, rfl, by decide +kernel, by decide +kernel⟩
  | 2, _ => ⟨_, rfl, by decide +kernel, by decide +kernel⟩
  | 3, _ => ⟨_, rfl, by decide +kernel, by decide +kernel⟩
  | 4, _ => ⟨_, rfl, by decide +kernel, by decide +kernel⟩
  | 5, _ => ⟨_, rfl, by decide +kernel, by decide +kernel⟩

theorem reachesBy_towardsTunnel (turns : ℕ) (h : turns ≤ 6) :
    ReachesBy SettlesOnVeNCrypt (base sampleLibrary fun _ => none) namedClient offersX509Plain
      (towardsTunnel turns) := by
  induction turns with
  | zero =>
    refine .delivered offersX509Plain .start rfl rfl ?_
    intro secType hready _
    exact absurd hready (by decide)
  | succ turns ih =>
    obtain ⟨c, hstands, hready, hchosen⟩ := towardsTunnel_goesOn turns (by omega)
    have hreach := ih (by omega)
    rw [hstands] at hreach
    unfold towardsTunnel
    rw [hstands]
    refine .turned hreach hready ?_
    intro secType _ hsettles
    have hsettled := hchosen.symm.trans hsettles
    split_ifs at hsettled
    exact (Option.some.inj hsettled).symm

/-- Six turns on, the tunnel is open, it checks the certificate against the host name, and the
credentials are inside. -/
theorem credentials_in_tunnel_sample :
    ∃ c, towardsTunnel 5 = .ok () c ∧
      ReachesBy SettlesOnVeNCrypt (base sampleLibrary fun _ => none) namedClient offersX509Plain
        (towardsTunnel 6) ∧
      (client (towardsTunnel 6)).attrs.log = c.attrs.log ++
        [.startTLS (.verified "host" none), .wrote .plainCredentials [0, 0, 0, 1, 0, 0, 0, 1],
          .wrote .plainCredentials [117, 112]] ∧
      Secure (client (towardsTunnel 6)).attrs.log ∧
      TunnelsSafely (tlsPolicy namedClient.attrs) c (client (towardsTunnel 6)) := by
  obtain ⟨c, hstands, hready, hchosen⟩ := towardsTunnel_goesOn 5 (by decide)
  have hreach := reachesBy_towardsTunnel 6 le_rfl
  have hclient : c = client (towardsTunnel 5) := by rw [hstands]; rfl
  have hlog : (client (towardsTunnel 6)).attrs.log = c.attrs.log ++
      [.startTLS (.verified "host" none), .wrote .plainCredentials [0, 0, 0, 1, 0, 0, 0, 1],
        .wrote .plainCredentials [117, 112]] := by
    rw [hclient]
    decide +kernel
  have hturn : towardsTunnel 6 = (turn (base sampleLibrary fun _ => none)).run c := by
    rw [hclient]
    rfl
  -- The type was settled on before: this turn chooses none.
  have hsettles : SettlesOnVeNCrypt c := by
    intro secType _ hsettled
    exact absurd (hchosen.symm.trans hsettled) (Option.some_ne_none secType).symm
  refine ⟨c, hstands, hreach, hlog, (credentials_in_tunnel hreach).1, ?_⟩
  rw [hturn]
  exact (credentials_in_tunnel (reachesBy_towardsTunnel 5 (by decide))).2.1 c hstands hready hsettles

end RFBClient

end VncDoTool
