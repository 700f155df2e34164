import VncDoTool.Lib.Contract
import VncDoTool.Client.Run

/-!
# What a handler does

The contract between the pump and the handlers of `security/` and `messages/`, for a client with the
callbacks of `RFBClient` itself.

* `RFBClient.handling`: a handler shows only what belongs to its task, leaves the rest of the client
  alone, and asks for no more bytes than a message may hold.
* `RFBClient.honours_securityHandler`: every handler keeps it.
* `RFBClient.honours_noneHandler`, `RFBClient.honours_vncAuthenticationHandler`: what these two can
  raise.
* `RFBClient.honours_messageHandler`: every message handler keeps it, too.
-/

namespace VncDoTool

namespace RFBClient

open Coroutine (Contract)

variable {D S : Type}

/-- What the last part of a security exchange shows: the answers to a challenge or a request for
credentials, and what follows the SecurityResult. -/
def Event.answers : Event → Bool
  | .wrote .challengeResponse _ | .wrote .plainCredentials _ => true
  | .called .vncRequestPassword | .called (.vncAuthFailed _) => true
  | .loseConnection => true
  | _ => false

/-- What VeNCrypt shows before its tunnel. -/
def Event.requests : Event → Bool
  | .wrote .vencryptVersion _ | .wrote .vencryptSubtype _ => true
  | _ => false

/-- What a security handler shows the outside world. -/
def Event.negotiates : Event → Bool
  | .wrote .vencryptVersion _ | .wrote .vencryptSubtype _ | .wrote .challengeResponse _
  | .wrote .ardCredentials _ | .wrote .plainCredentials _ => true
  | .called .vncRequestPassword | .called (.vncAuthFailed _) => true
  | .loseConnection | .startTLS _ => true
  | _ => false

/-- What the handler of a server message shows the outside world. -/
def Event.converses : Event → Bool
  | .wrote .message _ => true
  | .called (.setColorMap ..) | .called .bell | .called (.copyText _) => true
  | _ => false

/-- `a'` is `a` after a handler has run for a while, and shown only what `P` says. -/
def Handles (P : Event → Bool) (a a' : Attrs D S) : Prop :=
  ∃ username password subtype pending challenge es,
    a' = { a with
      factory := { a.factory with username := username, password := password }
      vencryptSubtype := subtype
      tlsHandshakePending := pending
      challenge := challenge
      log := a.log ++ es } ∧ ∀ e ∈ es, P e = true

namespace Handles

variable {P : Event → Bool}

theorem refl (a : Attrs D S) : Handles P a a :=
  ⟨_, _, _, _, _, [], by rw [List.append_nil], by simp⟩

theorem trans {a a' a'' : Attrs D S} (h : Handles P a a') (h' : Handles P a' a'') :
    Handles P a a'' := by
  obtain ⟨u, p, s, b, c, es, rfl, hes⟩ := h
  obtain ⟨u', p', s', b', c', es', rfl, hes'⟩ := h'
  refine ⟨u', p', s', b', c', es ++ es', by simp only [List.append_assoc], ?_⟩
  intro e he
  rcases List.mem_append.mp he with he | he
  · exact hes e he
  · exact hes' e he

/-- What shows less shows no more than `P'` says. -/
theorem mono {P' : Event → Bool} (hP : ∀ e, P e = true → P' e = true) {a a' : Attrs D S}
    (h : Handles P a a') : Handles P' a a' := by
  obtain ⟨u, p, s, b, c, es, rfl, hes⟩ := h
  exact ⟨u, p, s, b, c, es, rfl, fun e he => hP e (hes e he)⟩

/-- One thing shown to the outside world. -/
theorem emit (a : Attrs D S) {e : Event} (h : P e = true) :
    Handles P a { a with log := a.log ++ [e] } :=
  ⟨_, _, _, _, _, [e], rfl, by simpa using h⟩

end Handles

/-- What can happen to the attributes while a generator is suspended: a delivery clears the pending
flag of the TLS handshake. -/
def Meanwhile (a t : Attrs D S) : Prop := ∃ pending, t = { a with tlsHandshakePending := pending }

theorem Meanwhile.refl (a : Attrs D S) : Meanwhile a a := ⟨_, rfl⟩

theorem Meanwhile.trans {a t u : Attrs D S} (h : Meanwhile a t) (h' : Meanwhile t u) :
    Meanwhile a u := by
  obtain ⟨b, rfl⟩ := h
  obtain ⟨b', rfl⟩ := h'
  exact ⟨b', rfl⟩

/-- A request within the bound on message payloads. -/
def Request.Bounded : Request → Prop
  | .bytes n => 0 ≤ n ∧ n ≤ maxMessagePayload
  | .packet => True

/-- The contract of a handler that shows what `P` says and raises what `raises` says. -/
def handling (P : Event → Bool) (raises : PyErr → Prop) : Contract Request PyErr (Attrs D S) where
  meanwhile := Meanwhile
  does := Handles P
  asks := Request.Bounded
  raises := raises
  refl := Handles.refl
  trans := Handles.trans

/-- The contract of the last part of a security handler. -/
abbrev answering (raises : PyErr → Prop) : Contract Request PyErr (Attrs D S) :=
  handling Event.answers raises

/-- The contract of VeNCrypt before its tunnel. -/
abbrev requesting (raises : PyErr → Prop) : Contract Request PyErr (Attrs D S) :=
  handling Event.requests raises

/-- The contract of a security handler. -/
abbrev negotiation (raises : PyErr → Prop) : Contract Request PyErr (Attrs D S) :=
  handling Event.negotiates raises

/-- The contract of a message handler: a payload over the bound is all it raises on. -/
abbrev conversation : Contract Request PyErr (Attrs D S) :=
  handling Event.converses fun e => e.cls = .decodeError

theorem negotiates_of_answers {e : Event} (h : e.answers = true) : e.negotiates = true := by
  cases e with
  | wrote what data => cases what <;> first | rfl | exact absurd h (by simp [Event.answers])
  | called callback => cases callback <;> first | rfl | exact absurd h (by simp [Event.answers])
  | loseConnection => rfl
  | startTLS options => rfl

/-- The last part of a security handler is part of it. -/
theorem negotiation_of_answering {α : Type} {raises : PyErr → Prop} {Q : Attrs D S → α → Prop}
    {a : Attrs D S} {x : GenStep D S α} (h : x.Honours (answering raises) Q a) :
    x.Honours (negotiation raises) Q a :=
  h.of_stronger (fun _ _ ht => ht) (fun _ _ => Handles.mono fun _ => negotiates_of_answers)
    (fun _ hy => hy) (fun _ he => he)

theorem negotiates_of_requests {e : Event} (h : e.requests = true) : e.negotiates = true := by
  cases e with
  | wrote what data => cases what <;> first | rfl | exact absurd h (by simp [Event.requests])
  | _ => exact absurd h (by simp [Event.requests])

/-- What VeNCrypt does before its tunnel is part of it. -/
theorem negotiation_of_requesting {α : Type} {raises : PyErr → Prop} {Q : Attrs D S → α → Prop}
    {a : Attrs D S} {x : GenStep D S α} (h : x.Honours (requesting raises) Q a) :
    x.Honours (negotiation raises) Q a :=
  h.of_stronger (fun _ _ ht => ht) (fun _ _ => Handles.mono fun _ => negotiates_of_requests)
    (fun _ hy => hy) (fun _ he => he)

section

variable {P : Event → Bool} {raises : PyErr → Prop} {α : Type} {Q : Attrs D S → α → Prop} {a : Attrs D S}

/-- Reading a block within the bound. -/
theorem honours_read {n : ℕ} {Q : Attrs D S → Block n → Prop} (hn : n ≤ maxMessagePayload)
    (hQ : ∀ block t, Meanwhile a t → Q t block) :
    ((Gen.read n).run a).Honours (handling P raises) Q a :=
  Coroutine.honours_yield ⟨Int.natCast_nonneg n, Int.ofNat_le.mpr hn⟩ hQ

/-- Raising. -/
theorem honours_raise {cls : ErrorClass} {message : String} (h : raises ⟨cls, message⟩) :
    ((Gen.raise cls message : Gen D S α).run a).Honours (handling P raises) Q a :=
  Coroutine.honours_throw h

/-- Straight-line code that returns. -/
theorem honours_lift {m : Py (Attrs D S) α} {a' : Attrs D S} {v : α} (hrun : m.run a = .ok v a')
    (hdoes : Handles P a a') (hQ : Q a' v) :
    ((Gen.lift m).run a).Honours (handling P raises) Q a := by
  rw [Gen.run_lift, hrun]
  exact ⟨hdoes, hQ⟩

/-- Straight-line code that shows the outside world one thing. -/
theorem honours_emit {m : Py (Attrs D S) Unit} {e : Event} {Q : Attrs D S → Unit → Prop}
    (hrun : m.run a = .ok () { a with log := a.log ++ [e] }) (he : P e = true)
    (hQ : Q { a with log := a.log ++ [e] } ()) :
    ((Gen.lift m).run a).Honours (handling P raises) Q a :=
  honours_lift hrun (Handles.emit a he) hQ

/-- Straight-line code that raises. -/
theorem honours_lift_error {m : Py (Attrs D S) α} {a' : Attrs D S} {e : PyErr}
    (hrun : m.run a = .error e a') (hdoes : Handles P a a') (he : raises e) :
    ((Gen.lift m).run a).Honours (handling P raises) Q a := by
  rw [Gen.run_lift, hrun]
  exact ⟨hdoes, he⟩

/-- The check of a declared length; behind it the length is within the bound. -/
theorem honours_requirePayload {length : ℕ} {Q : Attrs D S → Unit → Prop}
    (hraises : raises ⟨.decodeError, payloadMessage length⟩)
    (hQ : length ≤ maxMessagePayload → Q a ()) :
    ((requirePayload length).run a).Honours (handling P raises) Q a := by
  unfold requirePayload
  split_ifs with h
  · exact honours_raise hraises
  · exact Coroutine.honours_pure (hQ (Nat.not_lt.mp h))

end

variable {library : Library}
  {decoders : ℤ → Option (Decoder (D := D) (S := S) (baseCallback library))}
  {raises : PyErr → Prop} {a : Attrs D S}

/-- A handler that has nothing left to promise about its result. -/
abbrev anything {α : Type} : Attrs D S → α → Prop := fun _ _ => True

/-- Reporting a failure. -/
theorem honours_reportFailure (reason : String)
    (hraises : ∀ length, raises ⟨.decodeError, payloadMessage length⟩) :
    ((reportFailure (base library decoders) reason).run a).Honours (answering raises) anything a := by
  unfold reportFailure
  refine Coroutine.honours_get_bind ?_
  split_ifs with hversion
  · -- From 3.8 on: the length, its check, and the reason.
    refine Coroutine.honours_bind (honours_read (by decide) fun _ _ _ => trivial) ?_
    intro waitfor a _
    refine Coroutine.honours_bind
      (Q := fun _ _ => u32At waitfor.bytes 0 ≤ maxMessagePayload)
      (honours_requirePayload (hraises _) id) ?_
    intro _ a hwaitfor
    refine Coroutine.honours_bind (honours_read hwaitfor fun _ _ _ => trivial) ?_
    intro reason a _
    exact honours_emit (run_call_base (by simp) a) rfl trivial
  · exact honours_emit (run_call_base (by simp) a) rfl trivial

/-- Refusing: whatever follows a refusal never proceeds. -/
theorem honours_refuse (reason : String)
    (hraises : ∀ length, raises ⟨.decodeError, payloadMessage length⟩) :
    ((refuse (base library decoders) reason).run a).Honours (answering raises)
      (fun _ proceed => proceed = false) a := by
  unfold refuse
  refine Coroutine.honours_bind (honours_reportFailure reason hraises) ?_
  intro _ a _
  refine Coroutine.honours_bind (honours_emit (run_loseConnection a) rfl (Q := anything) trivial) ?_
  intro _ a _
  exact Coroutine.honours_pure rfl

/-- What follows the length of the reason for a failure, from 3.8 on. -/
def readReason (env : Env D S) (waitfor : ℕ) : Gen D S Bool := do
  requirePayload waitfor
  let reason ← Gen.read waitfor
  Gen.lift (env.call (.vncAuthFailed (.bytes reason.bytes)))
  Gen.lift Attrs.loseConnection
  pure false

/-- From 3.8 on a refusal waits for the length of the reason. -/
theorem run_refuse_of_le {env : Env D S} {a : Attrs D S} (h : Ver.le (3, 8) a.version)
    (reason : String) :
    (refuse env reason).run a =
      .yielded a (.bytes 4) fun block t => (readReason env (u32At block.bytes 0)).run t := by
  unfold refuse reportFailure
  simp only [Coroutine.run_bind, Coroutine.run_get, Coroutine.Step.bind_done, h, not_true_eq_false,
    if_false, Gen.run_read, Coroutine.Step.bind_yielded, Coroutine.Step.bind_assoc]
  rfl

/-- A reason over the bound raises. -/
theorem run_readReason_of_gt {env : Env D S} {waitfor : ℕ} (h : maxMessagePayload < waitfor)
    (a : Attrs D S) :
    (readReason env waitfor).run a = .failed a ⟨.decodeError, payloadMessage waitfor⟩ := by
  have hraise : requirePayload (D := D) (S := S) waitfor =
      Gen.raise .decodeError (payloadMessage waitfor) := if_pos h
  unfold readReason
  rw [Coroutine.run_bind, hraise]
  rfl

/-- What follows a SecurityResult proceeds only if the result is 0. -/
theorem honours_judge (result : ℕ)
    (hraises : ∀ length, raises ⟨.decodeError, payloadMessage length⟩) :
    ((judge (base library decoders) result).run a).Honours (answering raises)
      (fun _ proceed => proceed = true → result = 0) a := by
  have refused : ∀ (a : Attrs D S) (proceed : Bool),
      proceed = false → proceed = true → result = 0 := by
    intro _ proceed hf ht
    rw [hf] at ht
    exact absurd ht (by simp)
  unfold judge
  split_ifs with h0 h1 h2
  · exact Coroutine.honours_pure fun _ => h0
  · exact (honours_refuse _ hraises).weaken refused
  · exact (honours_refuse _ hraises).weaken refused
  · refine Coroutine.honours_bind (honours_emit (run_loseConnection a) rfl (Q := anything) trivial) ?_
    intro _ a _
    exact Coroutine.honours_pure (refused a false rfl)

/-- The SecurityResult exchange. -/
theorem honours_securityResult (hraises : ∀ length, raises ⟨.decodeError, payloadMessage length⟩) :
    ((securityResult (base library decoders)).run a).Honours (answering raises) anything a := by
  unfold securityResult
  refine Coroutine.honours_bind (honours_read (by decide) fun _ _ _ => trivial) ?_
  intro block a _
  exact (honours_judge _ hraises).weaken fun _ _ _ => trivial

/-- Security type None. -/
theorem honours_noneHandler (hraises : ∀ length, raises ⟨.decodeError, payloadMessage length⟩) :
    ((noneHandler (base library decoders)).run a).Honours (answering raises) anything a := by
  unfold noneHandler
  refine Coroutine.honours_get_bind ?_
  split_ifs with hversion
  · exact honours_securityResult hraises
  · exact Coroutine.honours_pure trivial

/-- A password that is given is answered with, or raises as its encoding does. -/
theorem run_vncRequestPassword (a : Attrs D S) :
    (∃ e, e.answers = true ∧
      (vncRequestPassword library).run a = .ok () { a with log := a.log ++ [e] }) ∨
    ∃ password e, a.factory.password = some password ∧ vncDes password = .error e ∧
      (vncRequestPassword library).run a = .error e a := by
  unfold vncRequestPassword
  cases hp : a.factory.password with
  | none => exact .inl ⟨.loseConnection, rfl, by simp [hp]⟩
  | some password =>
    cases hkey : vncDes password with
    | ok key =>
      exact .inl ⟨.wrote .challengeResponse (desEncrypt library key a.challenge), rfl,
        by simp [hp, sendPassword, ofExcept, hkey]⟩
    | error e =>
      refine .inr ⟨password, e, rfl, hkey, ?_⟩
      simp only [EStateM.run_bind, EStateM.run_get, hp, sendPassword, ofExcept, hkey]
      rfl

/-- The challenge and the password that answers it. -/
theorem honours_readChallenge
    (hpassword : ∀ password e, a.factory.password = some password → vncDes password = .error e →
      raises e) :
    ((readChallenge (base library decoders)).run a).Honours (answering raises) anything a := by
  unfold readChallenge
  refine Coroutine.honours_bind
    (honours_read (by decide) fun _ t (ht : Meanwhile a t) => ht) ?_
  intro challenge t ht
  obtain ⟨pending, rfl⟩ := ht
  refine Coroutine.honours_bind (Q := fun b _ => b.factory = a.factory)
    (Coroutine.honours_modify ?_ rfl) ?_
  · exact ⟨_, _, _, _, challenge.bytes, [], by rw [List.append_nil], by simp⟩
  intro _ b hb
  have hcalled : Handles Event.answers b _ := Handles.emit b (e := .called .vncRequestPassword) rfl
  rcases @run_vncRequestPassword _ _ library
    { b with log := b.log ++ [.called .vncRequestPassword] } with ⟨e, he, hrun⟩ | ⟨p, e, hp, hkey, hrun⟩
  · exact honours_lift (v := ()) hrun (hcalled.trans (Handles.emit _ he)) trivial
  · exact honours_lift_error hrun hcalled (hpassword p e (hb ▸ hp) hkey)

/-- VNC Authentication. -/
theorem honours_vncAuthenticationHandler
    (hraises : ∀ length, raises ⟨.decodeError, payloadMessage length⟩)
    (hpassword : ∀ password e, a.factory.password = some password → vncDes password = .error e →
      raises e) :
    ((vncAuthenticationHandler (base library decoders)).run a).Honours (answering raises)
      anything a := by
  unfold vncAuthenticationHandler
  refine Coroutine.honours_bind (honours_readChallenge hpassword) ?_
  intro _ a _
  exact honours_securityResult hraises

/-! ## Diffie-Hellman and VeNCrypt, which may raise anything -/

/-- A handler that may raise anything. -/
abbrev mayRaise : PyErr → Prop := fun _ => True

/-- The value of a call that may raise. -/
theorem honours_ofExcept {α : Type} (v : Except PyErr α) :
    ((Gen.lift (ofExcept v) : Gen D S α).run a).Honours (negotiation mayRaise) anything a := by
  cases v with
  | ok v => exact honours_lift rfl (Handles.refl a) trivial
  | error e => exact honours_lift_error rfl (Handles.refl a) trivial

theorem honours_diffieHellmanHandler :
    ((diffieHellmanHandler (base library decoders)).run a).Honours (negotiation mayRaise)
      anything a := by
  unfold diffieHellmanHandler
  refine Coroutine.honours_bind (honours_read (by decide) fun _ _ _ => trivial) ?_
  intro header a _
  have hlen : u16At header.bytes 2 ≤ maxMessagePayload :=
    Nat.le_trans (Nat.le_of_lt (u16At_lt _ _)) (by decide)
  refine Coroutine.honours_bind (honours_read hlen fun _ _ _ => trivial) ?_
  intro modulus a _
  refine Coroutine.honours_bind (honours_read hlen fun _ _ _ => trivial) ?_
  intro serverKey a _
  refine Coroutine.honours_bind (honours_lift (Q := anything) rfl ?_ trivial) ?_
  · exact ⟨_, _, _, _, _, [], by rw [List.append_nil], by simp⟩
  intro _ a _
  refine Coroutine.honours_get_bind ?_
  refine Coroutine.honours_bind (Q := anything) ?_ ?_
  · exact honours_ofExcept _
  intro response a _
  refine Coroutine.honours_bind (honours_emit (Q := anything) (run_write _ _ a) rfl trivial) ?_
  intro _ a _
  exact negotiation_of_answering (honours_securityResult fun _ => trivial)

theorem honours_agreeOnVersion :
    ((agreeOnVersion : Gen D S Unit).run a).Honours (requesting mayRaise) anything a := by
  unfold agreeOnVersion
  refine Coroutine.honours_bind (honours_read (by decide) fun _ _ _ => trivial) ?_
  intro offer a _
  dsimp only
  split_ifs with hversion
  · refine Coroutine.honours_bind (honours_emit (Q := anything) (run_write _ _ a) rfl trivial) ?_
    intro _ a _
    refine Coroutine.honours_bind (honours_read (by decide) fun _ _ _ => trivial) ?_
    intro ack a _
    split_ifs with hack
    · exact honours_raise trivial
    · exact Coroutine.honours_pure trivial
  · exact honours_raise trivial

/-- The subtype that was requested: it was chosen under the policy of the client. -/
def Requested (a : Attrs D S) (chosen : VeNCryptSubtypes) : Prop :=
  a.vencryptSubtype = chosen ∧ .wrote .vencryptSubtype (be32 chosen.value) ∈ a.log ∧
    ∃ offered credentials, VeNCrypt.choose offered (tlsPolicy a) credentials = some chosen

theorem honours_requestSubtype :
    ((requestSubtype : Gen D S VeNCryptSubtypes).run a).Honours (requesting mayRaise) Requested a := by
  unfold requestSubtype
  refine Coroutine.honours_bind (honours_read (by decide) fun _ _ _ => trivial) ?_
  intro count a _
  dsimp only
  split_ifs with hcount
  · exact honours_raise trivial
  · have hlen : 4 * byteAt count.bytes 0 ≤ maxMessagePayload := by
      have hbyte := byteAt_lt count.bytes 0
      unfold maxMessagePayload
      omega
    refine Coroutine.honours_bind (honours_read hlen fun _ _ _ => trivial) ?_
    intro block a _
    refine Coroutine.honours_get_bind ?_
    split
    · exact honours_raise trivial
    next chosen hchoose =>
      have hrequested : ∀ log, .wrote .vencryptSubtype (be32 chosen.value) ∈ log →
          Requested { a with vencryptSubtype := chosen, log := log } chosen :=
        fun _ hlog => ⟨rfl, hlog, _, _, hchoose⟩
      refine Coroutine.honours_bind (Q := fun b _ => ∃ log, b = { a with
        vencryptSubtype := chosen, log := log }) (Coroutine.honours_modify ?_ ⟨a.log, rfl⟩) ?_
      · exact ⟨_, _, chosen, _, _, [], by rw [List.append_nil], by simp⟩
      rintro _ b ⟨log, rfl⟩
      refine Coroutine.honours_bind (honours_emit (Q := fun b _ => Requested b chosen)
        (run_write _ _ _) rfl (hrequested _ (by simp))) ?_
      intro _ b hb
      exact Coroutine.honours_pure hb

theorem honours_startTunnel (chosen : VeNCryptSubtypes) :
    ((startTunnel (base library decoders) chosen).run a).Honours (negotiation mayRaise)
      anything a := by
  unfold startTunnel
  refine Coroutine.honours_bind (honours_read (by decide) fun _ _ _ => trivial) ?_
  intro ack a _
  split_ifs with hack
  · exact honours_raise trivial
  refine Coroutine.honours_bind (Q := anything)
    (Coroutine.honours_yield trivial fun _ _ _ => trivial) ?_
  intro waiting a _
  split_ifs with hwaiting
  · exact honours_raise trivial
  refine Coroutine.honours_get_bind ?_
  split
  · exact honours_raise trivial
  refine Coroutine.honours_bind (Q := anything) (Coroutine.honours_modify ?_ trivial) ?_
  · exact ⟨_, _, _, true, _, [], by rw [List.append_nil], by simp⟩
  intro _ a _
  exact honours_emit (run_emit _ a) rfl trivial

theorem negotiates_sendPlain (a : Attrs D S) :
    ∃ a', sendPlain.run a = .ok () a' ∧ Handles Event.negotiates a a' := by
  refine ⟨_, rfl, ?_⟩
  exact (Handles.emit a rfl).trans (Handles.emit _ rfl)

theorem honours_vencryptHandler :
    ((vencryptHandler (base library decoders)).run a).Honours (negotiation mayRaise) anything a := by
  unfold vencryptHandler
  refine Coroutine.honours_bind (negotiation_of_requesting honours_agreeOnVersion) ?_
  intro _ a _
  refine Coroutine.honours_bind (negotiation_of_requesting honours_requestSubtype) ?_
  intro chosen a _
  refine Coroutine.honours_bind (honours_startTunnel chosen) ?_
  intro _ a _
  refine Coroutine.honours_bind (Q := anything) ?_ ?_
  · unfold authenticateInside
    split_ifs with hvnc hplain
    · exact negotiation_of_answering (honours_readChallenge fun _ _ _ _ => trivial)
    · obtain ⟨a', hrun, hneg⟩ := negotiates_sendPlain a
      exact honours_lift hrun hneg trivial
    · exact Coroutine.honours_pure trivial
  intro _ a _
  exact negotiation_of_answering (honours_securityResult fun _ => trivial)

/-- Every security handler keeps the contract. -/
theorem honours_securityHandler {secType : ℕ} {handler : Gen D S Bool}
    (h : securityHandler (base library decoders) secType = some handler) (a : Attrs D S) :
    (handler.run a).Honours (negotiation mayRaise) anything a := by
  unfold securityHandler at h
  split_ifs at h
  all_goals
    obtain rfl := Option.some.inj h
  · exact negotiation_of_answering (honours_noneHandler fun _ => trivial)
  · exact negotiation_of_answering
      (honours_vncAuthenticationHandler (fun _ => trivial) fun _ _ _ _ => trivial)
  · exact honours_vencryptHandler
  · exact honours_diffieHellmanHandler

/-! ## Server messages -/

/-- The answer to a fence always fits its fields. -/
theorem clientFence_knownFlags (flags : ℕ) {payload : Bytes} (hpayload : payload.length < 256) :
    clientFence (flags &&& knownFlags : ℕ) payload =
      .ok ([UInt8.ofNat MsgC2S.clientFence.value, 0, 0, 0] ++ be32 (flags &&& knownFlags) ++
        [UInt8.ofNat payload.length] ++ payload) := by
  have hflags : flags &&& knownFlags < 2 ^ 32 :=
    Nat.lt_of_le_of_lt Nat.and_le_right (by decide : knownFlags < 2 ^ 32)
  unfold clientFence
  rw [pack32_natCast hflags, pack8_natCast hpayload]
  rfl

/-- A fence is answered at most once. -/
theorem honours_answerFence (flags : ℕ) {payload : Bytes} (hpayload : payload.length < 256) :
    ((Gen.lift (answerFence flags payload) : Gen D S Unit).run a).Honours conversation anything a := by
  unfold answerFence
  by_cases hrequest : flags &&& FenceFlags.request ≠ 0
  · rw [if_pos hrequest, clientFence_knownFlags flags hpayload]
    exact honours_emit rfl rfl trivial
  · rw [if_neg hrequest]
    exact honours_lift rfl (Handles.refl a) trivial

theorem honours_serverFenceHandler :
    ((serverFenceHandler : Gen D S Unit).run a).Honours conversation anything a := by
  unfold serverFenceHandler
  refine Coroutine.honours_bind (honours_read (by decide) fun _ _ _ => trivial) ?_
  intro header a _
  have hlen := byteAt_lt header.bytes 7
  dsimp only
  split_ifs with hempty
  · exact honours_answerFence _ (by decide)
  · refine Coroutine.honours_bind
      (honours_read (Nat.le_trans (Nat.le_of_lt hlen) (by decide)) fun _ _ _ => trivial) ?_
    intro payload a _
    exact honours_answerFence _ (by rw [Block.length_bytes]; exact hlen)

theorem honours_setColourMapEntriesHandler :
    ((setColourMapEntriesHandler (base library decoders)).run a).Honours conversation anything a := by
  unfold setColourMapEntriesHandler
  refine Coroutine.honours_bind (honours_read (by decide) fun _ _ _ => trivial) ?_
  intro header a _
  refine Coroutine.honours_bind
    (Q := fun _ _ => 6 * u16At header.bytes 3 ≤ maxMessagePayload)
    (honours_requirePayload rfl id) ?_
  intro _ a hpayload
  refine Coroutine.honours_bind (honours_read hpayload fun _ _ _ => trivial) ?_
  intro block a _
  exact honours_emit (run_call_base (by simp) a) rfl trivial

theorem honours_serverCutTextHandler :
    ((serverCutTextHandler (base library decoders)).run a).Honours conversation anything a := by
  unfold serverCutTextHandler
  refine Coroutine.honours_bind (honours_read (by decide) fun _ _ _ => trivial) ?_
  intro header a _
  refine Coroutine.honours_bind (Q := fun _ _ => u32At header.bytes 3 ≤ maxMessagePayload)
    (honours_requirePayload rfl id) ?_
  intro _ a hpayload
  refine Coroutine.honours_bind (honours_read hpayload fun _ _ _ => trivial) ?_
  intro text a _
  exact honours_emit (run_call_base (by simp) a) rfl trivial

/-- Every message handler keeps the contract. -/
theorem honours_messageHandler {msgid : ℕ} {handler : Gen D S Unit}
    (h : messageHandler (base library decoders) msgid = some handler) (a : Attrs D S) :
    (handler.run a).Honours conversation anything a := by
  unfold messageHandler at h
  split_ifs at h
  all_goals
    obtain rfl := Option.some.inj h
  · exact honours_setColourMapEntriesHandler
  · exact honours_emit (run_call_base (by simp) a) rfl trivial
  · exact honours_serverCutTextHandler
  · exact honours_serverFenceHandler

end RFBClient

end VncDoTool
