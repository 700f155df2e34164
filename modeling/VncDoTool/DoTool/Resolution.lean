import VncDoTool.DoTool.Silence
import VncDoTool.Client.Connected

/-!
# Firing the connection's Deferred

`VNCDoToolFactory` hands out one Deferred for a connection. Where a report finds it fired already,
Twisted raises, and an abort that reports first never gets to close the connection.

* `VNCDoToolClient.ResolvedOnce`: the Deferred was fired at most once, and an abort has closed the
  connection.
* `VNCDoToolClient.Reports`: what makes the client report.
* `VNCDoToolClient.Spares`: nothing that reports comes behind the handshake, or behind a challenge that
  there was no password for.
* `VNCDoToolClient.Fired`: where a client stands once the Deferred is fired.
* `VNCDoToolClient.goes_turn`, `VNCDoToolClient.goes_deliver`: what a handler call and a delivery
  come to; `VNCDoToolClient.resolved_once`: a run.
-/

namespace VncDoTool

namespace VNCDoToolClient

open RFBClient

variable {codecs : Codecs} {application : Application codecs} {library : Library}
  {imaging : Imaging}

/-! ## What is claimed, and when it holds -/

/-- The calls on the factory's Deferred so far. -/
def resolutions (c : RFBClient (Decoding codecs) Fields) : List Resolution := c.attrs.own.resolutions

/-- The Deferred was fired at most once, and an abort has closed the connection. -/
structure ResolvedOnce (c : RFBClient (Decoding codecs) Fields) : Prop where
  once : (resolutions c).length ≤ 1
  closes : c.aborted = true → c.attrs.log.getLast? = some .loseConnection

/-- What a step of the pump makes an abort of: the generator raises what the pump catches, hands over
the wrong number of pixels, or asks for fewer than no bytes. -/
inductive Breaks : (task : Task) → Pause (Decoding codecs) Fields task.Result → Prop
  | failed {task : Task} {a : State codecs} {e : PyErr} (h : task.catches e.cls = true) :
      Breaks task (.failed a e)
  | paste {rect : Rect} {a : State codecs} {changed : Bool} {pixels : Bytes} {pixelFormat : PixelFormat}
      (h : pixels.length ≠ rect.width * rect.height * pixelFormat.bypp) :
      Breaks (.rectangle rect) (.done a ⟨changed, some (pixels, pixelFormat)⟩)
  | wants {task : Task} {a : State codecs} {size : ℤ}
      {resume : Block size.toNat → State codecs → GenStep (Decoding codecs) Fields task.Result}
      (h : size < 0) : Breaks task (.wants a size resume)

/-- The generator that the next handler call resumes or starts. -/
inductive Resumes (env : Env (Decoding codecs) Fields) (c : RFBClient (Decoding codecs) Fields) :
    (task : Task) → (taken : ℕ) → GenStep (Decoding codecs) Fields task.Result → Prop
  | pump {task : Task} {size : ℤ}
      {resume : Block size.toNat → State codecs → GenStep (Decoding codecs) Fields task.Result}
      (hphase : c.phase = .expecting (.pump task size resume)) (hlen : size.toNat ≤ c.packet.length) :
      Resumes env c task size.toNat (resume (Block.ofPrefix size.toNat c.packet hlen) c.attrs)
  | rectangle {decoder : Decoder env.callback} (hphase : c.phase = .expecting .rectangle)
      (hlen : 12 ≤ c.packet.length)
      (hremaining : remaining (Block.ofPrefix 12 c.packet hlen) c.attrs.rectangles ≠ 0)
      (hdecoder : env.decoders (i32At (c.packet.take 12) 8) = some decoder) :
      Resumes env c (.rectangle (announcedRect (Block.ofPrefix 12 c.packet hlen))) 12
        ((decoder.decode (announcedRect (Block.ofPrefix 12 c.packet hlen)) c.attrs.pixelFormat).run
          { c.attrs with
            rectangles := remaining (Block.ofPrefix 12 c.packet hlen) c.attrs.rectangles - 1 })

/-- What makes the client report to the factory. -/
inductive Reports (env : Env (Decoding codecs) Fields) (c : RFBClient (Decoding codecs) Fields) : Prop
  /-- What is buffered cannot become a version header. -/
  | header (hphase : c.phase = .initial) (h : ¬normalise (c.packet.take 12) <+: header)
  /-- The server dictates a security type that is not supported. -/
  | auth (hphase : c.phase = .expecting .auth) (hready : ready c = true)
      (hvalid : u32At (c.packet.take 4) 0 ≠ AuthTypes.invalid.value)
      (h : u32At (c.packet.take 4) 0 ∉ supportedAuths)
  /-- It offers none that is. -/
  | securityTypes {count : ℕ} (hphase : c.phase = .expecting (.securityTypes count))
      (hready : ready c = true)
      (h : (((c.packet.take count).map UInt8.toNat).filter (· ∈ supportedAuths)).max? = none)
  /-- It refuses the connection, with a reason over the bound. -/
  | connFailed (hphase : c.phase = .expecting .connFailed) (hready : ready c = true)
      (h : maxMessagePayload < u32At (c.packet.take 4) 0)
  /-- It refuses the connection. -/
  | connMessage {waitfor : ℕ} (hphase : c.phase = .expecting (.connMessage waitfor))
      (hready : ready c = true)
  /-- It asks for a password, and there is none. -/
  | challenge {secType : ℕ} (hphase : c.phase = .expecting (awaitingChallenge env secType))
      (hready : ready c = true) (h : c.attrs.factory.password = none)
  /-- The authentication failed, under a version without a reason for it. -/
  | result {secType : ℕ} (hphase : c.phase = .expecting (awaitingResult env secType))
      (hready : ready c = true) (hversion : ¬Ver.le (3, 8) c.attrs.version)
      (h : u32At (c.packet.take 4) 0 = 1 ∨ u32At (c.packet.take 4) 0 = 2)
  /-- The reason for which it failed is there. -/
  | reason {secType waitfor : ℕ} (hphase : c.phase = .expecting (awaitingReason env secType waitfor))
      (hready : ready c = true)
  /-- The handshake is complete. -/
  | serverName {namelen : ℕ} (hphase : c.phase = .expecting (.serverName namelen))
      (hready : ready c = true)
  /-- A message the client does not implement. -/
  | message (hphase : c.phase = .expecting .connection) (hready : ready c = true)
      (hupdate : byteAt (c.packet.take 1) 0 ≠ MsgS2C.framebufferUpdate)
      (h : messageHandler env (byteAt (c.packet.take 1) 0) = none)
  /-- A rectangle in an encoding it cannot decode. -/
  | encoding (hphase : c.phase = .expecting .rectangle) (hready : ready c = true)
      (hlen : 12 ≤ c.packet.length)
      (hremaining : remaining (Block.ofPrefix 12 c.packet hlen) c.attrs.rectangles ≠ 0)
      (h : env.decoders (i32At (c.packet.take 12) 8) = none)
  /-- What the server sent breaks the generator that reads it. -/
  | breaks {task : Task} {taken : ℕ} {x : GenStep (Decoding codecs) Fields task.Result}
      (hready : ready c = true) (hresumes : Resumes env c task taken x)
      (h : Breaks task (drive (!(c.packet.drop taken).isEmpty) x))

/-- The handshake is complete. -/
def InSession (c : RFBClient (Decoding codecs) Fields) : Prop :=
  match c.phase with
  | .expecting .connection | .expecting .framebufferUpdate | .expecting .rectangle => True
  | .expecting (.pump (.message _) _ _) | .expecting (.pump (.rectangle _) _ _) => True
  | .expecting (.ended (.message _) _) | .expecting (.ended (.rectangle _) _) => True
  | _ => False

/-- What makes the client report comes neither behind the handshake nor behind a challenge that there
was no password for, and the client can read the pixel format it was told to ask for. -/
structure Spares (env : Env (Decoding codecs) Fields) (c : RFBClient (Decoding codecs) Fields) :
    Prop where
  session : Reports env c → ¬InSession c
  answered : Reports env c → c.attrs.factory.password = none → c.attrs.challenge = []
  supported : ∀ namelen pixelFormat, c.phase = .expecting (.serverName namelen) → ready c = true →
    c.attrs.own.requestedPixelFormat = some pixelFormat → ∃ mode, pixelFormat.rawMode = .ok mode

/-! ## Behind a report -/

/-- The state once the Deferred is fired for the first time. -/
def fired (application : Application codecs) (resolution : Resolution) (a : State codecs) :
    State codecs :=
  application.resolved resolution { a with own := { a.own with resolutions := [resolution] } }

theorem run_fire_of_nil {a : State codecs} (h : a.own.resolutions = []) (resolution : Resolution) :
    (fire application resolution).run a = .ok () (fired application resolution a) := by
  unfold fire fired setFields
  simp only [EStateM.run_bind, EStateM.run_get, EStateM.run_modify, h, if_true, List.nil_append]

theorem attends_fired (resolution : Resolution) (a : State codecs) :
    Attends { a with own := { a.own with resolutions := [resolution] } }
      (fired application resolution a) :=
  application.attends_resolved resolution _

theorem resolutions_fired (resolution : Resolution) (a : State codecs) :
    (fired application resolution a).own.resolutions = [resolution] :=
  (attends_fired resolution a).silent.resolutions

theorem run_fire_of_ne {a : State codecs} (h : a.own.resolutions ≠ []) (resolution : Resolution) :
    (fire application resolution).run a = .error ⟨.alreadyCalledError, ""⟩
      { a with own := { a.own with resolutions := a.own.resolutions ++ [resolution] } } := by
  unfold fire setFields
  simp only [EStateM.run_bind, EStateM.run_get, EStateM.run_modify, h, if_false]
  rfl

/-- A TLS handshake is as pending as it was. -/
def Pending (a a' : State codecs) : Prop := a'.tlsHandshakePending = a.tlsHandshakePending

theorem Pending.trans {a a' a'' : State codecs} (h : Pending a a') (h' : Pending a' a'') :
    Pending a a'' := Eq.trans h' h

theorem Attends.pending {a a' : State codecs} (h : Attends a a') : Pending a a' := h.silent.pending

theorem Silent.does_pending {α : Type} {m : Py (State codecs) α} (h : Mum m) :
    Effect.Does Pending m := h.mono fun _ _ hsilent => hsilent.pending

theorem pending_fire (resolution : Resolution) :
    Effect.Does Pending (fire application resolution) := by
  intro a
  by_cases h : a.own.resolutions = []
  · rw [run_fire_of_nil h]
    exact (attends_fired resolution a).pending
  · rw [run_fire_of_ne h]
    exact rfl

theorem pending_callback {method : RFBClient.Callback} (h : method ≠ .vncConnectionMade) :
    Effect.Does Pending (callback (factoryHooks application) library imaging method) := by
  cases hreporting : reporting method with
  | false => exact Silent.does_pending (mum_callback hreporting)
  | true =>
    cases method with
    | vncConnectionMade => exact absurd rfl h
    | vncRequestPassword =>
      refine Effect.does_get_bind fun a => ?_
      cases a.factory.password with
      | none =>
        have hclosed : Effect.Does Pending (Attrs.loseConnection : Py (State codecs) Unit) :=
          fun _ => rfl
        exact Effect.does_bind (R := Pending) (fun _ _ _ => Pending.trans) hclosed (fun _ => pending_fire _) a
      | some password => exact Silent.does_pending (mum_sendPassword password) a
    | vncAuthFailed reason => exact pending_fire _
    | vncProtocolError reason => exact pending_fire _
    | _ => exact absurd hreporting (by simp [reporting])

variable (application library imaging) in
/-- Behind the handshake no TLS handshake is begun. -/
theorem frame : Frame (toolEnv application library imaging) Pending where
  refl _ := rfl
  trans := Pending.trans
  quiet := by
    rintro a _ ⟨decoding, encodings, rfl⟩
    exact rfl
  counts _ _ _ := rfl
  emits _ _ _ := rfl
  calls method hmethod := by
    have hemit : Effect.Does Pending (Attrs.emit (.called method) : Py (State codecs) Unit) :=
      fun _ => rfl
    exact Effect.does_bind (R := Pending) (fun _ _ _ => Pending.trans) hemit fun _ => pending_callback hmethod

theorem inSession_of_connected {c : RFBClient (Decoding codecs) Fields}
    (h : (frame application library imaging).Connected c) : InSession c := by
  obtain ⟨e, hphase, hparks⟩ := h
  unfold InSession
  rw [hphase]
  cases e with
  | pump task size resume =>
    cases task with
    | security secType => exact hparks.elim
    | _ => trivial
  | ended task size =>
    cases task with
    | security secType => exact hparks.elim
    | _ => trivial
  | connection => trivial
  | framebufferUpdate => trivial
  | rectangle => trivial
  | _ => exact hparks.elim

/-- What is parked behind a challenge, up to the session. -/
inductive Behind (env : Env (Decoding codecs) Fields) : Expected (Decoding codecs) Fields → Prop
  | result (secType : ℕ) : Behind env (awaitingResult env secType)
  | reasonLength (secType : ℕ) : Behind env (awaitingReasonLength env secType)
  | reason (secType waitfor : ℕ) : Behind env (awaitingReason env secType waitfor)
  | serverInit : Behind env .serverInit
  | serverName (namelen : ℕ) : Behind env (.serverName namelen)

variable (application library imaging) in
/-- Where a client stands once the Deferred is fired. -/
inductive Fired (c : RFBClient (Decoding codecs) Fields) : Prop
  | aborted (h : c.aborted = true)
  /-- The authentication has failed. -/
  | refused {secType size : ℕ} (hphase : c.phase = .expecting (.ended (.security secType) size))
  /-- There was no password for the challenge. -/
  | unanswered {e : Expected (Decoding codecs) Fields} (hphase : c.phase = .expecting e)
      (hbehind : Behind (toolEnv application library imaging) e)
      (hpassword : c.attrs.factory.password = none) (hchallenge : c.attrs.challenge ≠ [])
  /-- The handshake is complete. -/
  | connected (h : (frame application library imaging).Connected c)

/-! ## Reports -/

/-- Nothing was reported, parsing goes on, and no TLS handshake was begun. -/
structure Alike (c c' : RFBClient (Decoding codecs) Fields) : Prop where
  attrs : Silent c.attrs c'.attrs
  aborted : c'.aborted = c.aborted

theorem Alike.refl (c : RFBClient (Decoding codecs) Fields) : Alike c c := ⟨Silent.refl _, rfl⟩

theorem Alike.trans {c c' c'' : RFBClient (Decoding codecs) Fields} (h : Alike c c')
    (h' : Alike c' c'') : Alike c c'' := ⟨h.attrs.trans h'.attrs, h'.aborted.trans h.aborted⟩

/-- Nothing was reported, and parsing goes on. Where a TLS handshake was begun, the client waits. -/
structure Spared (c c' : RFBClient (Decoding codecs) Fields) : Prop where
  resolutions : resolutions c' = resolutions c
  aborted : c'.aborted = c.aborted
  pending : Pending c.attrs c'.attrs ∨ ready c' = false

theorem Alike.spared {c c' : RFBClient (Decoding codecs) Fields} (h : Alike c c') : Spared c c' :=
  ⟨h.attrs.resolutions, h.aborted, .inl h.attrs.pending⟩

/-! ## What is parked -/

/-- The suspended generator reports nothing, or where it reports is known. -/
inductive Heard (env : Env (Decoding codecs) Fields) : Expected (Decoding codecs) Fields → Prop
  | plain {e : Expected (Decoding codecs) Fields} (h : e.plain = true) : Heard env e
  | message {msgid : ℕ} {size : ℤ}
      {resume : Block size.toNat → State codecs → GenStep (Decoding codecs) Fields Unit}
      (h : ∀ block t, Discreet t (resume block t)) : Heard env (.pump (.message msgid) size resume)
  | rectangle {rect : Rect} {size : ℤ}
      {resume : Block size.toNat → State codecs → GenStep (Decoding codecs) Fields Outcome}
      (h : ∀ block t, PaintsLast env.callback t (resume block t)) :
      Heard env (.pump (.rectangle rect) size resume)
  | muted {secType : ℕ} {size : ℤ}
      {resume : Block size.toNat → State codecs → GenStep (Decoding codecs) Fields Bool}
      (h : ∀ block t, Muted env t (resume block t)) : Heard env (.pump (.security secType) size resume)
  | challenge (secType : ℕ) : Heard env (awaitingChallenge env secType)
  | result (secType : ℕ) : Heard env (awaitingResult env secType)
  | reasonLength (secType : ℕ) : Heard env (awaitingReasonLength env secType)
  | reason (secType waitfor : ℕ) : Heard env (awaitingReason env secType waitfor)

/-- What the client has parked. -/
def HeardAt (env : Env (Decoding codecs) Fields) (c : RFBClient (Decoding codecs) Fields) : Prop :=
  ∀ e, c.phase = .expecting e → Heard env e

/-- No generator was parked in between. -/
def Parks (c c' : RFBClient (Decoding codecs) Fields) : Prop :=
  c'.phase = c.phase ∨ ∃ e, c'.phase = .expecting e ∧ e.plain = true

theorem Parks.refl (c : RFBClient (Decoding codecs) Fields) : Parks c c := .inl rfl

theorem Parks.trans {c c' c'' : RFBClient (Decoding codecs) Fields} (h : Parks c c')
    (h' : Parks c' c'') : Parks c c'' := by
  rcases h' with h' | h'
  · rcases h with h | ⟨e, h, hplain⟩
    · exact .inl (h'.trans h)
    · exact .inr ⟨e, h'.trans h, hplain⟩
  · exact .inr h'

theorem HeardAt.of_parks {env : Env (Decoding codecs) Fields}
    {c c' : RFBClient (Decoding codecs) Fields} (h : HeardAt env c) (hparks : Parks c c') :
    HeardAt env c' := by
  intro e hphase
  rcases hparks with hparks | ⟨e', hparks, hplain⟩
  · exact h e (hparks.symm.trans hphase)
  · have hsame : e' = e := by simpa using hparks.symm.trans hphase
    exact .plain (hsame ▸ hplain)

/-- Code that reports nothing and parks no generator. -/
abbrev Calm {α : Type} (m : Py (RFBClient (Decoding codecs) Fields) α) : Prop :=
  Effect.Does (fun c c' => Alike c c' ∧ Parks c c') m

section

variable {α β : Type}

theorem calm_pure (v : α) : Calm (pure v : Py (RFBClient (Decoding codecs) Fields) α) :=
  Effect.does_pure (fun c => ⟨Alike.refl c, Parks.refl c⟩) v

theorem calm_throw (e : PyErr) : Calm (throw e : Py (RFBClient (Decoding codecs) Fields) α) :=
  Effect.does_throw (fun c => ⟨Alike.refl c, Parks.refl c⟩) e

theorem calm_bind {m : Py (RFBClient (Decoding codecs) Fields) α}
    {f : α → Py (RFBClient (Decoding codecs) Fields) β} (hm : Calm m) (hf : ∀ v, Calm (f v)) :
    Calm (m >>= f) :=
  Effect.does_bind (fun _ _ _ h h' => ⟨h.1.trans h'.1, h.2.trans h'.2⟩) hm hf

theorem calm_get_bind
    {f : RFBClient (Decoding codecs) Fields → Py (RFBClient (Decoding codecs) Fields) α}
    (h : ∀ c, Calm (f c)) : Calm (get >>= f) := Effect.does_get_bind fun c => h c c

theorem calm_onAttrs {m : Py (State codecs) α} (h : Mum m) : Calm (onAttrs m) := by
  intro c
  have ha := h c.attrs
  rw [run_onAttrs]
  cases hrun : m.run c.attrs with
  | ok v a =>
    rw [hrun] at ha
    exact ⟨⟨ha, rfl⟩, .inl rfl⟩
  | error e a =>
    rw [hrun] at ha
    exact ⟨⟨ha, rfl⟩, .inl rfl⟩

theorem calm_expect {e : Expected (Decoding codecs) Fields} (h : e.plain = true) :
    Calm (expect e : Py (RFBClient (Decoding codecs) Fields) Unit) :=
  fun _ => ⟨⟨Silent.refl _, rfl⟩, .inr ⟨e, rfl, h⟩⟩

end

theorem calm_doClientInitialization :
    Calm (doClientInitialization : Py (RFBClient (Decoding codecs) Fields) Unit) := by
  unfold doClientInitialization
  refine calm_get_bind fun c => calm_bind (calm_onAttrs (mum_write _ _)) fun _ => ?_
  exact calm_expect rfl

theorem calm_doConnection : Calm (doConnection (toolEnv application library imaging)) := by
  unfold doConnection
  refine calm_get_bind fun c => ?_
  split_ifs
  · exact calm_expect rfl
  · refine calm_bind (calm_onAttrs (mum_call rfl)) fun _ => ?_
    exact calm_expect rfl

theorem calm_settleRectangle (rect : Rect) (changed : Bool) :
    Calm (settleRectangle (toolEnv application library imaging) rect changed) := by
  unfold settleRectangle
  cases changed with
  | true =>
    refine calm_bind ?_ fun _ => calm_doConnection
    exact calm_onAttrs (mum_modify fun _ => ⟨rfl, rfl⟩)
  | false => exact calm_doConnection

/-- Whatever it comes to, an abort parks nothing. -/
theorem parks_abortConnection (reason : String) :
    Effect.Does Parks (abortConnection (toolEnv application library imaging) reason) := by
  have honAttrs : ∀ m : Py (State codecs) Unit, Effect.Does Parks (onAttrs m) := by
    intro m c
    rw [run_onAttrs]
    cases m.run c.attrs <;> exact .inl rfl
  unfold abortConnection
  refine Effect.does_bind (fun _ _ _ h h' => h.trans h') ?_ fun _ => ?_
  · exact Effect.does_modify fun _ => .inl rfl
  · exact Effect.does_bind (fun _ _ _ h h' => h.trans h') (honAttrs _) fun _ => honAttrs _

/-! ## Handler calls -/

variable (application library imaging) in
/-- What a first report comes to. -/
structure Reported (c c' : RFBClient (Decoding codecs) Fields) : Prop where
  once : ResolvedOnce c'
  stage : resolutions c' = [] ∨ Fired application library imaging c'
  pending : c'.aborted = true ∨ Pending c.attrs c'.attrs

variable (application library imaging) in
/-- What a handler call comes to: nothing is reported, or `R` is the reason why something is. -/
def Comes (R : Prop) (c c' : RFBClient (Decoding codecs) Fields) : Prop :=
  Spared c c' ∨ R ∧ (resolutions c = [] → Reported application library imaging c c')

variable (application library imaging) in
/-- What a handler call comes to, and what it parks. -/
structure Goes (R : Prop) (c c' : RFBClient (Decoding codecs) Fields) : Prop where
  comes : Comes application library imaging R c c'
  heard : HeardAt (toolEnv application library imaging) c'

section

variable {c : RFBClient (Decoding codecs) Fields} {R : Prop}

theorem goes_of_calm {m : Py (RFBClient (Decoding codecs) Fields) Unit}
    (hheard : HeardAt (toolEnv application library imaging) c) (h : Calm m) :
    Goes application library imaging R c (client (m.run c)) := by
  have hc := h c
  cases hrun : m.run c with
  | ok u c' =>
    rw [hrun] at hc
    exact ⟨.inl hc.1.spared, hheard.of_parks hc.2⟩
  | error e c' =>
    rw [hrun] at hc
    exact ⟨.inl hc.1.spared, hheard.of_parks hc.2⟩

/-- The first abort is reported, and closes the connection. -/
theorem reported_abortConnection (h : resolutions c = []) (reason : String) :
    Reported application library imaging c
      (client ((abortConnection (toolEnv application library imaging) reason).run c)) := by
  have hcall : ((toolEnv application library imaging).call (.vncProtocolError reason)).run c.attrs =
      .ok () (fired application (.protocolError reason)
        { c.attrs with log := c.attrs.log ++ [.called (.vncProtocolError reason)] }) :=
    run_fire_of_nil
      (a := { c.attrs with log := c.attrs.log ++ [.called (.vncProtocolError reason)] }) h _
  have hrun : (abortConnection (toolEnv application library imaging) reason).run c =
      .ok () { c with
        aborted := true
        packet := []
        attrs := { fired application (.protocolError reason)
            { c.attrs with log := c.attrs.log ++ [.called (.vncProtocolError reason)] } with
          log := (fired application (.protocolError reason)
            { c.attrs with log := c.attrs.log ++ [.called (.vncProtocolError reason)] }).log ++
              [.loseConnection] } } := by
    unfold abortConnection
    simp only [EStateM.run_bind, EStateM.run_modify, run_onAttrs, hcall, run_loseConnection]
  rw [hrun]
  refine ⟨⟨?_, fun _ => ?_⟩, .inr (.aborted rfl), .inl rfl⟩
  · exact Nat.le_of_eq (congrArg List.length (resolutions_fired _ _))
  · exact List.getLast?_concat

theorem goes_abortConnection (hheard : HeardAt (toolEnv application library imaging) c) (hR : R)
    (reason : String) :
    Goes application library imaging R c
      (client ((abortConnection (toolEnv application library imaging) reason).run c)) := by
  refine ⟨.inr ⟨hR, fun h => reported_abortConnection h reason⟩, ?_⟩
  have hparks := @parks_abortConnection codecs application library imaging reason c
  cases hrun : (abortConnection (toolEnv application library imaging) reason).run c with
  | ok u c' =>
    rw [hrun] at hparks
    exact hheard.of_parks hparks
  | error e c' =>
    rw [hrun] at hparks
    exact hheard.of_parks hparks

/-- A client that has reported the same makes no difference. -/
theorem Goes.earlier {c' d : RFBClient (Decoding codecs) Fields}
    (h : Goes application library imaging R d c') (halike : Alike c d) :
    Goes application library imaging R c c' := by
  refine ⟨?_, h.heard⟩
  rcases h.comes with h | ⟨hreason, h⟩
  · refine .inl ⟨h.resolutions.trans halike.attrs.resolutions, h.aborted.trans halike.aborted, ?_⟩
    exact h.pending.imp_left (Pending.trans halike.attrs.pending)
  · refine .inr ⟨hreason, fun hnone => ?_⟩
    have hreported := h (Eq.trans halike.attrs.resolutions hnone)
    exact ⟨hreported.once, hreported.stage,
      hreported.pending.imp_right (Pending.trans halike.attrs.pending)⟩

/-- What follows a generator that is finished. -/
theorem goes_finish (hheard : HeardAt (toolEnv application library imaging) c) {task : Task}
    (v : task.Result) (a : State codecs)
    (hR : Breaks task (.done a v) → R) :
    Goes application library imaging R c
      (client ((finish (toolEnv application library imaging) task v).run c)) := by
  cases task with
  | security secType =>
    cases v with
    | true => exact goes_of_calm hheard calm_doClientInitialization
    | false => exact goes_of_calm hheard (calm_pure ())
  | message msgid => exact goes_of_calm hheard (calm_expect rfl)
  | rectangle rect =>
    obtain ⟨changed, paste⟩ := v
    rcases paste with _ | ⟨pixels, pixelFormat⟩
    · exact goes_of_calm hheard (calm_settleRectangle rect changed)
    · simp only [finish, finishRectangle]
      split_ifs with hlen
      · exact goes_abortConnection hheard (hR (.paste hlen)) _
      · refine goes_of_calm hheard (calm_bind (calm_onAttrs (mum_call rfl)) fun _ => ?_)
        exact calm_settleRectangle rect changed

/-- The state in which the pump finds a generator. -/
def paused {α : Type} : Pause (Decoding codecs) Fields α → State codecs
  | .done a _ => a
  | .failed a _ => a
  | .wants a _ _ => a

/-- What the pump finds of a generator that reports nothing. One that has begun a TLS handshake waits,
and no bytes are buffered. -/
structure Hushed {α : Type} (waiting : Bool) (a : State codecs) (p : Pause (Decoding codecs) Fields α) :
    Prop where
  resolutions : (paused p).own.resolutions = a.own.resolutions
  pending : Pending a (paused p) ∨
    waiting = false ∧ ∃ a' size resume, p = .wants a' size resume ∧ 0 < size

theorem Silent.hushed {α : Type} {waiting : Bool} {a : State codecs}
    {p : Pause (Decoding codecs) Fields α} (h : Silent a (paused p)) : Hushed waiting a p :=
  ⟨h.resolutions, .inl h.pending⟩

theorem Hushed.silent {α : Type} {waiting : Bool} {a : State codecs}
    {p : Pause (Decoding codecs) Fields α} (h : Hushed waiting a p)
    (hnever : ∀ a' size resume, p = .wants a' size resume → size < 0) : Silent a (paused p) := by
  refine ⟨h.resolutions, h.pending.resolve_right ?_⟩
  rintro ⟨-, a', size, resume, hwants, hpos⟩
  exact absurd (hnever a' size resume hwants) (Int.not_lt.mpr hpos.le)

/-- One step of a generator that reports nothing. -/
theorem goes_pump (hheard : HeardAt (toolEnv application library imaging) c) {task : Task}
    {x : GenStep (Decoding codecs) Fields task.Result}
    (hhushed : Hushed (!c.packet.isEmpty) c.attrs (drive (!c.packet.isEmpty) x))
    (hnext : ∀ a size resume, drive (!c.packet.isEmpty) x = .wants a size resume →
      Heard (toolEnv application library imaging) (.pump task size resume))
    (hR : Breaks task (drive (!c.packet.isEmpty) x) → R) :
    Goes application library imaging R c
      (client ((pump (toolEnv application library imaging) task x).run c)) := by
  rw [run_pump]
  cases hdrive : drive (!c.packet.isEmpty) x with
  -- The generator is over: what its end does is the task's own.
  | done a v =>
    rw [hdrive] at hhushed hR
    have hsilent : Silent c.attrs a := hhushed.silent fun _ _ _ => nofun
    exact Goes.earlier (goes_finish (c := { c with attrs := a }) hheard v a hR) ⟨hsilent, rfl⟩
  -- An exception the task catches aborts; any other leaves the client where it was.
  | failed a e =>
    rw [hdrive] at hhushed hR
    have hsilent : Silent c.attrs a := hhushed.silent fun _ _ _ => nofun
    simp only
    split_ifs with hcatches
    · exact Goes.earlier
        (goes_abortConnection (c := { c with attrs := a }) hheard (hR (.failed hcatches)) _)
        ⟨hsilent, rfl⟩
    · exact ⟨.inl ⟨hsilent.resolutions, rfl, .inl hsilent.pending⟩, hheard⟩
  | wants a size resume =>
    rw [hdrive] at hhushed hR
    simp only
    split_ifs with hsize
    · have hsilent : Silent c.attrs a := by
        refine hhushed.silent ?_
        rintro _ _ _ ⟨⟩
        exact hsize
      exact Goes.earlier
        (goes_abortConnection (c := { c with attrs := a }) hheard (hR (.wants hsize)) _) ⟨hsilent, rfl⟩
    · refine ⟨.inl ⟨hhushed.resolutions, rfl, hhushed.pending.imp_right ?_⟩, ?_⟩
      · -- A pending handshake of TLS waits on an empty buffer, which has none of the bytes asked for.
        rintro ⟨hwaiting, _, _, _, ⟨⟩, hpos⟩
        have hempty : c.packet = [] := by simpa using hwaiting
        have hnone : ¬size.toNat ≤ 0 := by omega
        simp [client, ready, hempty, hnone]
      · rintro e ⟨rfl⟩
        exact hnext a size resume hdrive

/-- Where the run waits for a challenge or for the SecurityResult, it waits for bytes. -/
theorem exists_of_speaks {env : Env (Decoding codecs) Fields} {t : State codecs}
    {x : GenStep (Decoding codecs) Fields Bool} (h : Speaks env t x) (secType : ℕ) (waiting : Bool) :
    ∃ a size resume, drive waiting x = .wants a size resume ∧ 0 < size ∧
      a.own.resolutions = t.own.resolutions ∧ Heard env (.pump (.security secType) size resume) := by
  cases h with
  | challenge h => exact ⟨_, 16, _, rfl, by decide, h, .challenge secType⟩
  | result h => exact ⟨_, 4, _, rfl, by decide, h, .result secType⟩

theorem hushed_drive {env : Env (Decoding codecs) Fields} (secType : ℕ) (waiting : Bool)
    {a : State codecs} {x : GenStep (Decoding codecs) Fields Bool} (h : Muted env a x) :
    Hushed waiting a (drive waiting x) ∧
      ∀ a' size resume, drive waiting x = .wants a' size resume →
        Heard env (.pump (.security secType) size resume) := by
  -- Questions about `_packet` are answered at once, and the generator goes on.
  induction x generalizing a with
  | done a' v => exact ⟨Silent.hushed h, fun _ _ _ => nofun⟩
  | failed a' e => exact ⟨Silent.hushed h, fun _ _ _ => nofun⟩
  | yielded a' y resume ih =>
    cases y with
    | bytes size =>
      refine ⟨Silent.hushed h.1, ?_⟩
      rintro _ _ _ ⟨⟩
      rcases h.2 with hspeaks | hnext
      · obtain ⟨_, _, _, hwants, -, -, hheard⟩ := exists_of_speaks hspeaks secType false
        cases hwants
        exact hheard
      · exact .muted hnext
    | packet =>
      obtain ⟨hsilent, hwaiting, hclear⟩ := h
      cases waiting with
      | true =>
        obtain ⟨hhushed, hheard⟩ := ih true a' (hwaiting a')
        refine ⟨⟨hhushed.resolutions.trans hsilent.resolutions, ?_⟩, hheard⟩
        exact hhushed.pending.imp_left (Pending.trans hsilent.pending)
      | false =>
        have hdrive : drive false (.yielded a' .packet resume) = drive false (resume false a') := rfl
        rw [hdrive]
        -- With nothing buffered VeNCrypt starts its tunnel, and may leave the handshake of TLS pending.
        rcases hclear a' with ⟨t', e, hfailed, hsilent'⟩ | hspeaks
        · rw [hfailed]
          exact ⟨Silent.hushed (hsilent.trans hsilent'), fun _ _ _ => nofun⟩
        · obtain ⟨a₁, size, resume₁, hwants, hpos, hresolutions, hheard⟩ :=
            exists_of_speaks hspeaks secType false
          rw [hwants]
          refine ⟨⟨hresolutions.trans hsilent.resolutions, .inr ⟨rfl, _, _, _, rfl, hpos⟩⟩, ?_⟩
          rintro _ _ _ ⟨⟩
          exact hheard

theorem goes_pump_security (hheard : HeardAt (toolEnv application library imaging) c) {secType : ℕ}
    {x : GenStep (Decoding codecs) Fields Bool}
    (h : Muted (toolEnv application library imaging) c.attrs x)
    (hR : Breaks (.security secType) (drive (!c.packet.isEmpty) x) → R) :
    Goes application library imaging R c
      (client ((pump (toolEnv application library imaging) (.security secType) x).run c)) := by
  obtain ⟨hhushed, hnext⟩ := hushed_drive secType (!c.packet.isEmpty) h
  exact goes_pump hheard hhushed hnext hR

theorem silent_of_honours {α : Type} {Q : State codecs → α → Prop} {a : State codecs}
    {p : Pause (Decoding codecs) Fields α} (h : p.Honours discreet Q a) : Silent a (paused p) := by
  cases h with
  | done hdoes _ => exact hdoes
  | failed hdoes _ => exact hdoes
  | wants hdoes _ _ => exact hdoes

theorem goes_pump_message (hheard : HeardAt (toolEnv application library imaging) c) {msgid : ℕ}
    {x : GenStep (Decoding codecs) Fields Unit} (h : Discreet c.attrs x)
    (hR : Breaks (.message msgid) (drive (!c.packet.isEmpty) x) → R) :
    Goes application library imaging R c
      (client ((pump (toolEnv application library imaging) (.message msgid) x).run c)) := by
  have hpause := drive_honours (fun _ => trivial) (!c.packet.isEmpty) h
  refine goes_pump hheard (silent_of_honours hpause).hushed ?_ hR
  intro a size resume hwants
  rw [hwants] at hpause
  cases hpause with
  | wants _ _ hnext => exact .message fun block t => hnext block t trivial

/-- A decoder reports nothing. -/
theorem silent_of_paintsLast {a : State codecs} {waiting : Bool}
    {x : GenStep (Decoding codecs) Fields Outcome}
    (h : PaintsLast (toolEnv application library imaging).callback a x) :
    Silent a (paused (drive waiting x)) := by
  have hquiet : ∀ {a a' : State codecs}, Quiet a a' → Silent a a' := by
    rintro a _ ⟨decoding, encodings, rfl⟩
    exact ⟨rfl, rfl⟩
  -- The one callback a decoder makes paints, and so reports nothing.
  have hpainted : ∀ {a a' : State codecs} {method : RFBClient.Callback}, Quiet a a' →
      method.paints = true →
        Silent a (Effect.state
          ((invoke (toolEnv application library imaging).callback method).run a')) := by
    intro a a' method hbefore hpaints
    exact (hquiet hbefore).trans
      (@mum_call codecs application library imaging method (not_reporting_of_paints hpaints) a')
  have hpause := drive_paintsLast waiting h
  cases hdrive : drive waiting x with
  | done a' v =>
    rw [hdrive] at hpause
    cases hpause with
    | done h =>
      rcases h with h | ⟨_, a₁, method, h, hpaints, hrun⟩
      · exact hquiet h
      · have hsilent := hpainted h hpaints
        rw [hrun] at hsilent
        exact hsilent
  | failed a' e =>
    rw [hdrive] at hpause
    cases hpause with
    | failed h =>
      rcases h with h | ⟨a₁, method, h, hpaints, hrun⟩
      · exact hquiet h
      · have hsilent := hpainted h hpaints
        rw [hrun] at hsilent
        exact hsilent
  | wants a' size resume =>
    rw [hdrive] at hpause
    cases hpause with
    | wants h _ => exact hquiet h

theorem goes_pump_rectangle (hheard : HeardAt (toolEnv application library imaging) c) {rect : Rect}
    {x : GenStep (Decoding codecs) Fields Outcome}
    (h : PaintsLast (toolEnv application library imaging).callback c.attrs x)
    (hR : Breaks (.rectangle rect) (drive (!c.packet.isEmpty) x) → R) :
    Goes application library imaging R c
      (client ((pump (toolEnv application library imaging) (.rectangle rect) x).run c)) := by
  refine goes_pump hheard (silent_of_paintsLast h).hushed ?_ hR
  intro a size resume hwants
  have hpause := drive_paintsLast (!c.packet.isEmpty) h
  rw [hwants] at hpause
  cases hpause with
  | wants _ hnext => exact .rectangle hnext

/-- A generator that returns at once, or asks for bytes first, does not break. -/
theorem not_breaks_of_starts {task : Task} (hrectangle : ∀ rect, task ≠ .rectangle rect)
    {waiting : Bool} {x : GenStep (Decoding codecs) Fields task.Result}
    (h : (∃ a v, x = .done a v) ∨ ∃ a, ∃ n : ℕ, ∃ resume, x = .yielded a (.bytes n) resume) :
    ¬Breaks task (drive waiting x) := by
  rcases h with ⟨a, v, rfl⟩ | ⟨a, n, resume, rfl⟩
  · intro h
    cases h with
    | paste _ => exact hrectangle _ rfl
  · intro h
    cases h with
    | wants hsize => exact absurd hsize (by simp)

theorem starts_securityHandler {env : Env (Decoding codecs) Fields} {secType : ℕ}
    {handler : Gen (Decoding codecs) Fields Bool} (h : securityHandler env secType = some handler)
    (a : State codecs) :
    (∃ a' v, handler.run a = .done a' v) ∨
      ∃ a', ∃ n : ℕ, ∃ resume, handler.run a = .yielded a' (.bytes n) resume := by
  unfold securityHandler at h
  split_ifs at h
  all_goals
    obtain rfl := Option.some.inj h
  · unfold noneHandler
    rw [Coroutine.run_bind, Coroutine.run_get, Coroutine.Step.bind_done]
    split_ifs
    · exact .inr ⟨a, 4, _, rfl⟩
    · exact .inl ⟨a, true, rfl⟩
  · exact .inr ⟨a, 16, _, rfl⟩
  · exact .inr ⟨a, 2, _, rfl⟩
  · exact .inr ⟨a, 4, _, rfl⟩

theorem starts_messageHandler {msgid : ℕ} {handler : Gen (Decoding codecs) Fields Unit}
    (h : messageHandler (toolEnv application library imaging) msgid = some handler)
    (a : State codecs) :
    (∃ a' v, handler.run a = .done a' v) ∨
      ∃ a', ∃ n : ℕ, ∃ resume, handler.run a = .yielded a' (.bytes n) resume := by
  unfold messageHandler at h
  split_ifs at h
  all_goals
    obtain rfl := Option.some.inj h
  · exact .inr ⟨a, 5, _, rfl⟩
  · exact .inl ⟨_, (), rfl⟩
  · exact .inr ⟨a, 7, _, rfl⟩
  · exact .inr ⟨a, 8, _, rfl⟩

theorem goes_startSecurity (hheard : HeardAt (toolEnv application library imaging) c) {secType : ℕ}
    (hsupported : secType ∈ supportedAuths) :
    Goes application library imaging R c
      (client ((startSecurity (toolEnv application library imaging) secType).run c)) := by
  rw [run_startSecurity]
  cases hhandler : securityHandler (toolEnv application library imaging) secType with
  | none =>
    have hsome := (securityHandler_isSome_iff (toolEnv application library imaging) secType).mpr
      hsupported
    exact absurd hsome (by simp [hhandler])
  | some handler =>
    refine goes_pump_security hheard (muted_securityHandler hhandler c.attrs) fun hbreaks => ?_
    exact absurd hbreaks (not_breaks_of_starts (by simp) (starts_securityHandler hhandler c.attrs))

/-! ### Reports of a security handler -/

/-- A generator that parks itself with something known to report. -/
theorem goes_of_yielded {task : Task} {a : State codecs} {n : ℕ}
    {resume : Block n → State codecs → GenStep (Decoding codecs) Fields task.Result}
    (hsilent : Silent c.attrs a)
    (hheard : Heard (toolEnv application library imaging) (.pump task n resume)) :
    Goes application library imaging R c (client
      ((pump (toolEnv application library imaging) task (.yielded a (.bytes n) resume)).run c)) := by
  rw [run_pump_of_yielded]
  refine ⟨.inl (Alike.spared ⟨hsilent, rfl⟩), ?_⟩
  rintro e ⟨rfl⟩
  exact hheard

/-- A refusal is reported before the connection is closed. -/
theorem goes_refusal (hheard : HeardAt (toolEnv application library imaging) c) (hR : R)
    (hlive : c.aborted = false) {secType size : ℕ}
    (hphase : c.phase = .expecting (.ended (.security secType) size)) (reason : AuthFailure) :
    Goes application library imaging R c
      (client ((pump (toolEnv application library imaging) (.security secType) ((do
        Gen.lift ((toolEnv application library imaging).call (.vncAuthFailed reason))
        Gen.lift Attrs.loseConnection
        pure false : Gen (Decoding codecs) Fields Bool).run c.attrs)).run c)) := by
  -- A Deferred that has fired raises out of the callback, before the connection is closed.
  by_cases hnone : resolutions c = []
  · have hcall : ((toolEnv application library imaging).call (.vncAuthFailed reason)).run c.attrs =
        .ok () (fired application (.authenticationError (describe reason))
          { c.attrs with log := c.attrs.log ++ [.called (.vncAuthFailed reason)] }) :=
      run_fire_of_nil
        (a := { c.attrs with log := c.attrs.log ++ [.called (.vncAuthFailed reason)] }) hnone _
    rw [Coroutine.run_bind, Gen.run_lift, hcall]
    simp only [Coroutine.Step.bind_done, Coroutine.run_bind, Gen.run_lift, run_loseConnection,
      Coroutine.run_pure]
    rw [run_pump_of_done]
    refine ⟨.inr ⟨hR, fun _ => ⟨⟨?_, fun habort => ?_⟩, .inr (.refused hphase), .inr ?_⟩⟩, hheard⟩
    · exact Nat.le_of_eq (congrArg List.length (resolutions_fired _ _))
    · exact absurd (hlive.symm.trans habort) (by simp)
    · exact (attends_fired _ _).pending
  · have hcall : ((toolEnv application library imaging).call (.vncAuthFailed reason)).run c.attrs =
        .error ⟨.alreadyCalledError, ""⟩ _ :=
      run_fire_of_ne
        (a := { c.attrs with log := c.attrs.log ++ [.called (.vncAuthFailed reason)] }) hnone _
    rw [Coroutine.run_bind, Gen.run_lift, hcall, run_pump]
    exact ⟨.inr ⟨hR, fun h => absurd h hnone⟩, hheard⟩

/-- A challenge is answered, or there is no password to answer it with. -/
theorem goes_challenge (hheard : HeardAt (toolEnv application library imaging) c)
    (hlive : c.aborted = false) (secType : ℕ) (block : Block 16)
    (hpassword : c.attrs.factory.password = none → R)
    (hbreaks : Breaks (.security secType) (drive (!c.packet.isEmpty)
      ((answerChallenge (toolEnv application library imaging) block).run c.attrs)) → R) :
    Goes application library imaging R c
      (client ((pump (toolEnv application library imaging) (.security secType)
        ((answerChallenge (toolEnv application library imaging) block).run c.attrs)).run c)) := by
  cases hfactory : c.attrs.factory.password with
  | none =>
    have hR := hpassword hfactory
    -- The connection is closed first, and then the factory hears of it.
    have hcall : ∀ a : State codecs, a.factory.password = none →
        ((toolEnv application library imaging).call .vncRequestPassword).run a =
          (fire application (.authenticationError "password required, but none provided")).run
            { a with log := a.log ++ [.called .vncRequestPassword] ++ [.loseConnection] } := by
      intro a ha
      rw [run_call]
      simp only [env, callback, vncRequestPassword, EStateM.run_bind, EStateM.run_get, ha,
        run_loseConnection]
      rfl
    unfold answerChallenge
    rw [Coroutine.run_bind, Coroutine.run_modify, Coroutine.Step.bind_done, Coroutine.run_bind,
      Gen.run_lift, hcall { c.attrs with challenge := block.bytes } hfactory]
    by_cases hnone : resolutions c = []
    · -- The Deferred fires, and the exchange goes on to the SecurityResult all the same.
      rw [run_fire_of_nil (by exact hnone)]
      simp only [Coroutine.Step.bind_done]
      rw [run_securityResult, run_pump]
      simp only [drive]
      rw [if_neg (by decide)]
      obtain ⟨_, _, _, _, hattends, -⟩ := @attends_fired _ application
        (.authenticationError "password required, but none provided")
        { c.attrs with
          challenge := block.bytes
          log := c.attrs.log ++ [.called .vncRequestPassword] ++ [.loseConnection] }
      refine ⟨.inr ⟨hR, fun _ => ⟨⟨?_, fun habort => ?_⟩, .inr ?_, .inr ?_⟩⟩, ?_⟩
      · exact Nat.le_of_eq (congrArg List.length (resolutions_fired _ _))
      · exact absurd (hlive.symm.trans habort) (by simp)
      · refine .unanswered rfl (.result secType) ?_ ?_
        · exact (congrArg (fun a : State codecs => a.factory.password) hattends).trans hfactory
        · have hchallenge : (fired application _ _ : State codecs).challenge = block.bytes :=
            congrArg Attrs.challenge hattends
          intro hempty
          exact absurd (hchallenge.symm.trans hempty) (by simp [← List.length_eq_zero_iff])
      · exact (attends_fired _ _).pending
      · rintro e ⟨rfl⟩
        exact .result secType
    · -- Fired already, it raises, which nothing in the pump catches.
      rw [run_fire_of_ne (by exact hnone), run_pump]
      exact ⟨.inr ⟨hR, fun h => absurd h hnone⟩, hheard⟩
  | some password =>
    have hcall : ∀ a : State codecs, a.factory.password = some password →
        ((toolEnv application library imaging).call .vncRequestPassword).run a =
          (sendPassword library password).run
            { a with log := a.log ++ [.called .vncRequestPassword] } := by
      intro a ha
      rw [run_call]
      simp only [env, callback, vncRequestPassword, EStateM.run_bind, EStateM.run_get, ha]
    have hrun : (answerChallenge (toolEnv application library imaging) block).run c.attrs =
        ((Gen.lift (sendPassword library password) >>= fun _ =>
          securityResult (toolEnv application library imaging)).run
            { c.attrs with
              challenge := block.bytes
              log := c.attrs.log ++ [.called .vncRequestPassword] }) := by
      unfold answerChallenge
      rw [Coroutine.run_bind, Coroutine.run_modify, Coroutine.Step.bind_done, Coroutine.run_bind,
        Gen.run_lift, hcall { c.attrs with challenge := block.bytes } hfactory]
      rfl
    rw [hrun]
    refine goes_pump_security hheard ?_ fun h => hbreaks (hrun ▸ h)
    refine @Muted.from_earlier codecs (toolEnv application library imaging)
      { c.attrs with challenge := block.bytes, log := c.attrs.log ++ [.called .vncRequestPassword] }
      c.attrs _ ⟨rfl, rfl⟩ ?_
    exact muted_bind (discreet_lift (mum_sendPassword password)) fun _ _ => muted_securityResult

/-- What follows a SecurityResult. -/
theorem goes_result (hheard : HeardAt (toolEnv application library imaging) c)
    (hlive : c.aborted = false) {secType size : ℕ}
    (hphase : c.phase = .expecting (.ended (.security secType) size)) (result : ℕ)
    (hfailed : ¬Ver.le (3, 8) c.attrs.version → result = 1 ∨ result = 2 → R) :
    Goes application library imaging R c
      (client ((pump (toolEnv application library imaging) (.security secType)
        ((judge (toolEnv application library imaging) result).run c.attrs)).run c)) := by
  by_cases hzero : result = 0
  · have hjudge : judge (toolEnv application library imaging) result = pure true := if_pos hzero
    rw [hjudge, Coroutine.run_pure, run_pump_of_done]
    exact goes_of_calm hheard calm_doClientInitialization
  · by_cases hrefused : result = 1 ∨ result = 2
    · rw [judge_of_failed _ hrefused]
      -- From 3.8 on the reason is read first; before, the refusal is reported at once.
      by_cases hversion : Ver.le (3, 8) c.attrs.version
      · rw [run_refuse_of_le hversion]
        exact goes_of_yielded (Silent.refl _) (.reasonLength secType)
      · have hrefuse : (refuse (toolEnv application library imaging) (failureText result)).run
            c.attrs = (do
              Gen.lift ((toolEnv application library imaging).call
                (.vncAuthFailed (.text (failureText result))))
              Gen.lift Attrs.loseConnection
              pure false : Gen (Decoding codecs) Fields Bool).run c.attrs := by
          unfold refuse reportFailure
          rw [Coroutine.run_bind, Coroutine.run_bind, Coroutine.run_get, Coroutine.Step.bind_done,
            if_pos hversion]
          rfl
        rw [hrefuse]
        exact goes_refusal hheard (hfailed hversion hrefused) hlive hphase _
    · have hjudge : (judge (toolEnv application library imaging) result).run c.attrs =
          .done { c.attrs with log := c.attrs.log ++ [.loseConnection] } false := by
        unfold judge
        rw [if_neg hzero, if_neg (fun h => hrefused (.inl h)), if_neg (fun h => hrefused (.inr h))]
        rfl
      rw [hjudge, run_pump_of_done]
      exact ⟨.inl (Alike.spared ⟨⟨rfl, rfl⟩, rfl⟩), hheard⟩

/-- What follows the length of the reason for a failure. -/
theorem goes_reasonLength (hheard : HeardAt (toolEnv application library imaging) c)
    (secType waitfor : ℕ) :
    Goes application library imaging R c
      (client ((pump (toolEnv application library imaging) (.security secType)
        ((readReason (toolEnv application library imaging) waitfor).run c.attrs)).run c)) := by
  by_cases hlen : waitfor ≤ maxMessagePayload
  · rw [run_readReason_of_le hlen]
    exact goes_of_yielded (Silent.refl _) (.reason secType waitfor)
  · rw [run_readReason_of_gt (Nat.not_le.mp hlen), run_pump]
    exact ⟨.inl (Alike.refl c).spared, hheard⟩

/-! ### The end of the handshake -/

theorem mum_requestPixelFormat {pixelFormat : PixelFormat} {mode : RawMode}
    (h : pixelFormat.rawMode = .ok mode) :
    Mum (requestPixelFormat (factoryHooks application) pixelFormat) := by
  unfold requestPixelFormat
  rw [h]
  refine mum_bind (mum_setPixelFormat _) fun _ => ?_
  exact mum_setFields fun _ => rfl

/-- A pixel format that can be read is settled without a report. -/
theorem silent_setImageMode {a : State codecs}
    (h : ∀ pixelFormat, a.own.requestedPixelFormat = some pixelFormat →
      ∃ mode, pixelFormat.rawMode = .ok mode) :
    Silent a (Effect.state ((setImageMode (factoryHooks application)).run a)) := by
  unfold setImageMode
  rw [EStateM.run_bind, EStateM.run_get]
  simp only
  cases hrequested : a.own.requestedPixelFormat with
  | some pixelFormat =>
    obtain ⟨mode, hmode⟩ := h pixelFormat hrequested
    exact mum_requestPixelFormat hmode a
  | none =>
    simp only
    cases a.pixelFormat.rawMode with
    | ok mode => exact mum_setFields (f := fun s => { s with imageMode := mode }) (fun _ => rfl) a
    | error exc => exact mum_requestPixelFormat PixelFormat.rawMode_rgbx8888 a

/-- Code that reports nothing, followed by a report. -/
structure ReportsLast (m : Py (State codecs) Unit) (a : State codecs) : Prop where
  returns : a.own.resolutions = [] → ∀ u a', m.run a = .ok u a' →
    a'.own.resolutions.length ≤ 1 ∧ Pending a a'
  raises : a.own.resolutions = [] → ∀ e a', m.run a = .error e a' → Silent a a'

theorem reportsLast_bind {α : Type} {m : Py (State codecs) α} {f : α → Py (State codecs) Unit}
    {a : State codecs} (hm : Silent a (Effect.state (m.run a)))
    (hf : ∀ v a, ReportsLast (f v) a) : ReportsLast (m >>= f) a := by
  cases hrun : m.run a with
  | error e a' =>
    rw [hrun] at hm
    refine ⟨fun _ u a'' h => ?_, fun _ e a'' h => ?_⟩ <;> rw [EStateM.run_bind, hrun] at h <;> cases h
    exact hm
  | ok v a' =>
    rw [hrun] at hm
    have hlast := hf v a'
    refine ⟨fun hnone u a'' h => ?_, fun hnone e a'' h => ?_⟩ <;> rw [EStateM.run_bind, hrun] at h
    · obtain ⟨honce, hpending⟩ := hlast.returns (hm.resolutions.trans hnone) u a'' h
      exact ⟨honce, Pending.trans hm.pending hpending⟩
    · exact hm.trans (hlast.raises (hm.resolutions.trans hnone) e a'' h)

theorem reportsLast_fire (resolution : Resolution) (a : State codecs) :
    ReportsLast (fire application resolution) a := by
  refine ⟨fun hnone u a' h => ?_, fun hnone e a' h => ?_⟩ <;> rw [run_fire_of_nil hnone] at h <;>
    cases h
  exact ⟨Nat.le_of_eq (congrArg List.length (resolutions_fired _ _)),
    (attends_fired resolution a).pending⟩

/-- The handshake is complete: the connection is reported last. -/
theorem reportsLast_vncConnectionMade {a : State codecs}
    (h : ∀ pixelFormat, a.own.requestedPixelFormat = some pixelFormat →
      ∃ mode, pixelFormat.rawMode = .ok mode) :
    ReportsLast (vncConnectionMade (factoryHooks application)) a := by
  unfold vncConnectionMade
  refine reportsLast_bind (silent_setImageMode h) fun _ a => ?_
  refine reportsLast_bind (Silent.refl a) fun a' a => ?_
  have hrest : ∀ encodings a, ReportsLast (do
      setEncodings encodings
      (factoryHooks application).report .connectionMade) a := fun _ a =>
    reportsLast_bind (mum_setEncodings _ a) fun _ a => reportsLast_fire _ a
  cases a'.own.requestedJpegQuality with
  | none => exact reportsLast_bind (mum_pure [] a) fun _ => hrest _
  | some quality =>
    refine reportsLast_bind (mum_ofExcept _ a) fun encoding a => ?_
    exact reportsLast_bind (mum_pure [encoding] a) fun _ => hrest _

theorem goes_serverName (hheard : HeardAt (toolEnv application library imaging) c) (hR : R)
    (hlive : c.aborted = false)
    (hsupported : ∀ pixelFormat, c.attrs.own.requestedPixelFormat = some pixelFormat →
      ∃ mode, pixelFormat.rawMode = .ok mode) {namelen : ℕ} (block : Block namelen) :
    Goes application library imaging R c
      (client ((handleServerName (toolEnv application library imaging) block).run c)) := by
  have hlast := @reportsLast_vncConnectionMade _ application
    { c.attrs with
      name := block.bytes
      log := c.attrs.log ++ [.called .vncConnectionMade] } hsupported
  unfold handleServerName
  simp only [EStateM.run_bind, run_onAttrs, EStateM.run_modify]
  cases hcall : ((toolEnv application library imaging).call .vncConnectionMade).run
      { c.attrs with name := block.bytes } with
  | ok u a =>
    refine ⟨.inr ⟨hR, fun hnone => ?_⟩, ?_⟩
    · obtain ⟨honce, hpending⟩ := hlast.returns hnone u a hcall
      refine ⟨⟨honce, fun habort => absurd (hlive.symm.trans habort) (by simp)⟩, .inr ?_, .inr hpending⟩
      exact .connected ⟨.connection, rfl, trivial⟩
    · rintro e ⟨rfl⟩
      exact .plain rfl
  -- The factory was not told: what raised came before the report.
  | error e a =>
    refine ⟨.inr ⟨hR, fun hnone => ?_⟩, hheard⟩
    obtain ⟨hresolutions, hpending⟩ := hlast.raises hnone e a hcall
    have hnone' : a.own.resolutions = [] := hresolutions.trans hnone
    refine ⟨⟨?_, fun habort => absurd (hlive.symm.trans habort) (by simp)⟩, .inl hnone',
      .inr hpending⟩
    exact (Nat.le_of_eq (congrArg List.length hnone')).trans (Nat.zero_le 1)

end

/-! ## Runs -/

section

variable {c : RFBClient (Decoding codecs) Fields}

/-- A security type is settled on, or none of those offered is supported. -/
theorem goes_securityTypes (hheard : HeardAt (toolEnv application library imaging) c) {R : Prop}
    {count : ℕ} (block : Block count)
    (hR : ((block.bytes.map UInt8.toNat).filter (· ∈ supportedAuths)).max? = none → R) :
    Goes application library imaging R c
      (client ((handleSecurityTypes (toolEnv application library imaging) block).run c)) := by
  unfold handleSecurityTypes
  simp only
  split
  next secType hchosen =>
    have hmem := List.max?_mem hchosen
    exact Goes.earlier (goes_startSecurity (c := { c with
        attrs := { c.attrs with
          log := c.attrs.log ++ [.wrote .securityType [UInt8.ofNat secType]] } })
      hheard (by simpa using (List.mem_filter.mp hmem).2)) ⟨⟨rfl, rfl⟩, rfl⟩
  next hnone => exact goes_abortConnection hheard (hR hnone) _

/-- A rectangle goes to its decoder, or there is none for it; or the update is over. -/
theorem goes_rectangle (hheard : HeardAt (toolEnv application library imaging) c)
    (hphase : c.phase = .expecting .rectangle) (hready : ready c = true) (hlen : 12 ≤ c.packet.length) :
    Goes application library imaging (Reports (toolEnv application library imaging) c)
      { c with packet := c.packet.drop 12 }
      (client ((handleRectangle (toolEnv application library imaging)
        (Block.ofPrefix 12 c.packet hlen)).run { c with packet := c.packet.drop 12 })) := by
  -- `_handleRectangle` counts the rectangle before anything can go wrong with it.
  let counted : RFBClient (Decoding codecs) Fields := { c with
    packet := c.packet.drop 12
    attrs := { c.attrs with
      rectangles := remaining (Block.ofPrefix 12 c.packet hlen) c.attrs.rectangles - 1 } }
  rw [run_handleRectangle]
  split_ifs with hremaining
  · rw [run_pumpRectangle]
    split
    next decoder hdecoder =>
      refine Goes.earlier (goes_pump_rectangle (c := counted) hheard (decoder.paintsLast _ _ _)
        fun hbreaks => ?_) ⟨⟨rfl, rfl⟩, rfl⟩
      exact .breaks hready (.rectangle hphase hlen hremaining hdecoder) hbreaks
    next hnone =>
      refine Goes.earlier (goes_abortConnection (c := counted) hheard ?_ _) ⟨⟨rfl, rfl⟩, rfl⟩
      exact .encoding hphase hready hlen hremaining hnone
  · exact Goes.earlier (goes_of_calm hheard calm_doConnection) ⟨⟨rfl, rfl⟩, rfl⟩

/-- A handler call that resumes no generator. -/
theorem goes_plain (hheard : HeardAt (toolEnv application library imaging) c) (hready : ready c = true)
    (hspares : Spares (toolEnv application library imaging) c) {e : Expected (Decoding codecs) Fields}
    (hphase : c.phase = .expecting e) (hlen : e.len ≤ c.packet.length) (hlive : c.aborted = false)
    (hplain : e.plain = true) :
    Goes application library imaging (Reports (toolEnv application library imaging) c)
      { c with packet := c.packet.drop e.len }
      (client ((handle (toolEnv application library imaging) e (Block.ofPrefix e.len c.packet hlen)).run
        { c with packet := c.packet.drop e.len })) := by
  have hheard' : HeardAt (toolEnv application library imaging)
      { c with packet := c.packet.drop e.len } := hheard
  cases e with
  | auth =>
    simp only [handle, handleAuth]
    split_ifs with hinvalid hsome
    · exact goes_of_calm hheard' (calm_expect rfl)
    · exact goes_startSecurity hheard' ((securityHandler_isSome_iff _ _).mp hsome)
    · exact goes_abortConnection hheard'
        (.auth hphase hready hinvalid fun h => hsome ((securityHandler_isSome_iff _ _).mpr h)) _
  | numberSecurityTypes =>
    simp only [handle, handleNumberSecurityTypes]
    split_ifs <;> exact goes_of_calm hheard' (calm_expect rfl)
  | securityTypes count =>
    exact goes_securityTypes hheard' _ fun hnone => .securityTypes hphase hready hnone
  | connFailed =>
    simp only [handle, handleConnFailed]
    split_ifs with hlong
    · exact goes_abortConnection hheard' (.connFailed hphase hready hlong) _
    · exact goes_of_calm hheard' (calm_expect rfl)
  | connMessage waitfor =>
    exact goes_abortConnection hheard' (.connMessage hphase hready) _
  | serverInit =>
    exact goes_of_calm hheard' (calm_bind (calm_onAttrs (mum_modify fun _ => ⟨rfl, rfl⟩)) fun _ =>
      calm_expect rfl)
  | serverName namelen =>
    exact goes_serverName hheard' (.serverName hphase hready) hlive
      (fun pixelFormat hrequested => hspares.supported namelen pixelFormat hphase hready hrequested) _
  | connection =>
    simp only [handle, handleConnection]
    split_ifs with hupdate
    · exact goes_of_calm hheard' (calm_expect rfl)
    · split
      next hnone => exact goes_abortConnection hheard' (.message hphase hready hupdate hnone) _
      next handler hhandler =>
        -- A handler of a message returns or asks for bytes first: it has nothing to break on yet.
        refine goes_pump_message hheard' (discreet_messageHandler hhandler c.attrs) fun hbreaks => ?_
        exact absurd hbreaks
          (not_breaks_of_starts (by simp) (starts_messageHandler hhandler c.attrs))
  | framebufferUpdate =>
    refine goes_of_calm hheard' (calm_bind (calm_onAttrs (mum_modify fun _ => ⟨rfl, rfl⟩)) fun _ => ?_)
    exact calm_bind (calm_onAttrs (mum_call rfl)) fun _ => calm_doConnection
  | rectangle => exact goes_rectangle hheard hphase hready hlen
  | pump task size resume => exact absurd hplain (by simp [Expected.plain])
  | ended task size =>
    cases task with
    | security secType => exact goes_of_calm hheard' (calm_pure ())
    | message msgid => exact goes_of_calm hheard' (calm_expect rfl)
    | rectangle rect => exact goes_of_calm hheard' (calm_throw _)

/-- A handler call of a client that spares the factory. -/
theorem goes_turn (hheard : HeardAt (toolEnv application library imaging) c) (hready : ready c = true)
    (hspares : Spares (toolEnv application library imaging) c) :
    Goes application library imaging (Reports (toolEnv application library imaging) c) c
      (client ((turn (toolEnv application library imaging)).run c)) := by
  obtain ⟨e, hphase, hlen, hlive⟩ := exists_of_ready hready
  rw [run_turn _ hphase hlen]
  -- A generator runs with itself parked as finished, so that nothing resumes it twice.
  have hended : ∀ task size, HeardAt (toolEnv application library imaging)
      { c with packet := c.packet.drop e.len, phase := .expecting (.ended task size) } := by
    rintro task size e ⟨rfl⟩
    exact .plain rfl
  have hstarted : ∀ task size, Alike c
      { c with packet := c.packet.drop e.len, phase := .expecting (.ended task size) } :=
    fun _ _ => ⟨Silent.refl _, rfl⟩
  cases hheard e hphase with
  | message h =>
    rw [run_handle_pump]
    exact Goes.earlier (goes_pump_message (hended _ _) (h _ _) fun hbreaks =>
      .breaks hready (.pump hphase hlen) hbreaks) (hstarted _ _)
  | rectangle h =>
    rw [run_handle_pump]
    exact Goes.earlier (goes_pump_rectangle (hended _ _) (h _ _) fun hbreaks =>
      .breaks hready (.pump hphase hlen) hbreaks) (hstarted _ _)
  | muted h =>
    rw [run_handle_pump]
    exact Goes.earlier (goes_pump_security (hended _ _) (h _ _) fun hbreaks =>
      .breaks hready (.pump hphase hlen) hbreaks) (hstarted _ _)
  | challenge secType =>
    exact Goes.earlier (goes_challenge (hended (.security secType) 16) hlive secType _
      (fun hpassword => .challenge hphase hready hpassword)
      fun hbreaks => .breaks hready (.pump hphase hlen) hbreaks) (hstarted _ _)
  | result secType =>
    exact Goes.earlier (goes_result (hended (.security secType) 4) hlive rfl _
      fun hversion hresult => .result hphase hready hversion hresult) (hstarted _ _)
  | reasonLength secType =>
    exact Goes.earlier (goes_reasonLength (hended (.security secType) 4) secType _) (hstarted _ _)
  | reason secType waitfor =>
    exact Goes.earlier (goes_refusal (hended (.security secType) waitfor) (.reason hphase hready)
      hlive rfl _) (hstarted _ _)
  | plain hplain =>
    exact Goes.earlier (goes_plain hheard hready hspares hphase hlen hlive hplain)
      ⟨Silent.refl _, rfl⟩

/-- A delivery, up to the loop. -/
theorem goes_deliver (hheard : HeardAt (toolEnv application library imaging) c) (data : Bytes) :
    Goes application library imaging
      (Reports (toolEnv application library imaging) (extend c data)) (extend c data)
      (client ((deliver (toolEnv application library imaging) data).run c)) := by
  have hheard' : HeardAt (toolEnv application library imaging) (extend c data) := hheard
  have hsame : Spared (extend c data) (extend c data) := (Alike.refl _).spared
  cases hphase : c.phase with
  | initial =>
    rw [run_deliver_of_initial _ hphase, run_handleInitial]
    split_ifs with hcomplete hprefix
    · rw [run_answerHeader]
      cases negotiate (announced ((extend c data).packet.take 12)) with
      | none => exact ⟨.inl hsame, hheard'⟩
      | some version =>
        refine ⟨.inl (Alike.spared ⟨⟨rfl, rfl⟩, rfl⟩), ?_⟩
        rintro e ⟨rfl⟩
        refine .plain ?_
        split_ifs <;> rfl
    · exact ⟨.inl hsame, hheard'⟩
    · exact goes_abortConnection hheard' (.header hphase hprefix) _
  | expecting e =>
    rw [run_deliver_of_expecting _ hphase]
    exact ⟨.inl hsame, hheard'⟩

/-! ## Runs that fire once -/

theorem Fired.extend (h : Fired application library imaging c) (data : Bytes) :
    Fired application library imaging (extend c data) := by
  cases h with
  | aborted h => exact .aborted h
  | refused hphase => exact .refused (c := RFBClient.extend c data) hphase
  | unanswered hphase hbehind hpassword hchallenge =>
    exact .unanswered (c := RFBClient.extend c data) hphase hbehind hpassword hchallenge
  | connected h => exact .connected (h.of_phase rfl)

/-- A client that parses on with the Deferred fired is past the version header. -/
theorem Fired.exists_phase (h : Fired application library imaging c) (hlive : c.aborted = false) :
    ∃ e, c.phase = .expecting e := by
  cases h with
  | aborted h => exact absurd (hlive.symm.trans h) (by simp)
  | refused hphase => exact ⟨_, hphase⟩
  | unanswered hphase _ _ _ => exact ⟨_, hphase⟩
  | connected h =>
    obtain ⟨e, hphase, -⟩ := h
    exact ⟨e, hphase⟩

/-- A client that spares the factory reports where the Deferred is unfired. -/
theorem unfired_of_reports (h : resolutions c = [] ∨ Fired application library imaging c)
    (hlive : c.aborted = false) (hspares : Spares (toolEnv application library imaging) c)
    (hreports : Reports (toolEnv application library imaging) c) : resolutions c = [] := by
  rcases h with h | h
  · exact h
  exfalso
  cases h with
  | aborted h => exact absurd (hlive.symm.trans h) (by simp)
  | refused hphase =>
    -- The exchange is over, and no handler that reports is armed any more.
    have hnot : ∀ e, c.phase = .expecting e → e ≠ .ended (.security _) _ → False :=
      fun e he hne => hne (Phase.expecting.inj (he.symm.trans hphase))
    cases hreports with
    | header hphase' _ => exact absurd (hphase'.symm.trans hphase) (by simp)
    | breaks _ hresumes _ =>
      cases hresumes with
      | pump hphase' _ => exact hnot _ hphase' (by simp)
      | rectangle hphase' _ _ _ => exact hnot _ hphase' (by simp)
    | auth hphase' => exact hnot _ hphase' (by simp)
    | securityTypes hphase' => exact hnot _ hphase' (by simp)
    | connFailed hphase' => exact hnot _ hphase' (by simp)
    | connMessage hphase' => exact hnot _ hphase' (by simp)
    | challenge hphase' => exact hnot _ hphase' (by simp [awaitingChallenge])
    | result hphase' => exact hnot _ hphase' (by simp [awaitingResult])
    | reason hphase' => exact hnot _ hphase' (by simp [awaitingReason])
    | serverName hphase' => exact hnot _ hphase' (by simp)
    | message hphase' => exact hnot _ hphase' (by simp)
    | encoding hphase' => exact hnot _ hphase' (by simp)
  | unanswered _ _ hpassword hchallenge => exact hchallenge (hspares.answered hreports hpassword)
  | connected h => exact hspares.session hreports (inSession_of_connected h)

/-- Behind a challenge without a password the exchange goes on up to the next report. -/
theorem fired_behind {e : Expected (Decoding codecs) Fields} {block : Block e.len}
    (hhands : Hands c e block) (hready : ready c = true)
    (hbehind : Behind (toolEnv application library imaging) e)
    (hpassword : c.attrs.factory.password = none) (hchallenge : c.attrs.challenge ≠ [])
    (hquiet : ¬Reports (toolEnv application library imaging) c) :
    let c' := client ((turn (toolEnv application library imaging)).run c)
    Fired application library imaging c' ∧ Pending c.attrs c'.attrs := by
  intro c'
  have hrun : c' = client ((handle (toolEnv application library imaging) e block).run
      { c with packet := c.packet.drop e.len }) := congrArg client (run_turn_of_hands _ hhands)
  rw [hrun]
  cases hbehind with
  | result secType =>
    obtain ⟨hphase, _, rfl⟩ := hhands
    generalize hblock : Block.ofPrefix _ c.packet _ = block
    have hbytes : block.bytes = c.packet.take 4 := by rw [← hblock]; rfl
    by_cases hzero : u32At block.bytes 0 = 0
    · rw [run_handle_awaitingResult_of_zero hzero]
      exact ⟨.unanswered rfl .serverInit hpassword hchallenge, rfl⟩
    by_cases hgt : 2 < u32At block.bytes 0
    · rw [run_handle_awaitingResult_of_gt hgt]
      exact ⟨.refused rfl, rfl⟩
    -- Only a failure before 3.8 reports here, and the client is quiet.
    have hfailed : u32At block.bytes 0 = 1 ∨ u32At block.bytes 0 = 2 := by omega
    by_cases hversion : Ver.le (3, 8) c.attrs.version
    · generalize hrest : ({ c with packet := c.packet.drop _ } : RFBClient (Decoding codecs) Fields) = d
      have hattrs : d.attrs = c.attrs := by rw [← hrest]
      rw [← hattrs] at hpassword hchallenge hversion ⊢
      rw [run_handle_awaitingResult_of_le hfailed hversion]
      exact ⟨.unanswered rfl (.reasonLength secType) hpassword hchallenge, rfl⟩
    · rw [hbytes] at hfailed
      exact absurd (.result hphase hready hversion hfailed) hquiet
  | reasonLength secType =>
    by_cases hle : u32At block.bytes 0 ≤ maxMessagePayload
    · rw [run_handle_awaitingReasonLength_of_le hle]
      exact ⟨.unanswered rfl (.reason secType _) hpassword hchallenge, rfl⟩
    · rw [run_handle_awaitingReasonLength_of_gt (Nat.not_le.mp hle)]
      exact ⟨.refused rfl, rfl⟩
  | reason secType waitfor => exact absurd (.reason hhands.1 hready) hquiet
  | serverInit => exact ⟨.unanswered rfl (.serverName _) hpassword hchallenge, rfl⟩
  | serverName namelen => exact absurd (.serverName hhands.1 hready) hquiet

/-- A handler call of a client that has reported, and spares the factory. -/
theorem fired_turn (h : Fired application library imaging c) (hready : ready c = true)
    (hspares : Spares (toolEnv application library imaging) c) :
    let c' := client ((turn (toolEnv application library imaging)).run c)
    Fired application library imaging c' ∧ Pending c.attrs c'.attrs := by
  intro c'
  obtain ⟨e, hphase, hlen, hlive⟩ := exists_of_ready hready
  cases h with
  | aborted h => exact absurd (hlive.symm.trans h) (by simp)
  | refused hphase' =>
    obtain rfl := Phase.expecting.inj (hphase.symm.trans hphase')
    have hrun : c' = client ((handle (toolEnv application library imaging) _ _).run _) :=
      congrArg client (run_turn _ hphase hlen)
    rw [hrun]
    exact ⟨.refused hphase', rfl⟩
  | unanswered hphase' hbehind hpassword hchallenge =>
    obtain rfl := Phase.expecting.inj (hphase.symm.trans hphase')
    exact fired_behind ⟨hphase, hlen, rfl⟩ hready hbehind hpassword hchallenge fun hreports =>
      hchallenge (hspares.answered hreports hpassword)
  | connected h =>
    obtain ⟨hpending, hconnected⟩ := (frame application library imaging).turn h hready
    exact ⟨.connected hconnected, hpending⟩

variable (application library imaging) in
/-- What is true of every point of a run that spares the factory. -/
structure Resolves (c : RFBClient (Decoding codecs) Fields) : Prop where
  heard : HeardAt (toolEnv application library imaging) c
  once : ResolvedOnce c
  stage : resolutions c = [] ∨ Fired application library imaging c
  /-- Where a TLS handshake is pending the client waits, and has not reported. -/
  pending : c.attrs.tlsHandshakePending = true →
    c.aborted = true ∨ resolutions c = [] ∧ ready c = false

/-- What a handler call comes to, for a client with no TLS handshake pending. -/
theorem Resolves.goes {c' : RFBClient (Decoding codecs) Fields} (h : Resolves application library imaging c)
    (hlive : c.aborted = false) (hclear : c.attrs.tlsHandshakePending = false)
    (hspares : Spares (toolEnv application library imaging) c)
    (hgoes : Goes application library imaging (Reports (toolEnv application library imaging) c) c c')
    (hfired : Fired application library imaging c →
      Fired application library imaging c' ∧ Pending c.attrs c'.attrs) :
    Resolves application library imaging c' := by
  -- No handshake of TLS was pending before the call, so none it did not start is pending after.
  have hclear' : Pending c.attrs c'.attrs → ¬c'.attrs.tlsHandshakePending = true := by
    intro hsame hpending
    exact absurd ((hsame.symm.trans hpending).symm.trans hclear) (by simp)
  rcases hgoes.comes with hspared | ⟨hreports, hreported⟩
  · -- Nothing is reported: the Deferred stays as it was.
    refine ⟨hgoes.heard, ⟨?_, fun habort => ?_⟩, ?_, fun hpending => ?_⟩
    · rw [hspared.resolutions]
      exact h.once.once
    · exact absurd ((hspared.aborted.symm.trans habort).symm.trans hlive) (by simp)
    · rcases h.stage with hnone | h
      · exact .inl (hspared.resolutions.trans hnone)
      · exact .inr (hfired h).1
    · rcases h.stage with hnone | h
      · have hwaits := hspared.pending.resolve_left fun hsame => hclear' hsame hpending
        exact .inr ⟨hspared.resolutions.trans hnone, hwaits⟩
      · exact absurd hpending (hclear' (hfired h).2)
  · -- It is reported, and the client spares the factory: this is the first time.
    obtain ⟨honce, hstage, hsame⟩ := hreported (unfired_of_reports h.stage hlive hspares hreports)
    exact ⟨hgoes.heard, honce, hstage, fun hpending =>
      .inl (hsame.resolve_right fun hsame => hclear' hsame hpending)⟩

theorem Resolves.deliver (h : Resolves application library imaging c) (hlive : c.aborted = false)
    (data : Bytes) (hspares : Spares (toolEnv application library imaging) (extend c data)) :
    Resolves application library imaging
      (client ((deliver (toolEnv application library imaging) data).run c)) := by
  have hextended : Resolves application library imaging (extend c data) := by
    refine ⟨h.heard, ⟨h.once.once, fun habort => ?_⟩, h.stage.imp_right fun h => h.extend data, nofun⟩
    exact absurd (hlive.symm.trans habort) (by simp)
  refine hextended.goes hlive rfl hspares (goes_deliver h.heard data) fun hfired => ?_
  obtain ⟨e, hphase⟩ := hfired.exists_phase hlive
  rw [run_deliver_of_expecting _ (show c.phase = .expecting e from hphase)]
  exact ⟨hfired, rfl⟩

theorem Resolves.turn (h : Resolves application library imaging c) (hready : ready c = true)
    (hspares : Spares (toolEnv application library imaging) c) :
    Resolves application library imaging
      (client ((turn (toolEnv application library imaging)).run c)) := by
  obtain ⟨_, _, _, hlive⟩ := exists_of_ready hready
  have hclear : c.attrs.tlsHandshakePending = false := by
    by_contra hpending
    rcases h.pending (by simpa using hpending) with habort | ⟨-, hwaits⟩
    · exact absurd (hlive.symm.trans habort) (by simp)
    · exact absurd (hready.symm.trans hwaits) (by simp)
  exact h.goes hlive hclear hspares (goes_turn h.heard hready hspares) fun hfired =>
    fired_turn hfired hready hspares

/-- Losing the connection reports a handshake of TLS that is not over. -/
theorem resolvedOnce_connectionLost (h : ResolvedOnce c) (reason : String)
    (hunfired : c.attrs.tlsHandshakePending = true → c.aborted = false → resolutions c = []) :
    ResolvedOnce (client ((connectionLost (toolEnv application library imaging) reason).run c)) := by
  unfold connectionLost
  rw [EStateM.run_bind, EStateM.run_get]
  simp only
  -- Only a pending handshake of an unaborted client is reported.
  split_ifs with hpending
  · obtain ⟨hpending, hlive⟩ := hpending
    have hlive : c.aborted = false := by simpa using hlive
    have hnone := hunfired hpending hlive
    simp only [EStateM.run_bind, run_onAttrs, EStateM.run_modify]
    generalize (s!"TLS handshake for {VeNCryptSubtypes.describe c.attrs.vencryptSubtype.value} failed " ++
      s!"({reason}); an untrusted certificate " ++
      s!"needs --tls-ca-cert or {VeNCrypt.insecureFlag}") = text
    have hcall : ((toolEnv application library imaging).call (.vncProtocolError text)).run
        { c.attrs with tlsHandshakePending := false } =
          .ok () (fired application (.protocolError text) { c.attrs with
            tlsHandshakePending := false
            log := c.attrs.log ++ [.called (.vncProtocolError text)] }) :=
      run_fire_of_nil (a := { c.attrs with
        tlsHandshakePending := false
        log := c.attrs.log ++ [.called (.vncProtocolError text)] }) hnone _
    rw [hcall]
    refine ⟨?_, fun habort => absurd habort (by simp [client, hlive])⟩
    exact Nat.le_of_eq (congrArg List.length (resolutions_fired _ _))
  · exact h

end

variable {factory : Factory} {options : Options} {pixelFormat : Option PixelFormat}
  {encodings : Option (List ℤ)} {jpegQuality : Option ℕ} {received : Bytes}
  {d : Delivery (Decoding codecs) Fields}

/-- In a run in which every handler call spares the factory, the Deferred is fired at most once and
every abort closes the connection, also when the connection is lost. -/
theorem resolved_once
    (h : ReachesBy (Spares (toolEnv application library imaging)) (toolEnv application library imaging)
      (build factory options pixelFormat encodings jpegQuality) received d) :
    ResolvedOnce (client d) ∧ ∀ reason, ResolvedOnce (client
      ((connectionLost (toolEnv application library imaging) reason).run (client d))) := by
  have hresolves : Resolves application library imaging (client d) := by
    induction h with
    | start => exact ⟨fun _ => nofun, ⟨Nat.zero_le 1, nofun⟩, .inl rfl, nofun⟩
    | delivered data _ _ hlive hgood ih => exact ih.deliver hlive data hgood
    | dropped data _ _ _ ih => exact ih
    | turned _ hready hgood ih => exact ih.turn hready hgood
  refine ⟨hresolves.once, fun reason => resolvedOnce_connectionLost hresolves.once reason ?_⟩
  intro hpending hlive
  rcases hresolves.pending hpending with habort | ⟨hnone, -⟩
  · exact absurd (hlive.symm.trans habort) (by simp)
  · exact hnone

/-- The surroundings of a client that is only connected. -/
abbrev idleEnv : Env (Decoding Decoders.sampleCodecs) Fields :=
  toolEnv idleApplication sampleLibrary sampleImaging

/-- A client before anything is delivered to it. -/
abbrev idleClient : RFBClient (Decoding Decoders.sampleCodecs) Fields := build {} {} none none none

/-- A server of version 3.3 that dictates a security type the client does not support. -/
def unsupportedType : Bytes := versionMessage (3, 3) ++ be32 5

/-- The client reports that, stops and closes the connection, and stays so when that is lost. -/
theorem resolved_once_unsupported :
    let c := client ((turn idleEnv).run (client ((deliver idleEnv unsupportedType).run idleClient)))
    c.aborted = true ∧ (resolutions c).length = 1 ∧ ResolvedOnce c ∧
      ∀ reason, ResolvedOnce (client ((connectionLost idleEnv reason).run c)) := by
  intro c
  have hheader : Spares idleEnv (extend idleClient unsupportedType) :=
    ⟨fun _ => id, fun _ _ => rfl, fun _ _ => nofun⟩
  have hauth : Spares idleEnv (client ((deliver idleEnv unsupportedType).run idleClient)) :=
    ⟨fun _ => id, fun _ _ => rfl, fun _ _ => nofun⟩
  have hrun : ReachesBy (Spares idleEnv) idleEnv idleClient unsupportedType
      ((turn idleEnv).run (client ((deliver idleEnv unsupportedType).run idleClient))) :=
    .turned (.delivered unsupportedType .start rfl rfl hheader) rfl hauth
  obtain ⟨honce, hlost⟩ := resolved_once hrun
  exact ⟨rfl, rfl, honce, hlost⟩

/-- A server that completes the handshake and goes on with a message the client does not know. -/
def unknownMessage : Bytes :=
  versionMessage (3, 3) ++ [0, 0, 0, 1] ++
    [0, 1, 0, 1, 32, 24, 0, 1, 0, 255, 0, 255, 0, 255, 0, 8, 16, 0, 0, 0, 0, 0, 0, 0] ++ [9]

/-- That client after the delivery and so many turns of the loop. -/
abbrev afterUnknownMessage : ℕ → RFBClient (Decoding Decoders.sampleCodecs) Fields
  | 0 => client ((deliver idleEnv unknownMessage).run idleClient)
  | n + 1 => client ((turn idleEnv).run (afterUnknownMessage n))

/-- The abort reports after the handshake has: that raises, and the connection is not closed. -/
theorem not_resolved_once :
    ∃ received d, Reaches idleEnv idleClient received d ∧ (client d).aborted = true ∧
      (resolutions (client d)).length = 2 ∧ Event.loseConnection ∉ (client d).attrs.log ∧
      ¬ResolvedOnce (client d) := by
  have hdelivered : Reaches idleEnv idleClient unknownMessage (.ok () (afterUnknownMessage 0)) :=
    (Reaches.delivered unknownMessage .start (by rfl) (by rfl)).returned (by rfl)
  have hauth : Reaches idleEnv idleClient unknownMessage (.ok () (afterUnknownMessage 1)) :=
    (hdelivered.turned (by rfl)).returned (by rfl)
  have hserverInit : Reaches idleEnv idleClient unknownMessage (.ok () (afterUnknownMessage 2)) :=
    (hauth.turned (by rfl)).returned (by rfl)
  have hname : Reaches idleEnv idleClient unknownMessage (.ok () (afterUnknownMessage 3)) :=
    (hserverInit.turned (by rfl)).returned (by rfl)
  have hmessage := hname.turned (by rfl)
  have htwice : (resolutions (client ((turn idleEnv).run (afterUnknownMessage 3)))).length = 2 := by
    rfl
  refine ⟨unknownMessage, _, hmessage, by rfl, htwice, by decide, fun h => ?_⟩
  exact absurd h.once (by simp [htwice])

end VNCDoToolClient

end VncDoTool
