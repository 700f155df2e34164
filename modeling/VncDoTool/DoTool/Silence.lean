import VncDoTool.DoTool.Client
import VncDoTool.Client.Startup

/-!
# Code that reports nothing

What `VNCDoToolClient` runs without a call of the factory, and without beginning a TLS handshake.

* `VNCDoToolClient.Silent`: what such code does to the attributes; `VNCDoToolClient.mum_callback`: the
  methods that do no more.
* `VNCDoToolClient.discreet_messageHandler`: the generators of messages.
* `VNCDoToolClient.Muted`: a generator of the handshake, up to where it waits for a challenge or for
  the SecurityResult; `VNCDoToolClient.muted_securityHandler`: all of them.
-/

namespace VncDoTool

namespace VNCDoToolClient

open RFBClient

variable {codecs : Codecs} {application : Application codecs} {library : Library}
  {imaging : Imaging}

/-- The client under the factory of the tool. -/
abbrev toolEnv (application : Application codecs) (library : Library) (imaging : Imaging) :
    Env (Decoding codecs) Fields := env (factoryHooks application) library imaging

/-! ## Code that reports nothing -/

/-- Nothing was reported in between, and no TLS handshake begun. -/
structure Silent (a a' : State codecs) : Prop where
  resolutions : a'.own.resolutions = a.own.resolutions
  pending : a'.tlsHandshakePending = a.tlsHandshakePending

theorem Silent.refl (a : State codecs) : Silent a a := ⟨rfl, rfl⟩

theorem Silent.trans {a a' a'' : State codecs} (h : Silent a a') (h' : Silent a' a'') :
    Silent a a'' := ⟨h'.resolutions.trans h.resolutions, h'.pending.trans h.pending⟩

/-- Straight-line code that reports nothing. -/
abbrev Mum {α : Type} (m : Py (State codecs) α) : Prop := Effect.Does Silent m

section

variable {α β : Type}

theorem mum_pure (v : α) : Mum (pure v : Py (State codecs) α) := Effect.does_pure Silent.refl v

theorem mum_throw (e : PyErr) : Mum (throw e : Py (State codecs) α) := Effect.does_throw Silent.refl e

theorem mum_bind {m : Py (State codecs) α} {f : α → Py (State codecs) β} (hm : Mum m)
    (hf : ∀ v, Mum (f v)) : Mum (m >>= f) :=
  Effect.does_bind (fun _ _ _ h h' => h.trans h') hm hf

theorem mum_get_bind {f : State codecs → Py (State codecs) α} (h : ∀ a, Mum (f a)) :
    Mum (get >>= f) := Effect.does_get_bind fun a => h a a

theorem mum_modify {f : State codecs → State codecs} (h : ∀ a, Silent a (f a)) :
    Mum (modify f : Py (State codecs) Unit) := Effect.does_modify h

theorem mum_setFields {f : Fields → Fields} (h : ∀ s, (f s).resolutions = s.resolutions) :
    Mum (setFields f : Py (State codecs) Unit) := mum_modify fun a => ⟨h a.own, rfl⟩

theorem mum_emit (e : Event) : Mum (Attrs.emit e : Py (State codecs) Unit) := fun _ => ⟨rfl, rfl⟩

theorem mum_write (what : Written) (data : Bytes) :
    Mum (Attrs.write what data : Py (State codecs) Unit) := mum_emit _

theorem mum_ofExcept (v : Except PyErr α) : Mum (RFBClient.ofExcept v : Py (State codecs) α) := by
  cases v with
  | ok v => exact mum_pure v
  | error e => exact mum_throw e

theorem mum_encoded (v : Except EncodeError Bytes) : Mum (encoded v : Py (State codecs) Bytes) := by
  rcases v with e | v
  · cases e <;> exact mum_throw _
  · exact mum_pure v

end

theorem mum_sendPassword (password : String) :
    Mum (sendPassword library password : Py (State codecs) Unit) := by
  unfold sendPassword
  refine mum_bind (mum_ofExcept _) fun key => mum_get_bind fun a => ?_
  exact mum_write _ _

theorem mum_setPixelFormat (pixelFormat : PixelFormat) :
    Mum (setPixelFormat pixelFormat : Py (State codecs) Unit) := by
  unfold setPixelFormat
  refine mum_bind (mum_encoded _) fun message => ?_
  refine mum_bind (mum_write _ _) fun _ => ?_
  exact mum_modify fun _ => ⟨rfl, rfl⟩

theorem mum_setEncodings (encodings : List ℤ) :
    Mum (setEncodings encodings : Py (State codecs) Unit) := by
  unfold setEncodings
  refine mum_bind (mum_encoded _) fun message => ?_
  refine mum_bind (mum_write _ _) fun _ => ?_
  exact mum_modify fun _ => ⟨rfl, rfl⟩

theorem mum_framebufferUpdateRequest : Mum (framebufferUpdateRequest : Py (State codecs) Unit) := by
  unfold framebufferUpdateRequest
  refine mum_get_bind fun a => mum_bind (mum_encoded _) fun message => ?_
  exact mum_write _ _

theorem Attends.silent {a a' : State codecs} (h : Attends a a') : Silent a a' := by
  obtain ⟨own, decoding, pixelFormat, es, rfl, hresolutions, -⟩ := h
  exact ⟨hresolutions, rfl⟩

theorem mum_commitUpdate (rectangles : List Rect) :
    Mum (commitUpdate (factoryHooks application) rectangles) := by
  unfold commitUpdate
  refine mum_get_bind fun a => ?_
  split_ifs
  · exact mum_framebufferUpdateRequest
  · refine mum_bind (mum_setFields fun _ => rfl) fun _ => ?_
    exact mum_framebufferUpdateRequest
  · refine mum_bind (mum_setFields fun _ => rfl) fun _ => ?_
    exact mum_modify fun a => (application.attends_refreshed a).silent
  · exact mum_pure ()

theorem mum_rawModeFor (pixelFormat : PixelFormat) :
    Mum (rawModeFor pixelFormat : Py (State codecs) (Option RawMode)) := by
  unfold rawModeFor
  refine mum_get_bind fun a => ?_
  split_ifs
  · refine mum_bind (mum_setFields fun _ => rfl) fun _ => ?_
    split
    · exact mum_throw _
    · refine mum_bind (mum_setFields fun _ => rfl) fun _ => ?_
      exact mum_pure _
  · exact mum_pure _

theorem mum_updateRectangle (rect : Rect) (data : Bytes) (pixelFormat : PixelFormat) :
    Mum (updateRectangle imaging rect data pixelFormat : Py (State codecs) Unit) := by
  unfold updateRectangle
  split_ifs
  · exact mum_pure ()
  · refine mum_bind (mum_rawModeFor _) fun mode => ?_
    refine mum_bind (mum_ofExcept _) fun update => ?_
    exact mum_modify fun _ => ⟨rfl, rfl⟩

theorem mum_copyRectangle (srcx srcy : ℕ) (rect : Rect) :
    Mum (copyRectangle srcx srcy rect : Py (State codecs) Unit) := by
  unfold copyRectangle
  refine mum_get_bind fun a => ?_
  split
  · exact mum_pure ()
  · exact mum_setFields fun _ => rfl

theorem mum_updateCursor (rect : Rect) (image mask : Bytes) :
    Mum (updateCursor imaging rect image mask : Py (State codecs) Unit) := by
  unfold updateCursor
  refine mum_get_bind fun a => ?_
  split_ifs
  · exact mum_pure ()
  · exact mum_setFields fun _ => rfl
  · refine mum_bind (mum_ofExcept _) fun cursor => ?_
    exact mum_setFields fun _ => rfl

theorem mum_updateDesktopSize (width height : ℕ) :
    Mum (updateDesktopSize width height : Py (State codecs) Unit) := by
  unfold updateDesktopSize
  split_ifs
  · exact mum_modify fun _ => ⟨rfl, rfl⟩
  · exact mum_throw _

/-- The methods that report to the factory. -/
def reporting : RFBClient.Callback → Bool
  | .vncConnectionMade | .vncRequestPassword | .vncAuthFailed _ | .vncProtocolError _ => true
  | _ => false

theorem mum_callback {method : RFBClient.Callback} (h : reporting method = false) :
    Mum (callback (factoryHooks application) library imaging method) := by
  cases method with
  | vncConnectionMade => exact absurd h (by simp [reporting])
  | vncRequestPassword => exact absurd h (by simp [reporting])
  | vncAuthFailed reason => exact absurd h (by simp [reporting])
  | vncProtocolError reason => exact absurd h (by simp [reporting])
  | beginUpdate => exact mum_pure ()
  | commitUpdate rectangles => exact mum_commitUpdate rectangles
  | updateRectangle rect data pixelFormat => exact mum_updateRectangle rect data pixelFormat
  | copyRectangle srcx srcy rect => exact mum_copyRectangle srcx srcy rect
  | updateCursor rect image mask => exact mum_updateCursor rect image mask
  | updatePointerPos x y => exact mum_modify fun _ => ⟨rfl, rfl⟩
  | updateDesktopSize width height => exact mum_updateDesktopSize width height
  | setColorMap first colors => exact mum_pure ()
  | bell => exact mum_pure ()
  | copyText text => exact mum_pure ()

theorem mum_call {method : RFBClient.Callback} (h : reporting method = false) :
    Mum ((toolEnv application library imaging).call method) :=
  mum_bind (mum_emit _) fun _ => mum_callback h

theorem not_reporting_of_paints {method : RFBClient.Callback} (h : method.paints = true) :
    reporting method = false := by
  cases method <;> first | rfl | exact absurd h (by simp [Callback.paints])

/-! ## Generators that report nothing -/

/-- The contract of a generator that reports nothing, and looks at no more than the bytes it reads. -/
def discreet : Coroutine.Contract Request PyErr (State codecs) where
  meanwhile _ _ := True
  does := Silent
  asks y := y ≠ .packet
  raises _ := True
  refl := Silent.refl
  trans := Silent.trans

/-- A run of such a generator. -/
abbrev Discreet {α : Type} (a : State codecs) (x : GenStep (Decoding codecs) Fields α) : Prop :=
  x.Honours discreet (fun _ _ => True) a

section

variable {α β : Type} {a : State codecs}

theorem discreet_bind {m : Gen (Decoding codecs) Fields α} {f : α → Gen (Decoding codecs) Fields β}
    (hm : Discreet a (m.run a)) (hf : ∀ v t, Discreet t ((f v).run t)) :
    Discreet a ((m >>= f).run a) := Coroutine.honours_bind hm fun v t _ => hf v t

theorem discreet_read (n : ℕ) : Discreet a ((Gen.read n).run a) :=
  Coroutine.honours_yield (by simp [discreet]) fun _ _ _ => trivial

theorem discreet_pure (v : α) : Discreet a ((pure v : Gen (Decoding codecs) Fields α).run a) :=
  Coroutine.honours_pure trivial

theorem discreet_raise (cls : ErrorClass) (message : String) :
    Discreet a ((Gen.raise cls message : Gen (Decoding codecs) Fields α).run a) :=
  Coroutine.honours_throw trivial

theorem discreet_get_bind {f : State codecs → Gen (Decoding codecs) Fields α}
    (h : Discreet a ((f a).run a)) : Discreet a ((Coroutine.get >>= f).run a) := h

theorem discreet_modify {f : State codecs → State codecs} (h : ∀ a, Silent a (f a)) :
    Discreet a ((Coroutine.modify f : Gen (Decoding codecs) Fields Unit).run a) :=
  Coroutine.honours_modify (h a) trivial

theorem discreet_lift {m : Py (State codecs) α} (h : Mum m) : Discreet a ((Gen.lift m).run a) :=
  Gen.honours_lift_of_does h (fun _ => trivial) a

theorem discreet_requirePayload (length : ℕ) :
    Discreet a ((requirePayload length : Gen (Decoding codecs) Fields Unit).run a) := by
  unfold requirePayload
  split_ifs
  · exact discreet_raise _ _
  · exact discreet_pure ()

end

/-- No message handler reports. -/
theorem discreet_messageHandler {msgid : ℕ} {handler : Gen (Decoding codecs) Fields Unit}
    (h : messageHandler (toolEnv application library imaging) msgid = some handler)
    (a : State codecs) : Discreet a (handler.run a) := by
  unfold messageHandler at h
  split_ifs at h
  -- SetColourMapEntries, Bell, ServerCutText and ServerFence: the last may write an answer.
  all_goals
    obtain rfl := Option.some.inj h
  · unfold setColourMapEntriesHandler
    refine discreet_bind (discreet_read 5) fun header a => ?_
    refine discreet_bind (discreet_requirePayload _) fun _ a => ?_
    refine discreet_bind (discreet_read _) fun block a => ?_
    exact discreet_lift (mum_call rfl)
  · exact discreet_lift (mum_call rfl)
  · unfold serverCutTextHandler
    refine discreet_bind (discreet_read 7) fun header a => ?_
    refine discreet_bind (discreet_requirePayload _) fun _ a => ?_
    refine discreet_bind (discreet_read _) fun text a => ?_
    exact discreet_lift (mum_call rfl)
  · have hanswer : ∀ flags payload, Mum (answerFence flags payload : Py (State codecs) Unit) := by
      intro flags payload
      unfold answerFence
      generalize clientFence (flags &&& knownFlags : ℕ) payload = fence
      split_ifs
      · exact mum_bind (mum_encoded fence) fun _ => mum_write _ _
      · exact mum_pure ()
    unfold serverFenceHandler
    refine discreet_bind (discreet_read 8) fun header a => ?_
    dsimp only
    split_ifs
    · exact discreet_lift (hanswer _ _)
    · refine discreet_bind (discreet_read _) fun payload a => ?_
      exact discreet_lift (hanswer _ _)

/-- The run waits for a challenge or for the SecurityResult, in a state to which nothing was reported
from `t` on. -/
inductive Speaks (env : Env (Decoding codecs) Fields) (t : State codecs) :
    GenStep (Decoding codecs) Fields Bool → Prop
  | challenge {a : State codecs} (h : a.own.resolutions = t.own.resolutions) :
      Speaks env t ((vncAuthenticationHandler env).run a)
  | result {a : State codecs} (h : a.own.resolutions = t.own.resolutions) :
      Speaks env t ((securityResult env).run a)

/-- From `a` on nothing is reported before the run waits for a challenge or for the SecurityResult,
and a TLS handshake is begun right before it does, with no bytes waiting. -/
def Muted (env : Env (Decoding codecs) Fields) :
    State codecs → GenStep (Decoding codecs) Fields Bool → Prop
  | a, .done a' _ => Silent a a'
  | a, .failed a' _ => Silent a a'
  | a, .yielded a' (.bytes n) resume =>
    Silent a a' ∧ (Speaks env a' (.yielded a' (.bytes n) resume) ∨ ∀ r t, Muted env t (resume r t))
  | a, .yielded a' .packet resume =>
    Silent a a' ∧ (∀ t, Muted env t (resume true t)) ∧
      ∀ t, (∃ t' e, resume false t = .failed t' e ∧ Silent t t') ∨ Speaks env t (resume false t)

section

variable {env : Env (Decoding codecs) Fields} {α : Type} {a : State codecs}

theorem Muted.from_earlier {a₀ : State codecs} {x : GenStep (Decoding codecs) Fields Bool}
    (hsilent : Silent a₀ a) (h : Muted env a x) : Muted env a₀ x := by
  cases x with
  | done a' v => exact hsilent.trans h
  | failed a' e => exact hsilent.trans h
  | yielded a' y resume => cases y <;> exact ⟨hsilent.trans h.1, h.2⟩

/-- What reports nothing, and then what is muted. -/
theorem muted_bind {m : Gen (Decoding codecs) Fields α} {f : α → Gen (Decoding codecs) Fields Bool}
    (hm : Discreet a (m.run a)) (hf : ∀ v t, Muted env t ((f v).run t)) :
    Muted env a ((m >>= f).run a) := by
  rw [Coroutine.run_bind]
  generalize m.run a = x at hm
  induction x generalizing a with
  | done a' v => exact (hf v a').from_earlier hm.1
  | failed a' e => exact hm.1
  | yielded a' y resume ih =>
    cases y with
    | bytes n => exact ⟨hm.1, .inr fun r t => ih r t (hm.2.2 r t trivial)⟩
    | packet => exact absurd rfl hm.2.1

theorem muted_securityResult : Muted env a ((securityResult env).run a) :=
  ⟨Silent.refl a, .inl (.result rfl)⟩

theorem muted_vncAuthenticationHandler : Muted env a ((vncAuthenticationHandler env).run a) :=
  ⟨Silent.refl a, .inl (.challenge rfl)⟩

theorem muted_noneHandler : Muted env a ((noneHandler env).run a) := by
  unfold noneHandler
  rw [Coroutine.run_bind, Coroutine.run_get, Coroutine.Step.bind_done]
  split_ifs
  · exact muted_securityResult
  · exact Silent.refl a

theorem muted_diffieHellmanHandler : Muted env a ((diffieHellmanHandler env).run a) := by
  unfold diffieHellmanHandler
  refine muted_bind (discreet_read 4) fun header a => ?_
  refine muted_bind (discreet_read _) fun modulus a => ?_
  refine muted_bind (discreet_read _) fun serverKey a => ?_
  refine muted_bind (discreet_lift (mum_modify fun _ => ⟨rfl, rfl⟩)) fun _ a => ?_
  refine muted_bind (discreet_get_bind (discreet_pure a)) fun a' a => ?_
  refine muted_bind (discreet_lift (mum_ofExcept _)) fun response a => ?_
  refine muted_bind (discreet_lift (mum_write _ _)) fun _ a => ?_
  exact muted_securityResult

theorem discreet_agreeOnVersion : Discreet a ((agreeOnVersion : Gen (Decoding codecs) Fields Unit).run a) := by
  unfold agreeOnVersion
  refine discreet_bind (discreet_read 2) fun offer a => ?_
  dsimp only
  split_ifs
  · refine discreet_bind (discreet_lift (mum_write _ _)) fun _ a => ?_
    refine discreet_bind (discreet_read 1) fun ack a => ?_
    split_ifs
    · exact discreet_raise _ _
    · exact discreet_pure ()
  · exact discreet_raise _ _

theorem discreet_requestSubtype :
    Discreet a ((requestSubtype : Gen (Decoding codecs) Fields VeNCryptSubtypes).run a) := by
  unfold requestSubtype
  refine discreet_bind (discreet_read 1) fun count a => ?_
  dsimp only
  split_ifs
  · exact discreet_raise _ _
  · refine discreet_bind (discreet_read _) fun block a => ?_
    refine discreet_get_bind ?_
    split
    · exact discreet_raise _ _
    · refine discreet_bind (discreet_modify fun _ => ⟨rfl, rfl⟩) fun _ a => ?_
      refine discreet_bind (discreet_lift (mum_write _ _)) fun _ a => ?_
      exact discreet_pure _

/-- Inside the tunnel of VeNCrypt the client waits at once. -/
theorem speaks_authenticateInside (chosen : VeNCryptSubtypes) {t : State codecs}
    (h : a.own.resolutions = t.own.resolutions) :
    Speaks env t ((authenticateInside env chosen >>= fun _ => securityResult env).run a) := by
  unfold authenticateInside
  split_ifs
  · exact .challenge h
  · exact .result h
  · exact .result h

theorem muted_startTunnel (chosen : VeNCryptSubtypes) :
    Muted env a ((startTunnel env chosen >>= fun _ =>
      authenticateInside env chosen >>= fun _ => securityResult env).run a) := by
  refine ⟨Silent.refl a, .inr fun ack t => ?_⟩
  change Muted env t (((if byteAt ack.bytes 0 ≠ 1 then _ else _ : Gen (Decoding codecs) Fields Unit) >>=
    fun _ => authenticateInside env chosen >>= fun _ => securityResult env).run t)
  split_ifs
  · exact Silent.refl t
  · refine ⟨Silent.refl t, fun _ => Silent.refl _, fun t => ?_⟩
    simp only [Coroutine.run_bind, Coroutine.run_get, Coroutine.Step.bind_done, Bool.false_eq_true,
      if_false]
    cases hoptions : VeNCrypt.clientOptions env.library.optionsError chosen (tlsPolicy t) with
    | error error =>
      exact .inl ⟨t, ⟨.securityError, s!"cannot start TLS for VeNCrypt: {error}"⟩, rfl, Silent.refl t⟩
    | ok options =>
      exact .inr (speaks_authenticateInside chosen
        (a := { t with tlsHandshakePending := true, log := t.log ++ [.startTLS options] }) rfl)

theorem muted_vencryptHandler : Muted env a ((vencryptHandler env).run a) := by
  unfold vencryptHandler
  refine muted_bind discreet_agreeOnVersion fun _ a => ?_
  refine muted_bind discreet_requestSubtype fun chosen a => ?_
  exact muted_startTunnel chosen

theorem muted_securityHandler {secType : ℕ} {handler : Gen (Decoding codecs) Fields Bool}
    (h : securityHandler env secType = some handler) (a : State codecs) :
    Muted env a (handler.run a) := by
  unfold securityHandler at h
  split_ifs at h
  all_goals
    obtain rfl := Option.some.inj h
  · exact muted_noneHandler
  · exact muted_vncAuthenticationHandler
  · exact muted_vencryptHandler
  · exact muted_diffieHellmanHandler

end

end VNCDoToolClient

end VncDoTool
