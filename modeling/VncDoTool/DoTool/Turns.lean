import VncDoTool.Client.Effects
import VncDoTool.Decoders.Outcomes
import VncDoTool.DoTool.Client

/-!
# The screen over a turn

What a turn of the loop does to the screen, to the refresh that waits, and to the rectangles recorded
for the current update.

* `VNCDoToolClient.Keeps`: none of these is touched, and no method of an update is called.
* `VNCDoToolClient.Audience`: what the client reports to, where what an application makes of a report
  is not part of the turn.
* `VNCDoToolClient.conclude`, `VNCDoToolClient.settle`: how a rectangle is recorded and an update ended.
* `VNCDoToolClient.Beat`: what a turn comes to once the server has announced its framebuffer.
* `VNCDoToolClient.TunedAt`: the parked generator does nothing else either.
* `VNCDoToolClient.turn_starting`, `VNCDoToolClient.turn_started`: every turn.
-/

namespace VncDoTool

namespace VNCDoToolClient

open RFBClient

variable {codecs : Codecs}

/-- The screen, the refresh that waits and the recorded rectangles are as they were, and no method of
an update was called. -/
structure Keeps (a a' : State codecs) : Prop where
  width : a'.width = a.width
  height : a'.height = a.height
  screen : a'.own.screen = a.own.screen
  deferred : a'.own.deferred = a.own.deferred
  fullscreen : a'.own.fullscreen = a.own.fullscreen
  warnings : a'.own.warnings = a.own.warnings
  rectanglePos : a'.rectanglePos = a.rectanglePos
  log : ∃ es, a'.log = a.log ++ es ∧ ∀ e ∈ es, Event.updates e = false

namespace Keeps

variable {a a' a'' : State codecs}

theorem refl (a : State codecs) : Keeps a a :=
  ⟨rfl, rfl, rfl, rfl, rfl, rfl, rfl, [], by simp, by simp⟩

theorem trans (h : Keeps a a') (h' : Keeps a' a'') : Keeps a a'' where
  width := h'.width.trans h.width
  height := h'.height.trans h.height
  screen := h'.screen.trans h.screen
  deferred := h'.deferred.trans h.deferred
  fullscreen := h'.fullscreen.trans h.fullscreen
  warnings := h'.warnings.trans h.warnings
  rectanglePos := h'.rectanglePos.trans h.rectanglePos
  log := by
    obtain ⟨es, hlog, hes⟩ := h.log
    obtain ⟨es', hlog', hes'⟩ := h'.log
    refine ⟨es ++ es', by rw [hlog', hlog, List.append_assoc], fun e he => ?_⟩
    rcases List.mem_append.mp he with he | he
    · exact hes e he
    · exact hes' e he

/-- A change that shows nothing to the outside world. -/
theorem unseen (hsize : a'.width = a.width ∧ a'.height = a.height)
    (hown : a'.own.screen = a.own.screen ∧ a'.own.deferred = a.own.deferred ∧
      a'.own.fullscreen = a.own.fullscreen ∧ a'.own.warnings = a.own.warnings)
    (hpos : a'.rectanglePos = a.rectanglePos) (hlog : a'.log = a.log) : Keeps a a' :=
  ⟨hsize.1, hsize.2, hown.1, hown.2.1, hown.2.2.1, hown.2.2.2, hpos, [], by simp [hlog], by simp⟩

theorem quiet (h : Quiet a a') : Keeps a a' := by
  obtain ⟨decoding, encodings, rfl⟩ := h
  exact unseen ⟨rfl, rfl⟩ ⟨rfl, rfl, rfl, rfl⟩ rfl rfl

theorem emit (a : State codecs) {e : Event} (he : Event.updates e = false) :
    Keeps a { a with log := a.log ++ [e] } :=
  ⟨rfl, rfl, rfl, rfl, rfl, rfl, rfl, [e], rfl, by simpa using he⟩

end Keeps

/-- Straight-line code that keeps the screen. -/
abbrev Stays {α : Type} (m : Py (State codecs) α) : Prop := Effect.Does Keeps m

/-- What the client reports to. What the code that waits for a report then does is a step of its own:
a report is the last thing a handler does but for parking the next one. -/
structure Audience (codecs : Codecs) : Type extends Hooks codecs where
  stays_report : ∀ resolution, Stays (report resolution)
  keeps_refreshed : ∀ a, Keeps a (refreshed a)

/-- The client under such an audience. -/
abbrev stageEnv (audience : Audience codecs) (library : Library) (imaging : Imaging) :
    Env (Decoding codecs) Fields := env audience.toHooks library imaging

section

variable {α β : Type}

theorem stays_pure (v : α) : Stays (pure v : Py (State codecs) α) := Effect.does_pure Keeps.refl v

theorem stays_throw (e : PyErr) : Stays (throw e : Py (State codecs) α) :=
  Effect.does_throw Keeps.refl e

theorem stays_bind {m : Py (State codecs) α} {f : α → Py (State codecs) β} (hm : Stays m)
    (hf : ∀ v, Stays (f v)) : Stays (m >>= f) :=
  Effect.does_bind (fun _ _ _ h h' => h.trans h') hm hf

theorem stays_get_bind {f : State codecs → Py (State codecs) α} (h : ∀ a, Stays (f a)) :
    Stays (get >>= f) := Effect.does_get_bind fun a => h a a

theorem stays_emit {e : Event} (he : Event.updates e = false) :
    Stays (Attrs.emit e : Py (State codecs) Unit) := fun a => Keeps.emit a he

theorem stays_write (what : Written) (data : Bytes) :
    Stays (Attrs.write what data : Py (State codecs) Unit) := stays_emit rfl

theorem stays_loseConnection : Stays (Attrs.loseConnection : Py (State codecs) Unit) := stays_emit rfl

theorem stays_ofExcept (v : Except PyErr α) :
    Stays (RFBClient.ofExcept v : Py (State codecs) α) := by
  cases v with
  | ok v => exact stays_pure v
  | error e => exact stays_throw e

theorem stays_encoded (v : Except EncodeError Bytes) :
    Stays (encoded v : Py (State codecs) Bytes) := by
  rcases v with e | v
  · cases e <;> exact stays_throw _
  · exact stays_pure v

/-- A change of attributes that the screen has nothing to do with. -/
theorem stays_modify {f : State codecs → State codecs}
    (h : ∀ a, (f a).width = a.width ∧ (f a).height = a.height ∧ (f a).own = a.own ∧
      (f a).rectanglePos = a.rectanglePos ∧ (f a).log = a.log) :
    Stays (modify f : Py (State codecs) Unit) := fun a => by
  obtain ⟨hwidth, hheight, hown, hpos, hlog⟩ := h a
  exact Keeps.unseen ⟨hwidth, hheight⟩
    ⟨congrArg Fields.screen hown, congrArg Fields.deferred hown, congrArg Fields.fullscreen hown,
      congrArg Fields.warnings hown⟩
    hpos hlog

end

/-! ## The methods that are no part of an update -/

section

variable (audience : Audience codecs) (library : Library) (imaging : Imaging)

theorem stays_requestPixelFormat (pixelFormat : PixelFormat) :
    Stays (requestPixelFormat audience.toHooks pixelFormat) := by
  unfold requestPixelFormat
  split
  · unfold callProtocolError
    refine stays_bind (stays_bind (stays_emit rfl) fun _ => audience.stays_report _) fun _ => ?_
    exact stays_loseConnection
  · unfold setPixelFormat
    refine stays_bind (stays_bind (stays_encoded _) fun message => ?_) fun _ => ?_
    · refine stays_bind (stays_write _ _) fun _ => ?_
      exact stays_modify fun _ => ⟨rfl, rfl, rfl, rfl, rfl⟩
    · exact fun a => Keeps.unseen ⟨rfl, rfl⟩ ⟨rfl, rfl, rfl, rfl⟩ rfl rfl

theorem stays_setImageMode : Stays (setImageMode audience.toHooks) := by
  unfold setImageMode
  refine stays_get_bind fun a => ?_
  split
  · exact stays_requestPixelFormat audience _
  · split
    · exact fun a => Keeps.unseen ⟨rfl, rfl⟩ ⟨rfl, rfl, rfl, rfl⟩ rfl rfl
    · exact stays_requestPixelFormat audience _

theorem stays_vncConnectionMade : Stays (vncConnectionMade audience.toHooks) := by
  unfold vncConnectionMade
  refine stays_bind (stays_setImageMode audience) fun _ => stays_get_bind fun a => ?_
  have hoffer : ∀ quality, Stays (setEncodings (offeredEncodings a.own ++ quality) >>= fun _ =>
      audience.report .connectionMade) := by
    intro quality
    refine stays_bind ?_ fun _ => audience.stays_report _
    unfold setEncodings
    refine stays_bind (stays_encoded _) fun message => stays_bind (stays_write _ _) fun _ => ?_
    exact stays_modify fun _ => ⟨rfl, rfl, rfl, rfl, rfl⟩
  dsimp only
  split
  · exact stays_bind (stays_pure _) hoffer
  · refine stays_bind (stays_ofExcept _) fun encoding => ?_
    exact stays_bind (stays_pure _) hoffer

theorem stays_sendPassword (password : String) :
    Stays (sendPassword library password : Py (State codecs) Unit) := by
  unfold sendPassword
  refine stays_bind (stays_ofExcept _) fun key => stays_get_bind fun a => ?_
  exact stays_write _ _

theorem stays_vncRequestPassword : Stays (vncRequestPassword audience.toHooks library) := by
  unfold vncRequestPassword
  refine stays_get_bind fun a => ?_
  split
  · exact stays_bind stays_loseConnection fun _ => audience.stays_report _
  · exact stays_sendPassword _ _

/-- A method that is no part of an update keeps the screen. -/
theorem stays_call (method : RFBClient.Callback) (h : Event.updates (.called method) = false) :
    Stays ((stageEnv audience library imaging).call method) := by
  refine stays_bind (stays_emit h) fun _ => ?_
  cases method with
  | vncConnectionMade => exact stays_vncConnectionMade audience
  | vncRequestPassword => exact stays_vncRequestPassword audience library
  | vncAuthFailed reason => exact audience.stays_report _
  | vncProtocolError reason => exact audience.stays_report _
  | setColorMap first colors => exact stays_pure ()
  | bell => exact stays_pure ()
  | copyText text => exact stays_pure ()
  | beginUpdate => exact absurd h (by simp [Event.updates])
  | commitUpdate rectangles => exact absurd h (by simp [Event.updates])
  | updateRectangle rect data pixelFormat => exact absurd h (by simp [Event.updates])
  | copyRectangle srcx srcy rect => exact absurd h (by simp [Event.updates, Callback.paints])
  | updateCursor rect image mask => exact absurd h (by simp [Event.updates, Callback.paints])
  | updatePointerPos x y => exact absurd h (by simp [Event.updates, Callback.paints])
  | updateDesktopSize width height => exact absurd h (by simp [Event.updates, Callback.paints])

end

/-! ## Security and message generators -/

/-- The contract of a generator that keeps the screen. -/
def steady : Coroutine.Contract Request PyErr (State codecs) where
  meanwhile _ _ := True
  does := Keeps
  asks _ := True
  raises _ := True
  refl := Keeps.refl
  trans := Keeps.trans

/-- A run of such a generator. -/
abbrev Steady {α : Type} (a : State codecs) (x : GenStep (Decoding codecs) Fields α) : Prop :=
  x.Honours steady (fun _ _ => True) a

section

variable {α β : Type} {a : State codecs}

theorem steady_bind {m : Gen (Decoding codecs) Fields α} {f : α → Gen (Decoding codecs) Fields β}
    (hm : Steady a (m.run a)) (hf : ∀ v t, Steady t ((f v).run t)) : Steady a ((m >>= f).run a) :=
  Coroutine.honours_bind hm fun v t _ => hf v t

theorem steady_read (n : ℕ) : Steady a ((Gen.read n).run a) :=
  Coroutine.honours_yield trivial fun _ _ _ => trivial

theorem steady_pure (v : α) : Steady a ((pure v : Gen (Decoding codecs) Fields α).run a) :=
  Coroutine.honours_pure trivial

theorem steady_raise (cls : ErrorClass) (message : String) :
    Steady a ((Gen.raise cls message : Gen (Decoding codecs) Fields α).run a) :=
  Coroutine.honours_throw trivial

theorem steady_lift {m : Py (State codecs) α} (h : Stays m) : Steady a ((Gen.lift m).run a) :=
  Gen.honours_lift_of_does h (fun _ => trivial) a

theorem steady_modify {f : State codecs → State codecs}
    (h : ∀ a, (f a).width = a.width ∧ (f a).height = a.height ∧ (f a).own = a.own ∧
      (f a).rectanglePos = a.rectanglePos ∧ (f a).log = a.log) :
    Steady a ((Coroutine.modify f : Gen (Decoding codecs) Fields Unit).run a) :=
  Coroutine.honours_modify (stays_modify h a) trivial

theorem steady_get_bind {f : State codecs → Gen (Decoding codecs) Fields α}
    (h : Steady a ((f a).run a)) : Steady a ((Coroutine.get >>= f).run a) := h

theorem steady_requirePayload (length : ℕ) :
    Steady a ((requirePayload length : Gen (Decoding codecs) Fields Unit).run a) := by
  unfold requirePayload
  split_ifs
  · exact steady_raise _ _
  · exact steady_pure ()

end

section

variable (audience : Audience codecs) (library : Library) (imaging : Imaging) {a : State codecs}

/-- No message handler touches the screen. -/
theorem steady_messageHandler {msgid : ℕ} {handler : Gen (Decoding codecs) Fields Unit}
    (h : messageHandler (stageEnv audience library imaging) msgid = some handler)
    (a : State codecs) : Steady a (handler.run a) := by
  unfold messageHandler at h
  split_ifs at h
  all_goals
    obtain rfl := Option.some.inj h
  · unfold setColourMapEntriesHandler
    refine steady_bind (steady_read 5) fun header a => ?_
    refine steady_bind (steady_requirePayload _) fun _ a => ?_
    refine steady_bind (steady_read _) fun block a => ?_
    exact steady_lift (stays_call audience library imaging _ rfl)
  · exact steady_lift (stays_call audience library imaging _ rfl)
  · unfold serverCutTextHandler
    refine steady_bind (steady_read 7) fun header a => ?_
    refine steady_bind (steady_requirePayload _) fun _ a => ?_
    refine steady_bind (steady_read _) fun text a => ?_
    exact steady_lift (stays_call audience library imaging _ rfl)
  · have hanswer : ∀ flags payload, Stays (answerFence flags payload : Py (State codecs) Unit) := by
      intro flags payload
      unfold answerFence
      generalize clientFence (flags &&& knownFlags : ℕ) payload = fence
      split_ifs
      · exact stays_bind (stays_encoded fence) fun _ => stays_write _ _
      · exact stays_pure ()
    unfold serverFenceHandler
    refine steady_bind (steady_read 8) fun header a => ?_
    dsimp only
    split_ifs
    · exact steady_lift (hanswer _ _)
    · refine steady_bind (steady_read _) fun payload a => ?_
      exact steady_lift (hanswer _ _)

theorem steady_refuse (reason : String) :
    Steady a ((refuse (stageEnv audience library imaging) reason).run a) := by
  have hreport : Steady a ((reportFailure (stageEnv audience library imaging) reason).run a) := by
    unfold reportFailure
    refine steady_get_bind ?_
    split_ifs
    · refine steady_bind (steady_read 4) fun waitfor a => ?_
      refine steady_bind (steady_requirePayload _) fun _ a => ?_
      refine steady_bind (steady_read _) fun reason a => ?_
      exact steady_lift (stays_call audience library imaging _ rfl)
    · exact steady_lift (stays_call audience library imaging _ rfl)
  unfold refuse
  refine steady_bind hreport fun _ a => ?_
  refine steady_bind (steady_lift stays_loseConnection) fun _ a => ?_
  exact steady_pure false

theorem steady_securityResult :
    Steady a ((securityResult (stageEnv audience library imaging)).run a) := by
  unfold securityResult
  refine steady_bind (steady_read 4) fun block a => ?_
  unfold judge
  split_ifs
  · exact steady_pure true
  · exact steady_refuse audience library imaging _
  · exact steady_refuse audience library imaging _
  · refine steady_bind (steady_lift stays_loseConnection) fun _ a => ?_
    exact steady_pure false

theorem steady_readChallenge :
    Steady a ((readChallenge (stageEnv audience library imaging)).run a) := by
  unfold readChallenge
  refine steady_bind (steady_read 16) fun challenge a => ?_
  refine steady_bind (steady_modify fun _ => ⟨rfl, rfl, rfl, rfl, rfl⟩) fun _ a => ?_
  exact steady_lift (stays_call audience library imaging _ rfl)

theorem steady_diffieHellmanHandler :
    Steady a ((diffieHellmanHandler (stageEnv audience library imaging)).run a) := by
  unfold diffieHellmanHandler
  refine steady_bind (steady_read 4) fun header a => ?_
  refine steady_bind (steady_read _) fun modulus a => ?_
  refine steady_bind (steady_read _) fun serverKey a => ?_
  refine steady_bind (steady_lift (stays_modify fun _ => ⟨rfl, rfl, rfl, rfl, rfl⟩)) fun _ a => ?_
  refine steady_get_bind ?_
  refine steady_bind (steady_lift (stays_ofExcept _)) fun response a => ?_
  refine steady_bind (steady_lift (stays_write _ _)) fun _ a => ?_
  exact steady_securityResult audience library imaging

theorem steady_agreeOnVersion :
    Steady a ((agreeOnVersion : Gen (Decoding codecs) Fields Unit).run a) := by
  unfold agreeOnVersion
  refine steady_bind (steady_read 2) fun offer a => ?_
  dsimp only
  split_ifs
  · refine steady_bind (steady_lift (stays_write _ _)) fun _ a => ?_
    refine steady_bind (steady_read 1) fun ack a => ?_
    split_ifs
    · exact steady_raise _ _
    · exact steady_pure ()
  · exact steady_raise _ _

theorem steady_requestSubtype :
    Steady a ((requestSubtype : Gen (Decoding codecs) Fields VeNCryptSubtypes).run a) := by
  unfold requestSubtype
  refine steady_bind (steady_read 1) fun count a => ?_
  dsimp only
  split_ifs
  · exact steady_raise _ _
  · refine steady_bind (steady_read _) fun block a => ?_
    refine steady_get_bind ?_
    split
    · exact steady_raise _ _
    · refine steady_bind (steady_modify fun _ => ⟨rfl, rfl, rfl, rfl, rfl⟩) fun _ a => ?_
      refine steady_bind (steady_lift (stays_write _ _)) fun _ a => ?_
      exact steady_pure _

theorem steady_startTunnel (chosen : VeNCryptSubtypes) :
    Steady a ((startTunnel (stageEnv audience library imaging) chosen).run a) := by
  unfold startTunnel
  refine steady_bind (steady_read 1) fun ack a => ?_
  split_ifs
  · exact steady_raise _ _
  · refine steady_bind (Coroutine.honours_yield trivial fun _ _ _ => trivial) fun waiting a => ?_
    split_ifs
    · exact steady_raise _ _
    · refine steady_get_bind ?_
      split
      · exact steady_raise _ _
      · refine steady_bind (steady_modify fun _ => ⟨rfl, rfl, rfl, rfl, rfl⟩) fun _ a => ?_
        exact steady_lift (stays_emit rfl)

theorem steady_vencryptHandler :
    Steady a ((vencryptHandler (stageEnv audience library imaging)).run a) := by
  have hsend : Stays (sendPlain : Py (State codecs) Unit) := by
    unfold sendPlain
    exact stays_get_bind fun a => stays_bind (stays_write _ _) fun _ => stays_write _ _
  unfold vencryptHandler
  refine steady_bind steady_agreeOnVersion fun _ a => ?_
  refine steady_bind steady_requestSubtype fun chosen a => ?_
  refine steady_bind (steady_startTunnel audience library imaging chosen) fun _ a => ?_
  refine steady_bind ?_ fun _ a => steady_securityResult audience library imaging
  unfold authenticateInside
  split_ifs
  · exact steady_readChallenge audience library imaging
  · exact steady_lift hsend
  · exact steady_pure ()

/-- No security handler touches the screen. -/
theorem steady_securityHandler {secType : ℕ} {handler : Gen (Decoding codecs) Fields Bool}
    (h : securityHandler (stageEnv audience library imaging) secType = some handler)
    (a : State codecs) : Steady a (handler.run a) := by
  unfold securityHandler at h
  split_ifs at h
  all_goals
    obtain rfl := Option.some.inj h
  · unfold noneHandler
    refine steady_get_bind ?_
    split_ifs
    · exact steady_securityResult audience library imaging
    · exact steady_pure true
  · exact steady_bind (steady_readChallenge audience library imaging) fun _ a => steady_securityResult audience library imaging
  · exact steady_vencryptHandler audience library imaging
  · exact steady_diffieHellmanHandler audience library imaging

end

/-! ## What a turn comes to -/

/-- `_doConnection`, on the attributes: the update ends once none of its rectangles is left. -/
def conclude (env : Env (Decoding codecs) Fields) : Py (State codecs) Unit := do
  let a ← get
  if a.rectangles ≠ 0 then pure () else env.call (.commitUpdate a.rectanglePos)

/-- The last lines of `_finishRectangle`, on the attributes. -/
def settle (env : Env (Decoding codecs) Fields) (rect : Rect) (changed : Bool) :
    Py (State codecs) Unit := do
  if changed then modify fun a => { a with rectanglePos := a.rectanglePos ++ [rect] }
  conclude env

/-- A rectangle that a method of the client paints: the call, and what follows it. -/
def paint (env : Env (Decoding codecs) Fields) (method : RFBClient.Callback) (rect : Rect)
    (changed : Bool) : Py (State codecs) Unit := do
  env.call method
  settle env rect changed

/-- The first lines of `_handleFramebufferUpdate`, on the attributes. -/
def start (env : Env (Decoding codecs) Fields) (rectangles : ℕ) : Py (State codecs) Unit := do
  modify fun a => { a with rectangles := rectangles, rectanglePos := [] }
  env.call .beginUpdate
  conclude env

/-- What a turn does to the attributes once the server has announced its framebuffer. -/
inductive Beat (env : Env (Decoding codecs) Fields) (a a' : State codecs) : Prop
  /-- The screen is left alone. -/
  | keeps (h : Keeps a a')
  /-- An update begins. -/
  | begins (a₁ : State codecs) (rectangles : ℕ) (hbefore : Keeps a a₁)
      (h : a' = Effect.state ((start env rectangles).run a₁))
  /-- A rectangle is over that has painted nothing and does not count. -/
  | passes (a₁ : State codecs) (hbefore : Keeps a a₁) (h : a' = Effect.state ((conclude env).run a₁))
  /-- A decoder has a method of the client paint. -/
  | draws (a₁ : State codecs) (method : RFBClient.Callback) (rect : Rect) (changed : Bool)
      (hbefore : Keeps a a₁) (hdraws : Decoders.Draws a₁ method changed)
      (hafter : Keeps (Effect.state ((paint env method rect changed).run a₁)) a')
  /-- The pump pastes the pixels a decoder has left. -/
  | pastes (a₁ : State codecs) (rect : Rect) (data : Bytes) (pixelFormat : PixelFormat)
      (hlength : data.length = rect.width * rect.height * pixelFormat.bypp) (hbefore : Keeps a a₁)
      (h : a' = Effect.state ((paint env (.updateRectangle rect data pixelFormat) rect true).run a₁))

/-- What left the screen alone before a turn makes no difference to it. -/
theorem Beat.earlier {env : Env (Decoding codecs) Fields} {a₀ a a' : State codecs}
    (h : Beat env a a') (hkeeps : Keeps a₀ a) : Beat env a₀ a' := by
  cases h with
  | keeps h => exact .keeps (hkeeps.trans h)
  | begins a₁ rectangles hbefore h => exact .begins a₁ rectangles (hkeeps.trans hbefore) h
  | passes a₁ hbefore h => exact .passes a₁ (hkeeps.trans hbefore) h
  | draws a₁ method rect changed hbefore hdraws hafter =>
    exact .draws a₁ method rect changed (hkeeps.trans hbefore) hdraws hafter
  | pastes a₁ rect data pixelFormat hlength hbefore h =>
    exact .pastes a₁ rect data pixelFormat hlength (hkeeps.trans hbefore) h

/-- What is parked before the server has announced its framebuffer. -/
def Expected.starting : Expected (Decoding codecs) Fields → Bool
  | .auth | .numberSecurityTypes | .securityTypes _ | .connFailed | .connMessage _ | .serverInit
  | .pump (.security _) _ _ | .ended (.security _) _ => true
  | _ => false

/-- The server has not announced its framebuffer yet. -/
def Starting (c : RFBClient (Decoding codecs) Fields) : Prop :=
  ∀ e, c.phase = .expecting e → Expected.starting e = true

/-- The suspended generator does nothing that a turn is not known to do. -/
def Tuned (env : Env (Decoding codecs) Fields) : Expected (Decoding codecs) Fields → Prop
  | .pump (.security _) _ resume => ∀ block t, Steady t (resume block t)
  | .pump (.message _) _ resume => ∀ block t, Steady t (resume block t)
  | .pump (.rectangle _) _ resume => ∀ block t, Decoders.Renders env.callback t (resume block t)
  | _ => True

/-- Such a generator is parked, if there is one. -/
def TunedAt (env : Env (Decoding codecs) Fields) (c : RFBClient (Decoding codecs) Fields) : Prop :=
  ∀ e, c.phase = .expecting e → Tuned env e

section

variable {env : Env (Decoding codecs) Fields} {c c' : RFBClient (Decoding codecs) Fields}

theorem tuned_of_plain {e : Expected (Decoding codecs) Fields} (h : e.plain = true) : Tuned env e := by
  cases e with
  | pump task size resume => exact absurd h (by simp [Expected.plain])
  | _ => trivial

/-- The server has announced its framebuffer. -/
def Started (c : RFBClient (Decoding codecs) Fields) : Prop :=
  ∃ e, c.phase = .expecting e ∧ Expected.starting e = false

/-- Code of an update leaves the attributes `a'`, and parks no generator. -/
structure Lands (c : RFBClient (Decoding codecs) Fields) (a' : State codecs)
    (c' : RFBClient (Decoding codecs) Fields) : Prop where
  attrs : c'.attrs = a'
  phase : c'.phase = c.phase ∨
    ∃ e, c'.phase = .expecting e ∧ e.plain = true ∧ Expected.starting e = false

theorem Lands.tuned {a' : State codecs} (h : Lands c a' c') (htuned : TunedAt env c) :
    TunedAt env c' := by
  intro e hphase
  rcases h.phase with hsame | ⟨e', hphase', hplain, -⟩
  · exact htuned e (hsame.symm.trans hphase)
  · obtain rfl : e' = e := Phase.expecting.inj (hphase'.symm.trans hphase)
    exact tuned_of_plain hplain

theorem Lands.started {a' : State codecs} (h : Lands c a' c') (hstarted : Started c) :
    Started c' := by
  rcases h.phase with hsame | ⟨e', hphase', -, hstarting⟩
  · obtain ⟨e, hphase, hstarting⟩ := hstarted
    exact ⟨e, hsame.trans hphase, hstarting⟩
  · exact ⟨e', hphase', hstarting⟩

variable (env) in
theorem lands_doConnection (c : RFBClient (Decoding codecs) Fields) :
    Lands c (Effect.state ((conclude env).run c.attrs)) (client ((doConnection env).run c)) := by
  unfold doConnection conclude
  simp only [EStateM.run_bind, EStateM.run_get]
  split_ifs with hmore
  · exact ⟨rfl, .inr ⟨.rectangle, rfl, rfl, rfl⟩⟩
  · rw [EStateM.run_bind, run_onAttrs]
    cases (env.call (.commitUpdate c.attrs.rectanglePos)).run c.attrs with
    | ok u a' => exact ⟨rfl, .inr ⟨.connection, rfl, rfl, rfl⟩⟩
    | error e a' => exact ⟨rfl, .inl rfl⟩

variable (env) in
theorem lands_settleRectangle (rect : Rect) (changed : Bool)
    (c : RFBClient (Decoding codecs) Fields) :
    Lands c (Effect.state ((settle env rect changed).run c.attrs))
      (client ((settleRectangle env rect changed).run c)) := by
  cases changed with
  | true =>
    have h := lands_doConnection env
      { c with attrs := { c.attrs with rectanglePos := c.attrs.rectanglePos ++ [rect] } }
    exact ⟨h.attrs, h.phase⟩
  | false => exact lands_doConnection env c

variable (env) in
/-- A method that paints, and what follows it. -/
theorem lands_paint (method : RFBClient.Callback) (rect : Rect) (changed : Bool)
    (c : RFBClient (Decoding codecs) Fields) :
    Lands c (Effect.state ((paint env method rect changed).run c.attrs))
      (client ((onAttrs (env.call method) >>= fun _ => settleRectangle env rect changed).run c)) := by
  unfold paint
  rw [EStateM.run_bind, EStateM.run_bind, run_onAttrs]
  cases (env.call method).run c.attrs with
  | ok u a' =>
    have h := lands_settleRectangle env rect changed { c with attrs := a' }
    exact ⟨h.attrs, h.phase⟩
  | error e a' => exact ⟨rfl, .inl rfl⟩

variable (env) in
/-- Such code, where its first part is over. -/
theorem state_paint_of_ok {method : RFBClient.Callback} {a a' : State codecs}
    (h : (env.call method).run a = .ok () a') (rect : Rect) (changed : Bool) :
    Effect.state ((paint env method rect changed).run a) =
      Effect.state ((settle env rect changed).run a') := by
  unfold paint
  rw [EStateM.run_bind, h]

variable (env) in
theorem state_paint_of_error {method : RFBClient.Callback} {a a' : State codecs} {e : PyErr}
    (h : (env.call method).run a = .error e a') (rect : Rect) (changed : Bool) :
    Effect.state ((paint env method rect changed).run a) = a' := by
  unfold paint
  rw [EStateM.run_bind, h]
  rfl

end

/-! ## The pump -/

section

variable (audience : Audience codecs) (library : Library) (imaging : Imaging)
  {c c' : RFBClient (Decoding codecs) Fields}

/-- An abort keeps the screen and what is parked. -/
theorem keeps_abortConnection (reason : String) (c : RFBClient (Decoding codecs) Fields) :
    Keeps c.attrs (client ((abortConnection (stageEnv audience library imaging) reason).run c)).attrs ∧
      (client ((abortConnection (stageEnv audience library imaging) reason).run c)).phase = c.phase := by
  have hreport := stays_call audience library imaging
    (.vncProtocolError reason) rfl c.attrs
  unfold abortConnection
  simp only [EStateM.run_bind, EStateM.run_modify, run_onAttrs]
  cases hrun : ((stageEnv audience library imaging).call (.vncProtocolError reason)).run c.attrs with
  | ok u a =>
    rw [hrun] at hreport
    exact ⟨hreport.trans (Keeps.emit a rfl), rfl⟩
  | error e a =>
    rw [hrun] at hreport
    exact ⟨hreport, rfl⟩

/-- A turn before the server has announced its framebuffer. -/
structure Waits (env : Env (Decoding codecs) Fields) (c c' : RFBClient (Decoding codecs) Fields) :
    Prop where
  keeps : Keeps c.attrs c'.attrs
  tuned : TunedAt env c'
  starting : Starting c'

/-- A turn after that. -/
structure Plays (env : Env (Decoding codecs) Fields) (c c' : RFBClient (Decoding codecs) Fields) :
    Prop where
  beat : Beat env c.attrs c'.attrs
  tuned : TunedAt env c'
  started : Started c'

theorem Waits.same {env : Env (Decoding codecs) Fields} (hkeeps : Keeps c.attrs c'.attrs)
    (hphase : c'.phase = c.phase) (htuned : TunedAt env c) (hstarting : Starting c) :
    Waits env c c' :=
  ⟨hkeeps, fun e h => htuned e (hphase.symm.trans h), fun e h => hstarting e (hphase.symm.trans h)⟩

theorem Plays.same {env : Env (Decoding codecs) Fields} (hkeeps : Keeps c.attrs c'.attrs)
    (hphase : c'.phase = c.phase) (htuned : TunedAt env c) (hstarted : Started c) :
    Plays env c c' := by
  obtain ⟨e, h, hstarting⟩ := hstarted
  exact ⟨.keeps hkeeps, fun e h => htuned e (hphase.symm.trans h), e, hphase.trans h, hstarting⟩

theorem waits_pump (secType : ℕ) {x : GenStep (Decoding codecs) Fields Bool}
    (h : Steady c.attrs x) (htuned : TunedAt (stageEnv audience library imaging) c)
    (hstarting : Starting c) :
    Waits (stageEnv audience library imaging) c
      (client ((pump (stageEnv audience library imaging) (.security secType) x).run c)) := by
  have hpause := drive_honours (fun _ => trivial) (!c.packet.isEmpty) h
  rw [run_pump]
  cases hdrive : drive (!c.packet.isEmpty) x with
  -- An exchange that succeeds goes on to ServerInit; any other stays where it is.
  | done a proceed =>
    rw [hdrive] at hpause
    cases hpause with
    | done hkeeps _ =>
      cases proceed with
      | true =>
        refine ⟨hkeeps.trans (Keeps.emit a rfl), fun e hphase => ?_, fun e hphase => ?_⟩
        · obtain rfl : Expected.serverInit = e := Phase.expecting.inj hphase
          trivial
        · obtain rfl : Expected.serverInit = e := Phase.expecting.inj hphase
          rfl
      | false => exact .same hkeeps rfl htuned hstarting
  | failed a e =>
    rw [hdrive] at hpause
    cases hpause with
    | failed hkeeps _ =>
      simp only
      split_ifs
      · obtain ⟨habort, hphase⟩ := keeps_abortConnection
          audience library imaging _ { c with attrs := a }
        exact .same (hkeeps.trans habort) hphase htuned hstarting
      · exact .same hkeeps rfl htuned hstarting
  | wants a size resume =>
    rw [hdrive] at hpause
    cases hpause with
    | wants hkeeps _ hnext =>
      simp only
      split_ifs
      · obtain ⟨habort, hphase⟩ := keeps_abortConnection
          audience library imaging _ { c with attrs := a }
        exact .same (hkeeps.trans habort) hphase htuned hstarting
      · refine ⟨hkeeps, fun e hphase => ?_, fun e hphase => ?_⟩
        · obtain rfl := Phase.expecting.inj hphase
          exact fun block t => hnext block t trivial
        · obtain rfl := Phase.expecting.inj hphase
          rfl

theorem plays_pump_message (msgid : ℕ) {x : GenStep (Decoding codecs) Fields Unit}
    (h : Steady c.attrs x) (htuned : TunedAt (stageEnv audience library imaging) c)
    (hstarted : Started c) :
    Plays (stageEnv audience library imaging) c
      (client ((pump (stageEnv audience library imaging) (.message msgid) x).run c)) := by
  have hpause := drive_honours (fun _ => trivial) (!c.packet.isEmpty) h
  rw [run_pump]
  cases hdrive : drive (!c.packet.isEmpty) x with
  | done a v =>
    rw [hdrive] at hpause
    cases hpause with
    | done hkeeps _ =>
      refine ⟨.keeps hkeeps, fun e hphase => ?_, .connection, rfl, rfl⟩
      obtain rfl : Expected.connection = e := Phase.expecting.inj hphase
      trivial
  | failed a e =>
    rw [hdrive] at hpause
    cases hpause with
    | failed hkeeps _ =>
      simp only
      split_ifs
      · obtain ⟨habort, hphase⟩ := keeps_abortConnection
          audience library imaging _ { c with attrs := a }
        exact .same (hkeeps.trans habort) hphase htuned hstarted
      · exact .same hkeeps rfl htuned hstarted
  -- A negative size aborts; else the generator is parked and stays steady.
  | wants a size resume =>
    rw [hdrive] at hpause
    cases hpause with
    | wants hkeeps _ hnext =>
      simp only
      split_ifs
      · obtain ⟨habort, hphase⟩ := keeps_abortConnection
          audience library imaging _ { c with attrs := a }
        exact .same (hkeeps.trans habort) hphase htuned hstarted
      · refine ⟨.keeps hkeeps, fun e hphase => ?_, _, rfl, rfl⟩
        obtain rfl := Phase.expecting.inj hphase
        exact fun block t => hnext block t trivial

/-- What is left of a decoder's run where the pump stops driving it. -/
def Pause.step {α : Type} : Pause (Decoding codecs) Fields α → GenStep (Decoding codecs) Fields α
  | .done a v => .done a v
  | .failed a e => .failed a e
  | .wants a size resume => .yielded a (.bytes size) resume

theorem renders_drive {callback : RFBClient.Callback → Py (State codecs) Unit} (waiting : Bool)
    {a : State codecs} {x : GenStep (Decoding codecs) Fields Outcome}
    (h : Decoders.Renders callback a x) :
    Decoders.Renders callback a (Pause.step (drive waiting x)) := by
  induction x generalizing a with
  | done a' v => exact h
  | failed a' e => exact h
  | yielded a' y resume ih =>
    cases y with
    | bytes size => exact h
    | packet => exact ih waiting a' ((h.2 waiting a').from_earlier h.1)

/-- What follows a decoder that is over. -/
theorem plays_finishRectangle (rect : Rect) (outcome : Outcome) {a : State codecs}
    (h : Decoders.Renders (stageEnv audience library imaging).callback c.attrs (.done a outcome))
    (htuned : TunedAt (stageEnv audience library imaging) c) (hstarted : Started c) :
    Plays (stageEnv audience library imaging) c
      (client ((finishRectangle (stageEnv audience library imaging) rect outcome).run
        { c with attrs := a })) := by
  obtain ⟨changed, paste⟩ := outcome
  rcases h with ⟨hquiet, hcounts⟩ | ⟨rfl, a₁, method, hquiet, hdraws, hrun⟩
  · rcases paste with _ | ⟨pixels, pixelFormat⟩
    · obtain rfl : changed = false := hcounts
      have hlands := lands_doConnection (stageEnv audience library imaging)
        { c with attrs := a }
      exact ⟨.passes a (.quiet hquiet) hlands.attrs, (Lands.mk hlands.attrs hlands.phase).tuned htuned,
        (Lands.mk (c := c) hlands.attrs hlands.phase).started hstarted⟩
    · obtain rfl : changed = true := hcounts
      unfold finishRectangle
      simp only
      split_ifs with hlength
      · obtain ⟨habort, hphase⟩ := keeps_abortConnection
          audience library imaging _ { c with attrs := a }
        exact .same ((Keeps.quiet hquiet).trans habort) hphase htuned hstarted
      · have hlands := lands_paint (stageEnv audience library imaging)
          (.updateRectangle rect pixels pixelFormat) rect true { c with attrs := a }
        exact ⟨.pastes a rect pixels pixelFormat (not_not.mp hlength) (.quiet hquiet) hlands.attrs,
          (Lands.mk hlands.attrs hlands.phase).tuned htuned,
          (Lands.mk (c := c) hlands.attrs hlands.phase).started hstarted⟩
  · -- The decoder has had a method paint, which was the first part of what is done with it.
    have hlands := lands_settleRectangle (stageEnv audience library imaging) rect changed
      { c with attrs := a }
    have hpaint := state_paint_of_ok (stageEnv audience library imaging) hrun rect changed
    refine ⟨.draws a₁ method rect changed (.quiet hquiet) hdraws ?_,
      (Lands.mk hlands.attrs hlands.phase).tuned htuned,
      (Lands.mk (c := c) hlands.attrs hlands.phase).started hstarted⟩
    rw [hpaint]
    have hattrs := hlands.attrs
    exact hattrs ▸ Keeps.refl _

theorem plays_pump_rectangle (rect : Rect) {x : GenStep (Decoding codecs) Fields Outcome}
    (h : Decoders.Renders (stageEnv audience library imaging).callback c.attrs x)
    (htuned : TunedAt (stageEnv audience library imaging) c) (hstarted : Started c) :
    Plays (stageEnv audience library imaging) c
      (client ((pump (stageEnv audience library imaging) (.rectangle rect) x).run c)) := by
  have hpause := renders_drive (!c.packet.isEmpty) h
  rw [run_pump]
  cases hdrive : drive (!c.packet.isEmpty) x with
  | done a outcome =>
    rw [hdrive] at hpause
    exact plays_finishRectangle audience library imaging rect outcome hpause htuned hstarted
  | failed a e =>
    rw [hdrive] at hpause
    -- The pump may turn what a decoder raises into an abort.
    have hafter : ∀ {a₀ : State codecs} (hbeat : ∀ a', Keeps a a' →
        Beat (stageEnv audience library imaging) a₀ a'), a₀ = c.attrs →
        Plays (stageEnv audience library imaging) c (client
          (if (Task.rectangle rect).catches e.cls then
            (abortConnection (stageEnv audience library imaging)
              s!"cannot {(Task.rectangle rect).verb} {(Task.rectangle rect).describe}: {e.message}").run
                { c with attrs := a }
          else .error e { c with attrs := a })) := by
      rintro a₀ hbeat rfl
      obtain ⟨e', hphase', hstarting⟩ := hstarted
      split_ifs
      · obtain ⟨habort, hphase⟩ := keeps_abortConnection
          audience library imaging _ { c with attrs := a }
        exact ⟨hbeat _ habort, fun e h => htuned e (hphase.symm.trans h), e', hphase.trans hphase',
          hstarting⟩
      · exact ⟨hbeat a (.refl a), htuned, e', hphase', hstarting⟩
    rcases hpause with hquiet | ⟨a₁, method, changed, hquiet, hdraws, hrun⟩
    · exact hafter (fun a' hkeeps => .keeps ((Keeps.quiet hquiet).trans hkeeps)) rfl
    · refine hafter (fun a' hkeeps => .draws a₁ method rect changed (.quiet hquiet) hdraws ?_) rfl
      rw [state_paint_of_error (stageEnv audience library imaging) hrun]
      exact hkeeps
  | wants a size resume =>
    rw [hdrive] at hpause
    simp only
    split_ifs
    · obtain ⟨habort, hphase⟩ := keeps_abortConnection
        audience library imaging _ { c with attrs := a }
      exact .same ((Keeps.quiet hpause.1).trans habort) hphase htuned hstarted
    · refine ⟨.keeps (.quiet hpause.1), fun e hphase => ?_, _, rfl, rfl⟩
      obtain rfl := Phase.expecting.inj hphase
      exact hpause.2

/-! ## Turns -/

theorem waits_startSecurity (secType : ℕ) (htuned : TunedAt (stageEnv audience library imaging) c)
    (hstarting : Starting c) :
    Waits (stageEnv audience library imaging) c
      (client ((startSecurity (stageEnv audience library imaging) secType).run c)) := by
  rw [run_startSecurity]
  cases hhandler : securityHandler (stageEnv audience library imaging) secType with
  | none =>
    obtain ⟨hkeeps, hphase⟩ := keeps_abortConnection
      audience library imaging _ c
    exact .same hkeeps hphase htuned hstarting
  | some handler =>
    exact waits_pump audience library imaging secType (steady_securityHandler audience library imaging hhandler c.attrs) htuned hstarting

/-- The server announces its framebuffer. -/
structure Announces (c c' : RFBClient (Decoding codecs) Fields) : Prop where
  attrs : ∃ width height pixelFormat, width < 0x10000 ∧ height < 0x10000 ∧
    c'.attrs = { c.attrs with width := width, height := height, pixelFormat := pixelFormat }
  phase : ∃ namelen, c'.phase = .expecting (.serverName namelen)

/-- A turn before the server has announced its framebuffer keeps the screen, or is the announcement. -/
theorem turn_starting (htuned : TunedAt (stageEnv audience library imaging) c)
    (hstarting : Starting c) (hready : ready c = true) :
    Waits (stageEnv audience library imaging) c
        (client ((turn (stageEnv audience library imaging)).run c)) ∨
      Announces c (client ((turn (stageEnv audience library imaging)).run c)) := by
  obtain ⟨e, hphase, hlen, -⟩ := exists_of_ready hready
  rw [run_turn _ hphase hlen]
  have htuned' := htuned e hphase
  have hstarting' := hstarting e hphase
  generalize Block.ofPrefix e.len c.packet hlen = block
  -- The block is taken off the buffer, which the screen and what is parked have nothing to do with.
  have hwait : ∀ {c'}, Waits (stageEnv audience library imaging)
      { c with packet := c.packet.drop e.len } c' → Waits (stageEnv audience library imaging) c c' :=
    fun h => ⟨h.keeps, h.tuned, h.starting⟩
  have hparks : ∀ {e' : Expected (Decoding codecs) Fields} {packet : Bytes}, e'.plain = true →
      Expected.starting e' = true → Waits (stageEnv audience library imaging) c
        { c with packet := packet, phase := .expecting e' } := by
    intro e' packet hplain hstart
    refine ⟨.refl _, fun e'' h => ?_, fun e'' h => ?_⟩
    · obtain rfl : e' = e'' := Phase.expecting.inj h
      exact tuned_of_plain hplain
    · obtain rfl : e' = e'' := Phase.expecting.inj h
      exact hstart
  have haborts : ∀ reason, Waits (stageEnv audience library imaging) c
      (client ((abortConnection (stageEnv audience library imaging) reason).run
        { c with packet := c.packet.drop e.len })) := by
    intro reason
    obtain ⟨hkeeps, hsame⟩ := keeps_abortConnection
      audience library imaging reason { c with packet := c.packet.drop e.len }
    exact .same hkeeps hsame htuned hstarting
  cases e with
  | auth =>
    simp only [handle, handleAuth]
    split_ifs
    · exact .inl (hparks rfl rfl)
    · exact .inl (hwait (waits_startSecurity audience library imaging _ htuned hstarting))
    · exact .inl (haborts _)
  | numberSecurityTypes =>
    simp only [handle, handleNumberSecurityTypes]
    split_ifs <;> exact .inl (hparks rfl rfl)
  | securityTypes count =>
    simp only [handle, handleSecurityTypes]
    split
    next secType _ =>
      have h := waits_startSecurity
        (c := { c with
          packet := c.packet.drop count
          attrs := { c.attrs with
            log := c.attrs.log ++ [.wrote .securityType [UInt8.ofNat secType]] } })
        audience library imaging secType htuned hstarting
      exact .inl ⟨(Keeps.emit c.attrs rfl).trans h.keeps, h.tuned, h.starting⟩
    · exact .inl (haborts _)
  | connFailed =>
    simp only [handle, handleConnFailed]
    split_ifs
    · exact .inl (haborts _)
    · exact .inl (hparks rfl rfl)
  | connMessage waitfor => exact .inl (haborts _)
  | serverInit =>
    refine .inr ⟨⟨u16At block.bytes 0, u16At block.bytes 2, _, ?_, ?_, rfl⟩, _, rfl⟩
    · exact u16At_lt _ _
    · exact u16At_lt _ _
  | pump task size resume =>
    cases task with
    | security secType =>
      rw [run_handle_pump]
      have h := waits_pump
        (c := { c with
          packet := c.packet.drop size.toNat
          phase := .expecting (.ended (.security secType) size.toNat) })
        audience library imaging secType (htuned' block c.attrs) (fun e h => by
          obtain rfl := Phase.expecting.inj h
          trivial) (fun e h => by
          obtain rfl := Phase.expecting.inj h
          rfl)
      exact .inl ⟨h.keeps, h.tuned, h.starting⟩
    | message msgid => exact absurd hstarting' (by simp [Expected.starting])
    | rectangle rect => exact absurd hstarting' (by simp [Expected.starting])
  | ended task size =>
    cases task with
    | security secType => exact .inl (.same (.refl _) rfl htuned hstarting)
    | message msgid => exact absurd hstarting' (by simp [Expected.starting])
    | rectangle rect => exact absurd hstarting' (by simp [Expected.starting])
  | serverName namelen => exact absurd hstarting' (by simp [Expected.starting])
  | connection => exact absurd hstarting' (by simp [Expected.starting])
  | framebufferUpdate => exact absurd hstarting' (by simp [Expected.starting])
  | rectangle => exact absurd hstarting' (by simp [Expected.starting])

/-- What a rectangle header comes to. -/
theorem plays_handleRectangle (block : Block 12) (htuned : TunedAt (stageEnv audience library imaging) c)
    (hstarted : Started c) :
    Plays (stageEnv audience library imaging) c
      (client ((handleRectangle (stageEnv audience library imaging) block).run c)) := by
  rw [run_handleRectangle]
  -- Only the count of the rectangles to come changes before the decoder starts.
  have hcount : ∀ count, Keeps c.attrs { c.attrs with rectangles := count } :=
    fun count => .unseen ⟨rfl, rfl⟩ ⟨rfl, rfl, rfl, rfl⟩ rfl rfl
  have haborts : ∀ reason count, Plays (stageEnv audience library imaging) c
      (client ((abortConnection (stageEnv audience library imaging) reason).run
        { c with attrs := { c.attrs with rectangles := count } })) := by
    intro reason count
    obtain ⟨hkeeps, hphase⟩ := keeps_abortConnection
      audience library imaging reason { c with attrs := { c.attrs with rectangles := count } }
    exact .same ((hcount count).trans hkeeps) hphase htuned hstarted
  split_ifs
  · rw [run_pumpRectangle]
    cases hdecoder : (stageEnv audience library imaging).decoders (i32At block.bytes 8) with
    | none => exact haborts _ _
    | some decoder =>
      have h := plays_pump_rectangle
        (c := { c with attrs := { c.attrs with rectangles := remaining block c.attrs.rectangles - 1 } })
        audience library imaging (announcedRect block)
        (Decoders.renders_forConnection hdecoder (announcedRect block) c.attrs.pixelFormat _)
        htuned hstarted
      exact ⟨h.beat.earlier (hcount _), h.tuned, h.started⟩
  · have hlands := lands_doConnection (stageEnv audience library imaging)
      { c with attrs := { c.attrs with rectangles := remaining block c.attrs.rectangles } }
    exact ⟨.passes _ (hcount _) hlands.attrs,
      (Lands.mk (c := c) hlands.attrs hlands.phase).tuned htuned,
      (Lands.mk (c := c) hlands.attrs hlands.phase).started hstarted⟩

/-- A turn once the server has announced its framebuffer. -/
theorem turn_started (htuned : TunedAt (stageEnv audience library imaging) c)
    (hstarted : Started c) (hready : ready c = true) :
    Plays (stageEnv audience library imaging) c
      (client ((turn (stageEnv audience library imaging)).run c)) := by
  obtain ⟨e, hphase, hlen, -⟩ := exists_of_ready hready
  have hstarting : Expected.starting e = false := by
    obtain ⟨e', hphase', hstarting⟩ := hstarted
    obtain rfl : e = e' := Phase.expecting.inj (hphase.symm.trans hphase')
    exact hstarting
  rw [run_turn _ hphase hlen]
  have htuned' := htuned e hphase
  generalize Block.ofPrefix e.len c.packet hlen = block
  have hplay : ∀ {c'}, Plays (stageEnv audience library imaging)
      { c with packet := c.packet.drop e.len } c' → Plays (stageEnv audience library imaging) c c' :=
    fun h => ⟨h.beat, h.tuned, h.started⟩
  have haborts : ∀ reason, Plays (stageEnv audience library imaging) c
      (client ((abortConnection (stageEnv audience library imaging) reason).run
        { c with packet := c.packet.drop e.len })) := by
    intro reason
    obtain ⟨hkeeps, hsame⟩ := keeps_abortConnection
      audience library imaging reason { c with packet := c.packet.drop e.len }
    exact .same hkeeps hsame htuned hstarted
  have hparks : ∀ {e' : Expected (Decoding codecs) Fields} {packet : Bytes}, e'.plain = true →
      Expected.starting e' = false → Plays (stageEnv audience library imaging) c
        { c with packet := packet, phase := .expecting e' } := by
    intro e' packet hplain hstart
    refine ⟨.keeps (.refl _), fun e'' h => ?_, e', rfl, hstart⟩
    obtain rfl : e' = e'' := Phase.expecting.inj h
    exact tuned_of_plain hplain
  cases e with
  | serverName namelen =>
    simp only [handle]
    have hcall := stays_call audience library imaging
      .vncConnectionMade rfl { c.attrs with name := block.bytes }
    have hname : Keeps c.attrs { c.attrs with name := block.bytes } :=
      .unseen ⟨rfl, rfl⟩ ⟨rfl, rfl, rfl, rfl⟩ rfl rfl
    unfold handleServerName
    simp only [EStateM.run_bind, run_onAttrs, EStateM.run_modify]
    cases hrun : ((stageEnv audience library imaging).call .vncConnectionMade).run
        { c.attrs with name := block.bytes } with
    | ok u a =>
      rw [hrun] at hcall
      refine ⟨.keeps (hname.trans hcall), fun e h => ?_, .connection, rfl, rfl⟩
      obtain rfl : Expected.connection = e := Phase.expecting.inj h
      trivial
    | error exc a =>
      rw [hrun] at hcall
      exact .same (hname.trans hcall) rfl htuned hstarted
  | connection =>
    simp only [handle, handleConnection]
    split_ifs
    · exact hparks rfl rfl
    · split
      · exact haborts _
      next handler hhandler =>
        exact hplay (plays_pump_message audience library imaging _
          (steady_messageHandler audience library imaging hhandler c.attrs) htuned hstarted)
  | framebufferUpdate =>
    simp only [handle]
    have hlands := lands_doConnection (stageEnv audience library imaging)
      { c with
        packet := c.packet.drop 3
        attrs := { c.attrs with
          rectangles := u16At block.bytes 1
          rectanglePos := []
          log := c.attrs.log ++ [.called .beginUpdate] } }
    exact ⟨.begins c.attrs (u16At block.bytes 1) (.refl _) hlands.attrs,
      (Lands.mk (c := c) hlands.attrs hlands.phase).tuned htuned,
      (Lands.mk (c := c) hlands.attrs hlands.phase).started hstarted⟩
  | rectangle => exact hplay (plays_handleRectangle audience library imaging block htuned hstarted)
  | pump task size resume =>
    rw [run_handle_pump]
    -- The generator runs with itself parked as finished.
    have hover : TunedAt (stageEnv audience library imaging)
        { c with
          packet := c.packet.drop size.toNat
          phase := .expecting (.ended task size.toNat) } := fun e h => by
      obtain rfl := Phase.expecting.inj h
      trivial
    cases task with
    | security secType => exact absurd hstarting (by simp [Expected.starting])
    | message msgid =>
      have h := plays_pump_message
        (c := { c with
          packet := c.packet.drop size.toNat
          phase := .expecting (.ended (.message msgid) size.toNat) })
        audience library imaging msgid (htuned' block c.attrs) hover ⟨_, rfl, rfl⟩
      exact ⟨h.beat, h.tuned, h.started⟩
    | rectangle rect =>
      have h := plays_pump_rectangle
        (c := { c with
          packet := c.packet.drop size.toNat
          phase := .expecting (.ended (.rectangle rect) size.toNat) })
        audience library imaging rect (htuned' block c.attrs) hover ⟨_, rfl, rfl⟩
      exact ⟨h.beat, h.tuned, h.started⟩
  | ended task size =>
    cases task with
    | security secType => exact absurd hstarting (by simp [Expected.starting])
    | message msgid => exact hparks rfl rfl
    | rectangle rect => exact .same (.refl _) rfl htuned hstarted
  | auth => exact absurd hstarting (by simp [Expected.starting])
  | numberSecurityTypes => exact absurd hstarting (by simp [Expected.starting])
  | securityTypes count => exact absurd hstarting (by simp [Expected.starting])
  | connFailed => exact absurd hstarting (by simp [Expected.starting])
  | connMessage waitfor => exact absurd hstarting (by simp [Expected.starting])
  | serverInit => exact absurd hstarting (by simp [Expected.starting])

end

end VNCDoToolClient

end VncDoTool
