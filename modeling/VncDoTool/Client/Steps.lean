import VncDoTool.Client.Negotiation

/-!
# Handler calls

What one handler call of a client with the callbacks of `RFBClient` itself comes to.

* `RFBClient.pump_handling`, `RFBClient.pump_painting`: one step of a generator that keeps its
  contract.
* `RFBClient.Sound`: the suspended generator, if there is one, keeps its contract;
  `RFBClient.sound_of_reaches`: so it does at every point of a run.
-/

namespace VncDoTool

namespace RFBClient

variable {D S : Type} {library : Library}
  {decoders : ℤ → Option (Decoder (D := D) (S := S) (baseCallback library))}

/-! ## The pump -/

theorem run_pump (env : Env D S) (task : Task) (x : GenStep D S task.Result) (c : RFBClient D S) :
    (pump env task x).run c = match drive (!c.packet.isEmpty) x with
      | .done a v => (finish env task v).run { c with attrs := a }
      | .failed a e =>
        if task.catches e.cls then
          (abortConnection env s!"cannot {task.verb} {task.describe}: {e.message}").run
            { c with attrs := a }
        else .error e { c with attrs := a }
      | .wants a size resume =>
        if size < 0 then
          (abortConnection env s!"decoder asked for {size} bytes").run { c with attrs := a }
        else .ok () { c with attrs := a, phase := .expecting (.pump task size resume) } := by
  unfold pump
  simp only [EStateM.run_bind, EStateM.run_get]
  cases drive (!c.packet.isEmpty) x with
  | done a v => rfl
  | failed a e =>
    simp only [EStateM.run_bind, EStateM.run_set]
    split_ifs <;> rfl
  | wants a size resume =>
    simp only [EStateM.run_bind, EStateM.run_set]
    split_ifs <;> rfl

/-- What a generator that honours a contract comes to when its questions are answered. -/
inductive Pause.Honours {α : Type} (C : Coroutine.Contract Request PyErr (Attrs D S))
    (Q : Attrs D S → α → Prop) (a : Attrs D S) : Pause D S α → Prop
  | done {a' : Attrs D S} {v : α} (hdoes : C.does a a') (hpost : Q a' v) : Honours C Q a (.done a' v)
  | failed {a' : Attrs D S} {e : PyErr} (hdoes : C.does a a') (hraises : C.raises e) :
      Honours C Q a (.failed a' e)
  | wants {a' : Attrs D S} {size : ℤ} {resume : Block size.toNat → Attrs D S → GenStep D S α}
      (hdoes : C.does a a') (hasks : C.asks (.bytes size))
      (hnext : ∀ block t, C.meanwhile a' t → (resume block t).Honours C Q t) :
      Honours C Q a (.wants a' size resume)

/-- Answering the questions about `_packet` keeps a contract, if going on at once is something the
driver may do. -/
theorem drive_honours {α : Type} {C : Coroutine.Contract Request PyErr (Attrs D S)}
    {Q : Attrs D S → α → Prop} (hrefl : ∀ a, C.meanwhile a a) (waiting : Bool) {x : GenStep D S α}
    {a : Attrs D S} (h : x.Honours C Q a) : (drive waiting x).Honours C Q a := by
  induction x generalizing a with
  | done a' v => exact .done h.1 h.2
  | failed a' e => exact .failed h.1 h.2
  | yielded a' y resume ih =>
    cases y with
    | bytes size => exact .wants h.1 h.2.1 h.2.2
    | packet => exact ih waiting a' ((h.2.2 waiting a' (hrefl a')).from_earlier h.1)

/-- What a decoder that paints last comes to when its questions are answered. -/
inductive Pause.PaintsLast (callback : Callback → Py (Attrs D S) Unit) (a : Attrs D S) :
    Pause D S Outcome → Prop
  | done {a' : Attrs D S} {v : Outcome} (h : RFBClient.PaintsLast callback a (.done a' v)) :
      PaintsLast callback a (.done a' v)
  | failed {a' : Attrs D S} {e : PyErr} (h : RFBClient.PaintsLast callback a (.failed a' e)) :
      PaintsLast callback a (.failed a' e)
  | wants {a' : Attrs D S} {size : ℤ} {resume : Block size.toNat → Attrs D S → GenStep D S Outcome}
      (hquiet : Quiet a a')
      (hnext : ∀ block t, RFBClient.PaintsLast callback t (resume block t)) :
      PaintsLast callback a (.wants a' size resume)

theorem drive_paintsLast {callback : Callback → Py (Attrs D S) Unit} (waiting : Bool)
    {x : GenStep D S Outcome} {a : Attrs D S} (h : PaintsLast callback a x) :
    (drive waiting x).PaintsLast callback a := by
  induction x generalizing a with
  | done a' v => exact .done h
  | failed a' e => exact .failed h
  | yielded a' y resume ih =>
    cases y with
    | bytes size => exact .wants h.1 h.2
    | packet => exact ih waiting a' ((h.2 waiting a').from_earlier h.1)

/-! ## The suspended generator -/

/-- The suspended generator keeps the contract of its task. -/
def Expected.Sound (callback : Callback → Py (Attrs D S) Unit) (a : Attrs D S) :
    Expected D S → Prop
  | .pump (.security _) size resume =>
    0 ≤ size ∧ size ≤ maxMessagePayload ∧
      ∀ block t, Meanwhile a t → (resume block t).Honours (negotiation mayRaise) anything t
  | .pump (.message _) size resume =>
    0 ≤ size ∧ size ≤ maxMessagePayload ∧
      ∀ block t, Meanwhile a t → (resume block t).Honours conversation anything t
  | .pump (.rectangle _) size resume => 0 ≤ size ∧ ∀ block t, PaintsLast callback t (resume block t)
  | _ => True

/-- Where a client stands, its generator keeps its contract. -/
def Sound (callback : Callback → Py (Attrs D S) Unit) (c : RFBClient D S) : Prop :=
  match c.phase with
  | .initial => True
  | .expecting e => e.Sound callback c.attrs

/-! ## Handlers, evaluated -/

theorem run_doClientInitialization (c : RFBClient D S) :
    doClientInitialization.run c = .ok () { c with
      attrs := { c.attrs with
        log := c.attrs.log ++ [.wrote .clientInit [if c.attrs.factory.shared then 1 else 0]] }
      phase := .expecting .serverInit } := rfl

theorem run_doConnection (c : RFBClient D S) :
    (doConnection (base library decoders)).run c =
      if c.attrs.rectangles ≠ 0 then .ok () { c with phase := .expecting .rectangle }
      else .ok () { c with
        attrs := { c.attrs with
          log := c.attrs.log ++ [.called (.commitUpdate c.attrs.rectanglePos)] }
        phase := .expecting .connection } := by
  unfold doConnection
  simp only [EStateM.run_bind, EStateM.run_get]
  split_ifs <;> rfl

theorem run_settleRectangle (rect : Rect) (changed : Bool) (c : RFBClient D S) :
    (settleRectangle (base library decoders) rect changed).run c =
      (doConnection (base library decoders)).run (if changed then
        { c with attrs := { c.attrs with rectanglePos := c.attrs.rectanglePos ++ [rect] } }
      else c) := by
  cases changed <;> rfl

theorem run_finishRectangle_of_length {rect : Rect} {changed : Bool} {pixels : Bytes}
    {pixelFormat : PixelFormat}
    (h : pixels.length = rect.width * rect.height * pixelFormat.bypp) (c : RFBClient D S) :
    (finishRectangle (base library decoders) rect ⟨changed, some (pixels, pixelFormat)⟩).run c =
      (settleRectangle (base library decoders) rect changed).run { c with
        attrs := { c.attrs with
          log := c.attrs.log ++ [.called (.updateRectangle rect pixels pixelFormat)] } } := by
  unfold finishRectangle
  simp only
  rw [if_neg (by simpa using h)]
  rfl

theorem run_handleServerInit (block : Block 24) (c : RFBClient D S) :
    (handleServerInit block).run c = .ok () { c with
      attrs := { c.attrs with
        width := u16At block.bytes 0
        height := u16At block.bytes 2
        pixelFormat := PixelFormat.fromBytes (Block.of _ (length_pixformat block)) }
      phase := .expecting (.serverName (u32At block.bytes 20)) } := rfl

theorem run_handleServerName {namelen : ℕ} (block : Block namelen) (c : RFBClient D S) :
    (handleServerName (base library decoders) block).run c = .ok () { c with
      attrs := { c.attrs with
        name := block.bytes
        log := c.attrs.log ++ [.called .vncConnectionMade] }
      phase := .expecting .connection } := rfl

theorem run_handleFramebufferUpdate (block : Block 3) (c : RFBClient D S) :
    (handleFramebufferUpdate (base library decoders) block).run c =
      (doConnection (base library decoders)).run { c with
        attrs := { c.attrs with
          rectangles := u16At block.bytes 1
          rectanglePos := []
          log := c.attrs.log ++ [.called .beginUpdate] } } := rfl

theorem run_startSecurity (env : Env D S) (secType : ℕ) (c : RFBClient D S) :
    (startSecurity env secType).run c = match securityHandler env secType with
      | none =>
        (abortConnection env (s!"the server chose the {AuthTypes.describe secType} security type; " ++
          s!"vncdotool supports {supportedAuthsText}")).run c
      | some handler => (pump env (.security secType) (handler.run c.attrs)).run c := by
  unfold startSecurity
  cases securityHandler env secType <;> rfl

theorem run_pumpRectangle (env : Env D S) (rect : Rect) (encoding : ℤ) (c : RFBClient D S) :
    (pumpRectangle env rect encoding).run c = match env.decoders encoding with
      | some decoder =>
        (pump env (.rectangle rect) ((decoder.decode rect c.attrs.pixelFormat).run c.attrs)).run c
      | none =>
        (abortConnection env (s!"the server sent a rectangle in the " ++
          s!"{Encoding.describe encoding} encoding, which vncdotool " ++ "cannot decode")).run c := by
  unfold pumpRectangle
  cases env.decoders encoding <;> rfl

/-- The rectangle a header announces. -/
def announcedRect (block : Block 12) : Rect :=
  ⟨u16At block.bytes 0, u16At block.bytes 2, u16At block.bytes 4, u16At block.bytes 6⟩

/-- The rectangles still to come once a header is read: LastRect ends the update. -/
def remaining (block : Block 12) (rectangles : ℕ) : ℕ :=
  if i32At block.bytes 8 = Encoding.pseudoLastRect then 0 else rectangles

theorem run_handleRectangle (env : Env D S) (block : Block 12) (c : RFBClient D S) :
    (handleRectangle env block).run c =
      if remaining block c.attrs.rectangles ≠ 0 then
        (pumpRectangle env (announcedRect block) (i32At block.bytes 8)).run { c with
          attrs := { c.attrs with rectangles := remaining block c.attrs.rectangles - 1 } }
      else (doConnection env).run
        { c with attrs := { c.attrs with rectangles := remaining block c.attrs.rectangles } } := by
  unfold handleRectangle remaining announcedRect
  by_cases hlast : i32At block.bytes 8 = Encoding.pseudoLastRect
  · rw [if_pos hlast, if_pos hlast]
    rfl
  · rw [if_neg hlast, if_neg hlast]
    by_cases hrect : c.attrs.rectangles ≠ 0
    · simp only [EStateM.run_bind, EStateM.run_get, if_pos hrect]
      rfl
    · simp only [EStateM.run_bind, EStateM.run_get, if_neg hrect]

theorem run_handle_pump (env : Env D S) (task : Task) (size : ℤ)
    (resume : Block size.toNat → Attrs D S → GenStep D S task.Result) (block : Block size.toNat)
    (c : RFBClient D S) :
    (handle env (.pump task size resume) block).run c =
      (pump env task (resume block c.attrs)).run
        { c with phase := .expecting (.ended task size.toNat) } := rfl

/-- A turn takes the next block off the buffer and handles it. -/
theorem run_turn (env : Env D S) {c : RFBClient D S} {e : Expected D S}
    (hphase : c.phase = .expecting e) (hlen : e.len ≤ c.packet.length) :
    (turn env).run c =
      (handle env e (Block.ofPrefix e.len c.packet hlen)).run
        { c with packet := c.packet.drop e.len } := by
  unfold turn
  simp only [EStateM.run_bind, EStateM.run_get, hphase, hlen, dif_pos]
  rfl

theorem run_deliver_of_expecting (env : Env D S) {c : RFBClient D S} {e : Expected D S}
    (h : c.phase = .expecting e) (data : Bytes) :
    (deliver env data).run c = .ok () (extend c data) := by
  obtain ⟨attrs, packet, phase, aborted⟩ := c
  obtain rfl : phase = .expecting e := h
  rfl

theorem run_deliver_of_initial (env : Env D S) {c : RFBClient D S} (h : c.phase = .initial)
    (data : Bytes) : (deliver env data).run c = (handleInitial env).run (extend c data) := by
  obtain ⟨attrs, packet, phase, aborted⟩ := c
  obtain rfl : phase = .initial := h
  rfl

/-- The client once it has answered a version header. -/
def greeted (c : RFBClient D S) (versionServer version : Ver) : RFBClient D S :=
  { c with
    packet := c.packet.drop 12
    attrs := { c.attrs with
      log := c.attrs.log ++ [.wrote .protocolVersion (versionMessage version)]
      version := version
      versionServer := versionServer }
    phase := .expecting (if ¬Ver.le (3, 7) version then .auth else .numberSecurityTypes) }

theorem run_answerHeader (head : Bytes) (c : RFBClient D S) :
    (answerHeader head).run c = match negotiate (announced head) with
      | none => .error ⟨.valueError, "max() arg is an empty sequence"⟩ c
      | some version => .ok () (greeted c (announced head) version) := by
  unfold answerHeader greeted
  cases hversion : negotiate (announced head) with
  | none =>
    simp only [hversion]
    rfl
  | some version =>
    by_cases h : Ver.le (3, 7) version
    · simp only [hversion, h, not_true_eq_false, if_false]
      rfl
    · simp only [hversion, h, not_false_eq_true, if_true]
      rfl

theorem run_handleInitial (env : Env D S) (c : RFBClient D S) :
    (handleInitial env).run c =
      if normalise (c.packet.take 12) = header then (answerHeader (c.packet.take 12)).run c
      else if ¬normalise (c.packet.take 12) <+: header then
        (abortConnection env
          s!"invalid initial server response bytearray({PyText.repr (c.packet.take 12)})").run c
      else .ok () c := by
  unfold handleInitial
  simp only [EStateM.run_bind, EStateM.run_get]
  split_ifs <;> rfl

/-- A turn calls the parked handler. -/
theorem run_turn_of_hands (env : Env D S) {c : RFBClient D S} {e : Expected D S} {block : Block e.len}
    (h : Hands c e block) :
    (turn env).run c = (handle env e block).run { c with packet := c.packet.drop e.len } := by
  obtain ⟨hphase, hlen, rfl⟩ := h
  exact run_turn env hphase hlen

/-- Where the loop goes on, a handler is parked and its bytes are there. -/
theorem exists_of_ready {c : RFBClient D S} (h : ready c = true) :
    ∃ e, c.phase = .expecting e ∧ e.len ≤ c.packet.length ∧ c.aborted = false := by
  unfold ready at h
  split at h
  · exact absurd h (by simp)
  next e hphase =>
    simp only [Bool.and_eq_true, decide_eq_true_eq, Bool.not_eq_true'] at h
    exact ⟨e, hphase, h.1, h.2⟩

/-! ## Suspended generators stay sound -/

/-- A handler that parks no generator. -/
def Expected.plain : Expected D S → Bool
  | .pump .. => false
  | _ => true

theorem Expected.sound_of_plain {callback : Callback → Py (Attrs D S) Unit} {e : Expected D S}
    (h : e.plain = true) (a : Attrs D S) : e.Sound callback a := by
  cases e with
  | pump task size resume => exact absurd h (by simp [Expected.plain])
  | _ => trivial

/-- No generator is parked. -/
def Plain (c : RFBClient D S) : Prop :=
  match c.phase with
  | .initial => True
  | .expecting e => e.plain = true

theorem sound_of_plain {callback : Callback → Py (Attrs D S) Unit} {c : RFBClient D S}
    (h : Plain c) : Sound callback c := by
  unfold Plain at h
  unfold Sound
  split
  · trivial
  next e hphase =>
    rw [hphase] at h
    exact Expected.sound_of_plain h c.attrs

/-- Aborting parks nothing. -/
theorem plain_abortConnection {reason : String} {c : RFBClient D S} (h : Plain c) :
    Plain (client ((abortConnection (base library decoders) reason).run c)) := by
  rw [run_abortConnection]
  exact h

theorem plain_doConnection (c : RFBClient D S) :
    Plain (client ((doConnection (base library decoders)).run c)) := by
  rw [run_doConnection]
  split_ifs <;> rfl

theorem plain_finish {task : Task} {v : task.Result} {c : RFBClient D S} (h : Plain c) :
    Plain (client ((finish (base library decoders) task v).run c)) := by
  cases task with
  | security secType =>
    cases v with
    | true => rfl
    | false => exact h
  | message msgid => rfl
  | rectangle rect =>
    obtain ⟨changed, paste⟩ := v
    cases paste with
    | none =>
      change Plain (client ((settleRectangle _ rect changed).run c))
      rw [run_settleRectangle]
      exact plain_doConnection _
    | some paste =>
      by_cases hlen : paste.1.length = rect.width * rect.height * paste.2.bypp
      · change Plain (client ((finishRectangle _ rect ⟨changed, some (paste.1, paste.2)⟩).run c))
        rw [run_finishRectangle_of_length hlen, run_settleRectangle]
        exact plain_doConnection _
      · have habort : finish (base library decoders) (.rectangle rect) ⟨changed, some paste⟩ =
            abortConnection (base library decoders) _ := if_pos hlen
        rw [habort]
        exact plain_abortConnection h

/-- One step of a generator that honours a contract leaves a client whose generator is sound. -/
theorem sound_pump {task : Task} {x : GenStep D S task.Result} {c : RFBClient D S} (hplain : Plain c)
    (h : ∀ a size resume, drive (!c.packet.isEmpty) x = .wants a size resume →
      0 ≤ size → (Expected.pump task size resume).Sound (baseCallback library) a) :
    Sound (baseCallback library) (client ((pump (base library decoders) task x).run c)) := by
  rw [run_pump]
  cases hdrive : drive (!c.packet.isEmpty) x with
  | done a v => exact sound_of_plain (plain_finish hplain)
  | failed a e =>
    simp only
    split_ifs
    · exact sound_of_plain (plain_abortConnection hplain)
    · exact sound_of_plain hplain
  | wants a size resume =>
    simp only
    split_ifs with hsize
    · exact sound_of_plain (plain_abortConnection hplain)
    · exact h a size resume hdrive (Int.not_lt.mp hsize)

theorem sound_pump_security {secType : ℕ} {x : GenStep D S Bool} {c : RFBClient D S}
    (hplain : Plain c) (h : x.Honours (negotiation mayRaise) anything c.attrs) :
    Sound (baseCallback library)
      (client ((pump (base library decoders) (.security secType) x).run c)) := by
  refine sound_pump hplain ?_
  intro a size resume hdrive _
  have hpause := drive_honours Meanwhile.refl (!c.packet.isEmpty) h
  rw [hdrive] at hpause
  cases hpause with
  | wants hdoes hasks hnext => exact ⟨hasks.1, hasks.2, hnext⟩

theorem sound_pump_message {msgid : ℕ} {x : GenStep D S Unit} {c : RFBClient D S}
    (hplain : Plain c) (h : x.Honours conversation anything c.attrs) :
    Sound (baseCallback library)
      (client ((pump (base library decoders) (.message msgid) x).run c)) := by
  refine sound_pump hplain ?_
  intro a size resume hdrive _
  have hpause := drive_honours Meanwhile.refl (!c.packet.isEmpty) h
  rw [hdrive] at hpause
  cases hpause with
  | wants hdoes hasks hnext => exact ⟨hasks.1, hasks.2, hnext⟩

theorem sound_pump_rectangle {rect : Rect} {x : GenStep D S Outcome} {c : RFBClient D S}
    (hplain : Plain c) (h : PaintsLast (baseCallback library) c.attrs x) :
    Sound (baseCallback library)
      (client ((pump (base library decoders) (.rectangle rect) x).run c)) := by
  refine sound_pump hplain ?_
  intro a size resume hdrive hsize
  have hpause := drive_paintsLast (!c.packet.isEmpty) h
  rw [hdrive] at hpause
  cases hpause with
  | wants hquiet hnext => exact ⟨hsize, hnext⟩

theorem sound_startSecurity {secType : ℕ} {c : RFBClient D S} (hplain : Plain c) :
    Sound (baseCallback library)
      (client ((startSecurity (base library decoders) secType).run c)) := by
  rw [run_startSecurity]
  cases hhandler : securityHandler (base library decoders) secType with
  | none => exact sound_of_plain (plain_abortConnection hplain)
  | some handler => exact sound_pump_security hplain (honours_securityHandler hhandler c.attrs)

theorem sound_pumpRectangle {rect : Rect} {encoding : ℤ} {c : RFBClient D S} (hplain : Plain c) :
    Sound (baseCallback library)
      (client ((pumpRectangle (base library decoders) rect encoding).run c)) := by
  rw [run_pumpRectangle]
  cases (base library decoders).decoders encoding with
  | none => exact sound_of_plain (plain_abortConnection hplain)
  | some decoder => exact sound_pump_rectangle hplain (decoder.paintsLast _ _ _)

theorem sound_handle {e : Expected D S} {block : Block e.len} {c : RFBClient D S}
    (hphase : c.phase = .expecting e) (h : e.Sound (baseCallback library) c.attrs) :
    Sound (baseCallback library) (client ((handle (base library decoders) e block).run c)) := by
  have hplain : e.plain = true → Plain c := by
    intro he
    unfold Plain
    rw [hphase]
    exact he
  cases e with
  | auth =>
    have hp := hplain rfl
    simp only [handle, handleAuth]
    split_ifs
    · trivial
    · exact sound_startSecurity hp
    · exact sound_of_plain (plain_abortConnection hp)
  | numberSecurityTypes =>
    simp only [handle, handleNumberSecurityTypes]
    split_ifs <;> trivial
  | securityTypes count =>
    have hp := hplain rfl
    simp only [handle, handleSecurityTypes]
    split
    next secType _ => exact sound_startSecurity hp
    · exact sound_of_plain (plain_abortConnection hp)
  | connFailed =>
    have hp := hplain rfl
    simp only [handle, handleConnFailed]
    split_ifs
    · exact sound_of_plain (plain_abortConnection hp)
    · trivial
  | connMessage waitfor => exact sound_of_plain (plain_abortConnection (hplain rfl))
  | serverInit => trivial
  | serverName namelen => trivial
  | connection =>
    have hp := hplain rfl
    simp only [handle, handleConnection]
    split_ifs
    · trivial
    · split
      · exact sound_of_plain (plain_abortConnection hp)
      next handler hhandler =>
        exact sound_pump_message hp (honours_messageHandler hhandler c.attrs)
  | framebufferUpdate =>
    simp only [handle]
    rw [run_handleFramebufferUpdate]
    exact sound_of_plain (plain_doConnection _)
  | rectangle =>
    simp only [handle]
    rw [run_handleRectangle]
    split_ifs
    · exact sound_pumpRectangle (hplain rfl)
    · exact sound_of_plain (plain_doConnection _)
  -- The pump is resumed with the finished generator parked, which is as good as any plain handler.
  | pump task size resume =>
    rw [run_handle_pump]
    have hplain : Plain { c with phase := .expecting (.ended task size.toNat) } := rfl
    cases task with
    | security secType => exact sound_pump_security hplain (h.2.2 block c.attrs (Meanwhile.refl _))
    | message msgid => exact sound_pump_message hplain (h.2.2 block c.attrs (Meanwhile.refl _))
    | rectangle rect => exact sound_pump_rectangle hplain (h.2 block c.attrs)
  | ended task size =>
    have hp := hplain rfl
    cases task with
    | security secType => exact sound_of_plain (c := c) hp
    | message msgid => trivial
    | rectangle rect => exact sound_of_plain (c := c) hp

/-- A generator stays sound when a delivery clears the pending flag of the TLS handshake. -/
theorem Expected.Sound.extend {callback : Callback → Py (Attrs D S) Unit} {a : Attrs D S}
    {e : Expected D S} (h : e.Sound callback a) (pending : Bool) :
    e.Sound callback { a with tlsHandshakePending := pending } := by
  have hmeanwhile : Meanwhile a { a with tlsHandshakePending := pending } := ⟨pending, rfl⟩
  cases e with
  | pump task size resume =>
    cases task with
    | security secType => exact ⟨h.1, h.2.1, fun block t ht => h.2.2 block t (hmeanwhile.trans ht)⟩
    | message msgid => exact ⟨h.1, h.2.1, fun block t ht => h.2.2 block t (hmeanwhile.trans ht)⟩
    | rectangle rect => exact h
  | _ => trivial

theorem sound_deliver {c : RFBClient D S} (data : Bytes) (h : Sound (baseCallback library) c) :
    Sound (baseCallback library) (client ((deliver (base library decoders) data).run c)) := by
  cases hphase : c.phase with
  | initial =>
    have hplain : Plain (extend c data) := by
      unfold Plain
      rw [show (extend c data).phase = .initial from hphase]
      trivial
    rw [run_deliver_of_initial _ hphase, run_handleInitial]
    split_ifs
    · rw [run_answerHeader]
      cases negotiate (announced ((extend c data).packet.take 12)) with
      | none => exact sound_of_plain hplain
      | some version =>
        refine sound_of_plain ?_
        unfold Plain greeted client
        simp only
        split_ifs <;> rfl
    · exact sound_of_plain hplain
    · exact sound_of_plain (plain_abortConnection hplain)
  | expecting e =>
    rw [run_deliver_of_expecting _ hphase]
    unfold Sound at h ⊢
    rw [show (client (.ok () (extend c data))).phase = .expecting e from hphase]
    rw [hphase] at h
    exact h.extend false

theorem sound_turn {c : RFBClient D S} (hready : ready c = true)
    (h : Sound (baseCallback library) c) :
    Sound (baseCallback library) (client ((turn (base library decoders)).run c)) := by
  obtain ⟨e, hphase, hlen, -⟩ := exists_of_ready hready
  rw [run_turn _ hphase hlen]
  unfold Sound at h
  rw [hphase] at h
  exact sound_handle hphase h

/-- At every point of a run the suspended generator keeps its contract. -/
theorem sound_of_reaches {factory : Factory} {decoding : D} {own : S} {received : Bytes}
    {d : Delivery D S} (h : Reaches (base library decoders) (fresh factory decoding own) received d) :
    Sound (baseCallback library) (client d) := by
  refine Reaches.induct (P := fun _ c => Sound (baseCallback library) c) ?_ ?_ ?_ ?_ h
  · exact sound_of_plain (c := fresh factory decoding own) trivial
  · intro _ c data hc _
    exact sound_deliver data hc
  · intro _ c data hc _
    exact hc
  · intro _ c hc hready
    exact sound_turn hready hc

end RFBClient

end VncDoTool
