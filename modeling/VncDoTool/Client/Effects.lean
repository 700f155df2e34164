import VncDoTool.Client.Steps

/-!
# What a handler call shows

* `RFBClient.Expected.shows`: what each parked handler may show the outside world.
* `RFBClient.Leaves`: a handler call shows only that, unless it aborts: then it ends with one
  complaint and the closing of the connection.
* `RFBClient.leaves_turn`, `RFBClient.leaves_deliver`: every turn of the loop and every delivery.
-/

namespace VncDoTool

namespace RFBClient

variable {D S : Type} {library : Library}
  {decoders : ℤ → Option (Decoder (D := D) (S := S) (baseCallback library))}

/-- A call of `vncProtocolError`. -/
def Event.complains : Event → Bool
  | .called (.vncProtocolError _) => true
  | _ => false

/-- ClientInit. -/
def Event.initialises : Event → Bool
  | .wrote .clientInit _ => true
  | _ => false

/-- What settling the security type shows: the choice, the negotiation, and ClientInit at its end. -/
def Event.secures : Event → Bool
  | .wrote .securityType _ => true
  | e => e.negotiates || e.initialises

/-- What a FramebufferUpdate shows. -/
def Event.updates : Event → Bool
  | .called .beginUpdate | .called (.commitUpdate _) | .called (.updateRectangle ..) => true
  | .called callback => callback.paints
  | _ => false

/-- The answer to a version header. -/
def Event.greets : Event → Bool
  | .wrote .protocolVersion _ => true
  | _ => false

/-- What a parked handler may show. -/
def Expected.shows : Expected D S → Event → Bool
  | .auth | .securityTypes _ | .pump (.security _) _ _ => Event.secures
  | .serverName _ => fun e => decide (e = .called .vncConnectionMade)
  | .connection | .pump (.message _) _ _ => Event.converses
  | .framebufferUpdate | .rectangle | .pump (.rectangle _) _ _ => Event.updates
  | .numberSecurityTypes | .connFailed | .connMessage _ | .serverInit | .ended _ _ => fun _ => false

theorem secures_of_negotiates {e : Event} (h : e.negotiates = true) : e.secures = true := by
  unfold Event.secures
  split
  · rfl
  · rw [h]
    rfl

/-- How a handler call on `c` leaves the client when it shows only what `P` says: going on, or
aborted, with one complaint and the closing of the connection as the last things it did. -/
inductive Leaves (P : Event → Bool) (c : RFBClient D S) : RFBClient D S → Prop
  | going {c' : RFBClient D S} (es : List Event) (hlog : c'.attrs.log = c.attrs.log ++ es)
      (hes : ∀ e ∈ es, P e = true) (hlive : c'.aborted = false) : Leaves P c c'
  | aborted {c' : RFBClient D S} (es : List Event) (reason : String)
      (hlog : c'.attrs.log =
        c.attrs.log ++ es ++ [.called (.vncProtocolError reason), .loseConnection])
      (hes : ∀ e ∈ es, P e = true) (habort : c'.aborted = true) (hpacket : c'.packet = []) :
      Leaves P c c'

namespace Leaves

variable {P : Event → Bool}

/-- A call that shows nothing. -/
theorem silent {c c' : RFBClient D S} (hlog : c'.attrs.log = c.attrs.log)
    (hlive : c'.aborted = false) : Leaves P c c' :=
  .going [] (by rw [hlog, List.append_nil]) (by simp) hlive

/-- A call that shows one thing. -/
theorem one {c c' : RFBClient D S} (e : Event) (hlog : c'.attrs.log = c.attrs.log ++ [e])
    (he : P e = true) (hlive : c'.aborted = false) : Leaves P c c' :=
  .going [e] hlog (by simpa using he) hlive

/-- What was shown before is shown before. -/
theorem after {c₀ c c' : RFBClient D S} {es : List Event} (h : Leaves P c c')
    (hlog : c.attrs.log = c₀.attrs.log ++ es) (hes : ∀ e ∈ es, P e = true) : Leaves P c₀ c' := by
  have hboth : ∀ es', (∀ e ∈ es', P e = true) → ∀ e ∈ es ++ es', P e = true := by
    intro es' hes' e he
    rcases List.mem_append.mp he with he | he
    · exact hes e he
    · exact hes' e he
  cases h with
  | going es' hlog' hes' hlive =>
    exact .going (es ++ es') (by rw [hlog', hlog, List.append_assoc]) (hboth es' hes') hlive
  | aborted es' reason hlog' hes' habort hpacket =>
    refine .aborted (es ++ es') reason ?_ (hboth es' hes') habort hpacket
    rw [hlog', hlog]
    simp only [List.append_assoc]

/-- The same, where nothing was shown before. -/
theorem after_silent {c₀ c c' : RFBClient D S} (h : Leaves P c c')
    (hlog : c.attrs.log = c₀.attrs.log) : Leaves P c₀ c' :=
  h.after (by rw [hlog, List.append_nil]) (List.forall_mem_nil _)

/-- The same, where one thing was shown before. -/
theorem after_one {c₀ c c' : RFBClient D S} (h : Leaves P c c') (e : Event)
    (hlog : c.attrs.log = c₀.attrs.log ++ [e]) (he : P e = true) : Leaves P c₀ c' :=
  h.after hlog (List.forall_mem_singleton.2 he)

/-- All that was shown, the end of an abort aside. -/
theorem exists_shown {c c' : RFBClient D S} (h : Leaves P c c') :
    ∃ es, c'.attrs.log = c.attrs.log ++ es ∧
      ∀ e ∈ es, P e = true ∨ e.complains = true ∨ e = .loseConnection := by
  cases h with
  | going es hlog hes _ => exact ⟨es, hlog, fun e he => .inl (hes e he)⟩
  | aborted es reason hlog hes _ _ =>
    refine ⟨es ++ [.called (.vncProtocolError reason), .loseConnection], ?_, ?_⟩
    · rw [hlog, List.append_assoc]
    · intro e he
      rcases List.mem_append.mp he with he | he
      · exact .inl (hes e he)
      · rcases List.mem_cons.mp he with rfl | he
        · exact .inr (.inl rfl)
        · exact .inr (.inr (List.mem_singleton.mp he))

end Leaves

section

variable {P : Event → Bool}

theorem leaves_abortConnection (reason : String) (c : RFBClient D S) :
    Leaves P c (client ((abortConnection (base library decoders) reason).run c)) := by
  rw [run_abortConnection]
  exact .aborted [] reason (by rw [List.append_nil]; rfl) (by simp) rfl rfl

theorem leaves_doConnection {c : RFBClient D S} (hlive : c.aborted = false) :
    Leaves Event.updates c (client ((doConnection (base library decoders)).run c)) := by
  rw [run_doConnection]
  by_cases hrect : c.attrs.rectangles ≠ 0
  · rw [if_pos hrect]
    exact .silent rfl hlive
  · rw [if_neg hrect]
    exact .one (.called (.commitUpdate c.attrs.rectanglePos)) rfl rfl hlive

theorem leaves_settleRectangle (rect : Rect) (changed : Bool) {c : RFBClient D S}
    (hlive : c.aborted = false) :
    Leaves Event.updates c
      (client ((settleRectangle (base library decoders) rect changed).run c)) := by
  rw [run_settleRectangle]
  cases changed with
  | false => exact leaves_doConnection hlive
  | true =>
    refine Leaves.after_silent (c := { c with
      attrs := { c.attrs with rectanglePos := c.attrs.rectanglePos ++ [rect] } }) ?_ rfl
    exact leaves_doConnection hlive

theorem leaves_finishRectangle (rect : Rect) (outcome : Outcome) {c : RFBClient D S}
    (hlive : c.aborted = false) :
    Leaves Event.updates c
      (client ((finishRectangle (base library decoders) rect outcome).run c)) := by
  obtain ⟨changed, paste⟩ := outcome
  cases paste with
  | none => exact leaves_settleRectangle rect changed hlive
  | some paste =>
    by_cases hlen : paste.1.length = rect.width * rect.height * paste.2.bypp
    · change Leaves Event.updates c
        (client ((finishRectangle _ rect ⟨changed, some (paste.1, paste.2)⟩).run c))
      rw [run_finishRectangle_of_length hlen]
      refine Leaves.after_one (leaves_settleRectangle rect changed ?_)
        (.called (.updateRectangle rect paste.1 paste.2)) ?_ rfl
      · exact hlive
      · rfl
    · have habort : finishRectangle (base library decoders) rect ⟨changed, some paste⟩ =
          abortConnection (base library decoders) _ := if_pos hlen
      rw [habort]
      exact leaves_abortConnection _ c

/-- One step of a generator that shows only what `P` says. -/
theorem leaves_pump {task : Task} {x : GenStep D S task.Result} {c : RFBClient D S}
    (hlive : c.aborted = false)
    (hfinish : ∀ v a, Leaves P { c with attrs := a }
      (client ((finish (base library decoders) task v).run { c with attrs := a })))
    (h : ∀ a, (∃ v, drive (!c.packet.isEmpty) x = .done a v) ∨
        (∃ e, drive (!c.packet.isEmpty) x = .failed a e) ∨
        (∃ size resume, drive (!c.packet.isEmpty) x = .wants a size resume) →
      ∃ es, a.log = c.attrs.log ++ es ∧ ∀ e ∈ es, P e = true) :
    Leaves P c (client ((pump (base library decoders) task x).run c)) := by
  rw [run_pump]
  cases hdrive : drive (!c.packet.isEmpty) x with
  | done a v =>
    obtain ⟨es, hlog, hes⟩ := h a (.inl ⟨v, hdrive⟩)
    exact (hfinish v a).after hlog hes
  | failed a e =>
    obtain ⟨es, hlog, hes⟩ := h a (.inr (.inl ⟨e, hdrive⟩))
    simp only
    split_ifs
    · exact (leaves_abortConnection _ { c with attrs := a }).after hlog hes
    · exact .going es hlog hes hlive
  | wants a size resume =>
    obtain ⟨es, hlog, hes⟩ := h a (.inr (.inr ⟨size, resume, hdrive⟩))
    simp only
    split_ifs
    · exact (leaves_abortConnection _ { c with attrs := a }).after hlog hes
    · exact .going es hlog hes hlive

/-- One step of a generator that honours a contract. -/
theorem leaves_pump_handling {task : Task} {P' : Event → Bool} {raises : PyErr → Prop}
    {Q : Attrs D S → task.Result → Prop} {x : GenStep D S task.Result} {c : RFBClient D S}
    (hlive : c.aborted = false) (hP : ∀ e, P' e = true → P e = true)
    (hfinish : ∀ v a, Leaves P { c with attrs := a }
      (client ((finish (base library decoders) task v).run { c with attrs := a })))
    (h : x.Honours (handling P' raises) Q c.attrs) :
    Leaves P c (client ((pump (base library decoders) task x).run c)) := by
  have hpause := drive_honours Meanwhile.refl (!c.packet.isEmpty) h
  have hlog : ∀ a, Handles P' c.attrs a →
      ∃ es, a.log = c.attrs.log ++ es ∧ ∀ e ∈ es, P e = true := by
    rintro a ⟨_, _, _, _, _, es, rfl, hes⟩
    exact ⟨es, rfl, fun e he => hP e (hes e he)⟩
  refine leaves_pump hlive hfinish ?_
  rintro a (⟨v, hdrive⟩ | ⟨e, hdrive⟩ | ⟨size, resume, hdrive⟩)
  all_goals
    rw [hdrive] at hpause
    cases hpause
    exact hlog a ‹_›

theorem leaves_pump_security {secType : ℕ} {x : GenStep D S Bool} {c : RFBClient D S}
    (hlive : c.aborted = false) (h : x.Honours (negotiation mayRaise) anything c.attrs) :
    Leaves Event.secures c (client ((pump (base library decoders) (.security secType) x).run c)) := by
  refine leaves_pump_handling hlive (fun _ => secures_of_negotiates) ?_ h
  intro proceed a
  cases proceed with
  | true => exact .one _ rfl rfl hlive
  | false => exact .silent rfl hlive

theorem leaves_pump_message {msgid : ℕ} {x : GenStep D S Unit} {c : RFBClient D S}
    (hlive : c.aborted = false) (h : x.Honours conversation anything c.attrs) :
    Leaves Event.converses c (client ((pump (base library decoders) (.message msgid) x).run c)) :=
  leaves_pump_handling hlive (fun _ he => he) (fun _ _ => .silent rfl hlive) h

end

/-! ## Decoders -/

/-- A callback a decoder makes is only logged. -/
theorem run_invoke_of_paints {method : Callback} (h : method.paints = true) (a : Attrs D S) :
    (invoke (baseCallback library) method).run a =
      .ok () { a with log := a.log ++ [.called method] } := by
  cases method <;> first | rfl | exact absurd h (by simp [Callback.paints])

theorem updates_of_paints {method : Callback} (h : method.paints = true) :
    (Event.called method).updates = true := by
  cases method <;> first | rfl | exact absurd h (by simp [Callback.paints])

/-- What a decoder has done when it returns. -/
theorem PaintsLast.of_done {a a' : Attrs D S} {outcome : Outcome}
    (h : PaintsLast (baseCallback library) a (.done a' outcome)) :
    Quiet a a' ∨ outcome.paste = none ∧ ∃ a₁ method, Quiet a a₁ ∧ method.paints = true ∧
      a' = { a₁ with log := a₁.log ++ [.called method] } := by
  rcases h with h | ⟨hpaste, a₁, method, hquiet, hpaints, hrun⟩
  · exact .inl h
  · rw [run_invoke_of_paints hpaints] at hrun
    exact .inr ⟨hpaste, a₁, method, hquiet, hpaints, (EStateM.Result.ok.inj hrun).2.symm⟩

/-- A decoder that fails has done nothing. -/
theorem PaintsLast.of_failed {a a' : Attrs D S} {e : PyErr}
    (h : PaintsLast (baseCallback library) a (.failed a' e)) : Quiet a a' := by
  rcases h with h | ⟨a₁, method, hquiet, hpaints, hrun⟩
  · exact h
  · rw [run_invoke_of_paints hpaints] at hrun
    exact absurd hrun (by simp)

theorem Quiet.log_eq {a a' : Attrs D S} (h : Quiet a a') : a'.log = a.log := by
  obtain ⟨d, n, rfl⟩ := h
  rfl

theorem Quiet.rectanglePos_eq {a a' : Attrs D S} (h : Quiet a a') :
    a'.rectanglePos = a.rectanglePos := by
  obtain ⟨d, n, rfl⟩ := h
  rfl

/-- One step of a decoder. -/
theorem leaves_pump_rectangle {rect : Rect} {x : GenStep D S Outcome} {c : RFBClient D S}
    (hlive : c.aborted = false) (h : PaintsLast (baseCallback library) c.attrs x) :
    Leaves Event.updates c
      (client ((pump (base library decoders) (.rectangle rect) x).run c)) := by
  have hpause := drive_paintsLast (!c.packet.isEmpty) h
  refine leaves_pump hlive (fun v a => leaves_finishRectangle rect v hlive) ?_
  rintro a (⟨v, hdrive⟩ | ⟨e, hdrive⟩ | ⟨size, resume, hdrive⟩)
  · rw [hdrive] at hpause
    cases hpause with
    | done hdone =>
      rcases hdone.of_done with hquiet | ⟨-, a₁, method, hquiet, hpaints, rfl⟩
      · exact ⟨[], by rw [hquiet.log_eq, List.append_nil], by simp⟩
      · refine ⟨[.called method], by rw [← hquiet.log_eq], ?_⟩
        intro e he
        rw [List.mem_singleton.mp he]
        exact updates_of_paints hpaints
  · rw [hdrive] at hpause
    cases hpause with
    | failed hfailed => exact ⟨[], by rw [hfailed.of_failed.log_eq, List.append_nil], by simp⟩
  · rw [hdrive] at hpause
    cases hpause with
    | wants hquiet hnext => exact ⟨[], by rw [hquiet.log_eq, List.append_nil], by simp⟩

/-! ## One handler call -/

theorem leaves_startSecurity (secType : ℕ) {c : RFBClient D S} (hlive : c.aborted = false) :
    Leaves Event.secures c (client ((startSecurity (base library decoders) secType).run c)) := by
  rw [run_startSecurity]
  cases hhandler : securityHandler (base library decoders) secType with
  | none => exact leaves_abortConnection _ c
  | some handler =>
    exact leaves_pump_security hlive (honours_securityHandler hhandler c.attrs)

theorem leaves_handle {e : Expected D S} {block : Block e.len} {c : RFBClient D S}
    (h : e.Sound (baseCallback library) c.attrs) (hlive : c.aborted = false) :
    Leaves e.shows c (client ((handle (base library decoders) e block).run c)) := by
  cases e with
  | auth =>
    simp only [handle, handleAuth]
    split_ifs
    · exact .silent rfl hlive
    · exact leaves_startSecurity _ hlive
    · exact leaves_abortConnection _ c
  | numberSecurityTypes =>
    simp only [handle, handleNumberSecurityTypes]
    split_ifs <;> exact .silent rfl hlive
  | securityTypes count =>
    simp only [handle, handleSecurityTypes]
    split
    next secType _ =>
      refine Leaves.after_one (leaves_startSecurity secType (c := { c with attrs := { c.attrs with
        log := c.attrs.log ++ [.wrote .securityType [UInt8.ofNat secType]] } }) hlive) _ rfl rfl
    · exact leaves_abortConnection _ c
  | connFailed =>
    simp only [handle, handleConnFailed]
    split_ifs
    · exact leaves_abortConnection _ c
    · exact .silent rfl hlive
  | connMessage waitfor => exact leaves_abortConnection _ c
  | serverInit => exact .silent rfl hlive
  | serverName namelen => exact .one (.called .vncConnectionMade) rfl rfl hlive
  | connection =>
    simp only [handle, handleConnection]
    split_ifs
    · exact .silent rfl hlive
    · split
      · exact leaves_abortConnection _ c
      next handler hhandler =>
        exact leaves_pump_message hlive (honours_messageHandler hhandler c.attrs)
  | framebufferUpdate =>
    simp only [handle]
    rw [run_handleFramebufferUpdate]
    refine Leaves.after_one (leaves_doConnection ?_) (.called .beginUpdate) ?_ rfl
    · exact hlive
    · rfl
  | rectangle =>
    simp only [handle]
    rw [run_handleRectangle]
    split_ifs
    · rw [run_pumpRectangle]
      split
      next decoder _ =>
        refine Leaves.after_silent (leaves_pump_rectangle ?_ (decoder.paintsLast _ _ _)) ?_
        · exact hlive
        · rfl
      · refine Leaves.after_silent (leaves_abortConnection _ _) ?_
        rfl
    · refine Leaves.after_silent (leaves_doConnection ?_) ?_
      · exact hlive
      · rfl
  | pump task size resume =>
    rw [run_handle_pump]
    -- The generator runs with itself parked as finished.
    have hover : Leaves (Expected.pump task size resume).shows
        { c with phase := .expecting (.ended task size.toNat) }
        (client ((pump (base library decoders) task (resume block c.attrs)).run
          { c with phase := .expecting (.ended task size.toNat) })) := by
      cases task with
      | security secType =>
        exact leaves_pump_security hlive (h.2.2 block c.attrs (Meanwhile.refl _))
      | message msgid => exact leaves_pump_message hlive (h.2.2 block c.attrs (Meanwhile.refl _))
      | rectangle rect => exact leaves_pump_rectangle hlive (h.2 block c.attrs)
    exact hover.after_silent rfl
  | ended task size => cases task <;> exact .silent rfl hlive

/-- One turn of the loop. -/
theorem leaves_turn {c : RFBClient D S} {e : Expected D S} (hsound : Sound (baseCallback library) c)
    (hready : ready c = true) (hphase : c.phase = .expecting e) :
    Leaves e.shows c (client ((turn (base library decoders)).run c)) := by
  obtain ⟨e', hphase', hlen, hlive⟩ := exists_of_ready hready
  obtain rfl : e' = e := Phase.expecting.inj (hphase'.symm.trans hphase)
  unfold Sound at hsound
  rw [hphase] at hsound
  rw [run_turn _ hphase hlen]
  have hhandle : Leaves e'.shows { c with packet := c.packet.drop e'.len }
      (client ((handle (base library decoders) e' (Block.ofPrefix e'.len c.packet hlen)).run
        { c with packet := c.packet.drop e'.len })) :=
    leaves_handle hsound hlive
  exact hhandle.after_silent rfl

/-- One delivery, up to the loop. -/
theorem leaves_deliver {c : RFBClient D S} (data : Bytes) (hlive : c.aborted = false) :
    Leaves Event.greets c
      (client ((deliver (base library decoders) data).run c)) := by
  cases hphase : c.phase with
  | initial =>
    rw [run_deliver_of_initial _ hphase, run_handleInitial]
    split_ifs
    · rw [run_answerHeader]
      cases negotiate (announced ((extend c data).packet.take 12)) with
      | none => exact .silent rfl hlive
      | some version => exact .one (.wrote .protocolVersion (versionMessage version)) rfl rfl hlive
    · exact .silent rfl hlive
    · exact (leaves_abortConnection _ (extend c data)).after_silent rfl
  | expecting e =>
    rw [run_deliver_of_expecting _ hphase]
    exact .silent rfl hlive

end RFBClient

end VncDoTool
