import VncDoTool.Client.Gate

/-!
# Authentication before the session

* `RFBClient.admitted_handle`, `RFBClient.not_initialises_of_admitted`: inside the session no handler
  call leaves it, or writes ClientInit.
* `RFBClient.Admission`: a run that is in the session has entered it by a handler call that found the
  security exchange to have succeeded.
* `RFBClient.doomed_of_reaches`: after any other SecurityResult a run never enters it.
* `RFBClient.session_authenticated`: the three together.
-/

namespace VncDoTool

namespace RFBClient

variable {D S : Type} {env : Env D S} {library : Library}
  {decoders : ℤ → Option (Decoder (D := D) (S := S) (baseCallback library))}

/-! ## Handler calls inside the session -/

theorem admitted_abortConnection (reason : String) (c : RFBClient D S) :
    admitted (client ((abortConnection (base library decoders) reason).run c)) = admitted c := by
  rw [run_abortConnection]
  rfl

theorem admitted_doConnection (c : RFBClient D S) :
    admitted (client ((doConnection (base library decoders)).run c)) = true := by
  rw [run_doConnection]
  split_ifs <;> rfl

theorem admitted_finish {task : Task} (htask : task.inSession = true) (v : task.Result)
    {c : RFBClient D S} (hc : admitted c = true) :
    admitted (client ((finish (base library decoders) task v).run c)) = true := by
  cases task with
  | security secType => exact absurd htask (by simp [Task.inSession])
  | message msgid => rfl
  | rectangle rect =>
    obtain ⟨changed, paste⟩ := v
    cases paste with
    | none =>
      change admitted (client ((settleRectangle _ rect changed).run c)) = true
      rw [run_settleRectangle]
      exact admitted_doConnection _
    | some paste =>
      by_cases hlen : paste.1.length = rect.width * rect.height * paste.2.bypp
      · change admitted
          (client ((finishRectangle _ rect ⟨changed, some (paste.1, paste.2)⟩).run c)) = true
        rw [run_finishRectangle_of_length hlen, run_settleRectangle]
        exact admitted_doConnection _
      · have habort : finish (base library decoders) (.rectangle rect) ⟨changed, some paste⟩ =
            abortConnection (base library decoders) _ := if_pos hlen
        rw [habort, admitted_abortConnection]
        exact hc

theorem admitted_pump {task : Task} (htask : task.inSession = true) (x : GenStep D S task.Result)
    {c : RFBClient D S} (hc : admitted c = true) :
    admitted (client ((pump (base library decoders) task x).run c)) = true := by
  rw [run_pump]
  cases drive (!c.packet.isEmpty) x with
  | done a v => exact admitted_finish htask v hc
  | failed a e =>
    simp only
    split_ifs
    · rw [admitted_abortConnection]
      exact hc
    · exact hc
  | wants a size resume =>
    simp only
    split_ifs
    · rw [admitted_abortConnection]
      exact hc
    · exact htask

/-- The client stays in the session. -/
theorem admitted_handle {e : Expected D S} {block : Block e.len} {c : RFBClient D S}
    (hphase : c.phase = .expecting e) (he : e.admitted = true) :
    admitted (client ((handle (base library decoders) e block).run c)) = true := by
  have hc : admitted c = true := by
    unfold admitted
    rw [hphase]
    exact he
  cases e with
  | serverInit => rfl
  | serverName namelen => rfl
  | connection =>
    simp only [handle, handleConnection]
    split_ifs
    · rfl
    · split
      · rw [admitted_abortConnection]
        exact hc
      next handler _ => exact admitted_pump rfl _ hc
  | framebufferUpdate =>
    simp only [handle]
    rw [run_handleFramebufferUpdate]
    exact admitted_doConnection _
  | rectangle =>
    simp only [handle]
    rw [run_handleRectangle]
    split_ifs
    · rw [run_pumpRectangle]
      split
      next decoder _ => exact admitted_pump rfl _ hc
      · rw [admitted_abortConnection]
        exact hc
    · exact admitted_doConnection _
  | pump task size resume =>
    rw [run_handle_pump]
    exact admitted_pump he _ he
  -- A generator that was finished is one of a message or a rectangle: no exchange is reopened.
  | ended task size =>
    cases task with
    | message msgid => rfl
    | security secType => exact absurd he (by simp [Expected.admitted, Task.inSession])
    | rectangle rect => exact hc
  | _ => exact absurd he (by simp [Expected.admitted])

/-- No handler of the session writes ClientInit. -/
theorem not_initialises_of_admitted {e : Expected D S} (h : e.admitted = true) {ev : Event}
    (hshows : e.shows ev = true) : ev.initialises = false := by
  cases ev with
  | wrote what data =>
    cases what with
    | clientInit =>
      cases e with
      | pump task size resume =>
        cases task <;> exact absurd hshows (by simp_all [Expected.shows, Expected.admitted,
          Task.inSession, Event.converses, Event.updates])
      | _ => exact absurd hshows (by simp_all [Expected.shows, Expected.admitted,
          Event.converses, Event.updates])
    | _ => rfl
  | _ => rfl

/-! ## Runs -/

/-- The run has entered the session: by a handler call that found the security exchange to have
succeeded, and with ClientInit as the last thing it showed. -/
structure Admission (env : Env D S) (c₀ : RFBClient D S) (received : Bytes) (d : Delivery D S)
    (c : RFBClient D S) (before after : Bytes) : Prop where
  received_eq : received = before ++ after
  reaches : Reaches env c₀ before (.ok () c)
  ready : ready c = true
  accepts : Accepts env c
  /-- Before it nothing of a session was shown. -/
  outside : ∀ e ∈ c.attrs.log, e.proceeds = false
  enters : Enters c ((turn env).run c)
  /-- After it the run goes on from there. -/
  goesOn : Reaches env (client ((turn env).run c)) after d

/-- A run is outside the session and has shown nothing of one, or it has entered once. -/
inductive Admitted (env : Env D S) (c₀ : RFBClient D S) (received : Bytes) (d : Delivery D S) : Prop
  | outside (hout : Outside env (client d)) (hlog : ∀ e ∈ (client d).attrs.log, e.proceeds = false)
  | inside (hin : admitted (client d) = true)
      (hlog : (client d).attrs.log.countP Event.initialises = 1) (c : RFBClient D S)
      (before after : Bytes) (h : Admission env c₀ received d c before after)

/-- What shows nothing of a session does not count. -/
theorem countP_initialises_of_not_proceeds {es : List Event} (h : ∀ e ∈ es, e.proceeds = false) :
    es.countP Event.initialises = 0 := by
  rw [List.countP_eq_zero]
  intro e he hinit
  exact absurd (proceeds_of_initialises hinit) (by rw [h e he]; simp)

/-- The log goes on with what shows nothing of a session. -/
def ShowsNothing (c c' : RFBClient D S) : Prop :=
  ∃ es, c'.attrs.log = c.attrs.log ++ es ∧ ∀ e ∈ es, e.proceeds = false

namespace ShowsNothing

variable {c c' : RFBClient D S}

theorem forall_mem (h : ShowsNothing c c') (hc : ∀ e ∈ c.attrs.log, e.proceeds = false) :
    ∀ e ∈ c'.attrs.log, e.proceeds = false := by
  obtain ⟨es, hlog, hes⟩ := h
  intro e he
  rw [hlog] at he
  rcases List.mem_append.mp he with he | he
  · exact hc e he
  · exact hes e he

theorem countP_eq (h : ShowsNothing c c') :
    c'.attrs.log.countP Event.initialises = c.attrs.log.countP Event.initialises := by
  obtain ⟨es, hlog, hes⟩ := h
  rw [hlog, List.countP_append, countP_initialises_of_not_proceeds hes, Nat.add_zero]

end ShowsNothing

/-- A delivery shows nothing of a session. -/
theorem showsNothing_deliver {c : RFBClient D S} (data : Bytes) (hlive : c.aborted = false) :
    ShowsNothing c (client ((deliver (base library decoders) data).run c)) := by
  have hleaves : Leaves Event.greets c (client ((deliver (base library decoders) data).run c)) :=
    leaves_deliver data hlive
  obtain ⟨es, hlog, hes⟩ := hleaves.exists_shown
  refine ⟨es, hlog, ?_⟩
  intro e he
  rcases hes e he with hgreets | hcomplains | rfl
  · cases e with
    | wrote what _ => cases what <;> first | rfl | exact absurd hgreets (by simp [Event.greets])
    | _ => exact absurd hgreets (by simp [Event.greets])
  · cases e with
    | called callback =>
      cases callback <;> first | rfl | exact absurd hcomplains (by simp [Event.complains])
    | _ => exact absurd hcomplains (by simp [Event.complains])
  · rfl

/-- A delivery does not lead out of the negotiation. -/
theorem outside_deliver {c : RFBClient D S} (data : Bytes)
    (hout : Outside (base library decoders) c) :
    Outside (base library decoders) (client ((deliver (base library decoders) data).run c)) := by
  cases hphase : c.phase with
  | initial =>
    have hextend : Outside (base library decoders) (extend c data) := by
      unfold Outside
      rw [show (extend c data).phase = .initial from hphase]
      trivial
    rw [run_deliver_of_initial _ hphase, run_handleInitial]
    split_ifs
    · rw [run_answerHeader]
      cases negotiate (announced ((extend c data).packet.take 12)) with
      | none => exact hextend
      | some version =>
        unfold Outside greeted client
        simp only
        split_ifs <;> rfl
    · exact hextend
    · rw [run_abortConnection]
      exact hextend
  | expecting e =>
    rw [run_deliver_of_expecting _ hphase]
    exact hout

/-- Where a handler is parked, a delivery leaves it parked. -/
theorem phase_deliver {c : RFBClient D S} {e : Expected D S} (hphase : c.phase = .expecting e)
    (data : Bytes) : (client ((deliver env data).run c)).phase = .expecting e := by
  rw [run_deliver_of_expecting _ hphase]
  exact hphase

/-- A client in the session has a handler parked. -/
theorem exists_of_admitted {c : RFBClient D S} (h : admitted c = true) :
    ∃ e, c.phase = .expecting e ∧ e.admitted = true := by
  unfold admitted at h
  split at h
  · exact absurd h (by simp)
  next e hphase => exact ⟨e, hphase, h⟩

theorem admitted_of_phase {c : RFBClient D S} {e : Expected D S} (hphase : c.phase = .expecting e)
    (he : e.admitted = true) : admitted c = true := by
  unfold admitted
  rw [hphase]
  exact he

/-- A turn of the loop inside the session. -/
theorem admitted_turn {c : RFBClient D S} (hsound : Sound (baseCallback library) c)
    (hready : ready c = true) (hin : admitted c = true) :
    admitted (client ((turn (base library decoders)).run c)) = true ∧
      (client ((turn (base library decoders)).run c)).attrs.log.countP Event.initialises =
        c.attrs.log.countP Event.initialises := by
  obtain ⟨e, hphase, hlen, -⟩ := exists_of_ready hready
  obtain ⟨e', hphase', he⟩ := exists_of_admitted hin
  obtain rfl : e = e' := Phase.expecting.inj (hphase.symm.trans hphase')
  constructor
  · rw [run_turn _ hphase hlen]
    exact admitted_handle hphase he
  · have hleaves : Leaves e.shows c (client ((turn (base library decoders)).run c)) :=
      leaves_turn hsound hready hphase
    obtain ⟨es, hlog, hes⟩ := hleaves.exists_shown
    have hnone : es.countP Event.initialises = 0 := by
      rw [List.countP_eq_zero]
      intro ev hev hinit
      rcases hes ev hev with hshows | hcomplains | rfl
      · exact absurd hinit (by rw [not_initialises_of_admitted he hshows]; simp)
      · cases ev with
        | wrote _ _ => exact absurd hcomplains (by simp [Event.complains])
        | _ => exact absurd hinit (by simp [Event.initialises])
      · exact absurd hinit (by simp [Event.initialises])
    rw [hlog, List.countP_append, hnone, Nat.add_zero]

theorem admitted_of_reaches {factory : Factory} {decoding : D} {own : S} {received : Bytes}
    {d : Delivery D S} (h : Reaches (base library decoders) (fresh factory decoding own) received d) :
    Admitted (base library decoders) (fresh factory decoding own) received d := by
  induction h with
  | start => exact .outside trivial (List.forall_mem_nil _)
  | delivered data h hrest hlive ih =>
    have hnothing : ShowsNothing _ (client ((deliver (base library decoders) data).run _)) :=
      showsNothing_deliver data hlive
    cases ih with
    | outside hout hlog => exact .outside (outside_deliver data hout) (hnothing.forall_mem hlog)
    | inside hin hlog c before after hadmission =>
      obtain ⟨e, hphase, he⟩ := exists_of_admitted hin
      refine .inside (admitted_of_phase (phase_deliver hphase data) he) (hnothing.countP_eq.trans hlog)
        c before (after ++ data) { hadmission with received_eq := ?_, goesOn := ?_ }
      · rw [hadmission.received_eq, List.append_assoc]
      · exact .delivered data hadmission.goesOn hrest hlive
  | dropped data h hrest habort ih =>
    cases ih with
    | outside hout hlog => exact .outside hout hlog
    | inside hin hlog c before after hadmission =>
      refine .inside hin hlog c before (after ++ data)
        { hadmission with received_eq := ?_, goesOn := ?_ }
      · rw [hadmission.received_eq, List.append_assoc]
      · exact .dropped data hadmission.goesOn hrest habort
  -- Admission is the one turn that leaves the outside; every later one stays inside.
  | @turned received c h hready ih =>
    have hsound : Sound (baseCallback library) c := sound_of_reaches h
    cases ih with
    | outside hout hlog =>
      cases attempts_turn hsound hready hout with
      | stays es hlog' hes hout' => exact .outside hout' (ShowsNothing.forall_mem ⟨es, hlog', hes⟩ hlog)
      | enters haccepts henters =>
        obtain ⟨es, hlog', hes⟩ := henters.shows
        refine .inside (admitted_of_phase henters.phase rfl) ?_ c received []
          ⟨(List.append_nil _).symm, h, hready, haccepts, hlog, henters, ?_⟩
        · have hc : c.attrs.log.countP Event.initialises = 0 := countP_initialises_of_not_proceeds hlog
          rw [hlog', List.countP_append, List.countP_append, hc,
            countP_initialises_of_not_proceeds hes]
          rfl
        · rw [henters.returns]
          exact .start
    | inside hin hlog c' before after hadmission =>
      obtain ⟨hin', hlog'⟩ := admitted_turn hsound hready hin
      exact .inside hin' (hlog'.trans hlog) c' before after
        { hadmission with goesOn := .turned hadmission.goesOn hready }

/-! ## After a refusal -/

/-- A step of a generator that never proceeds, taken with itself parked as finished. -/
theorem doomed_pump {secType : ℕ} {size : ℕ} {x : GenStep D S Bool} {c : RFBClient D S}
    (hsupported : secType ∈ supportedAuths) (hshut : Shut (fun _ => False) x)
    (hhonours : x.Honours (negotiation mayRaise) anything c.attrs)
    (hphase : c.phase = .expecting (.ended (.security secType) size)) :
    ShowsNothing c (client ((pump (base library decoders) (.security secType) x).run c)) ∧
      Doomed (client ((pump (base library decoders) (.security secType) x).run c)) := by
  have hstays : StaysOut (fun _ => False) c
      (client ((pump (base library decoders) (.security secType) x).run c)) :=
    staysOut_pump (fun _ _ => not_false) hsupported hshut hhonours
  refine ⟨hstays.shows, hstays.doomed ?_⟩
  unfold Doomed
  rw [hphase]
  trivial

theorem doomed_turn {c : RFBClient D S} (hsound : Sound (baseCallback library) c)
    (hready : ready c = true) (hdoomed : Doomed c) :
    ShowsNothing c (client ((turn (base library decoders)).run c)) ∧
      Doomed (client ((turn (base library decoders)).run c)) := by
  obtain ⟨e, hphase, hlen, -⟩ := exists_of_ready hready
  have hc : e.Doomed := by
    unfold Doomed at hdoomed
    rw [hphase] at hdoomed
    exact hdoomed
  unfold Sound at hsound
  rw [hphase] at hsound
  rw [run_turn _ hphase hlen]
  cases e with
  | pump task size resume =>
    cases task with
    | security secType =>
      obtain ⟨hsupported, a, hnever | hshut⟩ := hc
      · exact absurd hnever not_false
      · rw [run_handle_pump]
        have hhonours := hsound.2.2 (Block.ofPrefix _ c.packet hlen) c.attrs (Meanwhile.refl _)
        exact doomed_pump (c := { c with
          packet := c.packet.drop size.toNat
          phase := .expecting (.ended (.security secType) size.toNat) })
          hsupported (hshut _ c.attrs) hhonours rfl
    | message msgid => exact absurd hc not_false
    | rectangle rect => exact absurd hc not_false
  | ended task size =>
    cases task with
    | security secType =>
      -- A finished generator is sent another block.
      refine ⟨⟨[], (List.append_nil _).symm, List.forall_mem_nil _⟩, ?_⟩
      show Doomed { c with packet := c.packet.drop size }
      exact hdoomed
    | message msgid => exact absurd hc not_false
    | rectangle rect => exact absurd hc not_false
  | _ => exact absurd hc not_false

/-- A failed security exchange stays failed, whatever the server sends. -/
theorem doomed_of_reaches {c : RFBClient D S} {received : Bytes} {d : Delivery D S}
    (h : Reaches (base library decoders) c received d) (hsound : Sound (baseCallback library) c)
    (hdoomed : Doomed c) (hlog : ∀ e ∈ c.attrs.log, e.proceeds = false) :
    ∀ e ∈ (client d).attrs.log, e.proceeds = false := by
  have hall : Sound (baseCallback library) (client d) ∧ Doomed (client d) ∧
      ∀ e ∈ (client d).attrs.log, e.proceeds = false := by
    refine Reaches.induct (P := fun _ c => Sound (baseCallback library) c ∧ Doomed c ∧
      ∀ e ∈ c.attrs.log, e.proceeds = false) ?_ ?_ ?_ ?_ h
    · exact ⟨hsound, hdoomed, hlog⟩
    · rintro _ c data ⟨hs, hd, hl⟩ hlive
      refine ⟨sound_deliver data hs, ?_, (showsNothing_deliver data hlive).forall_mem hl⟩
      unfold Doomed at hd ⊢
      cases hphase : c.phase with
      | initial =>
        rw [hphase] at hd
        exact absurd hd not_false
      | expecting e =>
        rw [hphase] at hd
        rw [phase_deliver hphase data]
        exact hd
    · rintro _ c data hc _
      exact hc
    · rintro _ c ⟨hs, hd, hl⟩ hready
      obtain ⟨hnothing, hd'⟩ := doomed_turn hs hready hd
      exact ⟨sound_turn hready hs, hd', hnothing.forall_mem hl⟩
  exact hall.2.2

/-- The client has read a SecurityResult other than 0. -/
structure Refused (env : Env D S) (c : RFBClient D S) : Prop where
  ready : ready c = true
  awaits : ∃ secType, c.phase = .expecting (awaitingResult env secType)
  result : u32At (c.packet.take 4) 0 ≠ 0

/-- The handler call that reads such a SecurityResult. -/
theorem doomed_of_refused {c : RFBClient D S} (hsound : Sound (baseCallback library) c)
    (hout : Outside (base library decoders) c) (h : Refused (base library decoders) c) :
    ShowsNothing c (client ((turn (base library decoders)).run c)) ∧
      Doomed (client ((turn (base library decoders)).run c)) := by
  obtain ⟨secType, hphase⟩ := h.awaits
  obtain ⟨e, hphase', hlen, -⟩ := exists_of_ready h.ready
  obtain rfl : e = awaitingResult (base library decoders) secType :=
    Phase.expecting.inj (hphase'.symm.trans hphase)
  unfold Sound at hsound
  unfold Outside at hout
  rw [hphase] at hsound hout
  rw [run_turn _ hphase hlen]
  unfold awaitingResult
  rw [run_handle_pump]
  have hhonours := hsound.2.2 (Block.ofPrefix _ c.packet hlen) c.attrs (Meanwhile.refl _)
  exact doomed_pump (c := { c with
    packet := c.packet.drop 4
    phase := .expecting (.ended (.security secType) 4) })
    hout.1 (shut_judge h.result c.attrs) hhonours rfl

/-- What the client does of a session, ClientInit first, it does only in a run that has entered the
session: once, by a handler call that settled on None before 3.8 or read a SecurityResult of 0. Once
it has read another SecurityResult it does nothing of a session, whatever the server sends. -/
theorem session_authenticated {factory : Factory} {decoding : D} {own : S} {received : Bytes}
    {d : Delivery D S} (h : Reaches (base library decoders) (fresh factory decoding own) received d) :
    (client d).attrs.log.countP Event.initialises ≤ 1 ∧
    ((∃ e ∈ (client d).attrs.log, e.proceeds = true) →
      ∃ c before after, Admission (base library decoders) (fresh factory decoding own) received d
        c before after) ∧
    ∀ c, d = .ok () c → Refused (base library decoders) c → ∀ received' d',
      Reaches (base library decoders) (client ((turn (base library decoders)).run c)) received' d' →
        ∀ e ∈ (client d').attrs.log, e.proceeds = false := by
  refine ⟨?_, ?_, ?_⟩
  · cases admitted_of_reaches h with
    | outside hout hlog =>
      rw [countP_initialises_of_not_proceeds hlog]
      exact Nat.zero_le 1
    | inside hin hlog => exact Nat.le_of_eq hlog
  · rintro ⟨e, he, hproceeds⟩
    cases admitted_of_reaches h with
    | outside hout hlog => exact absurd hproceeds (by rw [hlog e he]; simp)
    | inside hin hlog c before after hadmission => exact ⟨c, before, after, hadmission⟩
  · rintro c rfl hrefused received' d' h'
    have hsound : Sound (baseCallback library) c := sound_of_reaches h
    cases admitted_of_reaches h with
    | outside hout hlog =>
      obtain ⟨hnothing, hdoomed⟩ := doomed_of_refused hsound hout hrefused
      exact doomed_of_reaches h' (sound_turn hrefused.ready hsound) hdoomed (hnothing.forall_mem hlog)
    | inside hin =>
      obtain ⟨secType, hphase⟩ := hrefused.awaits
      obtain ⟨e, hphase', he⟩ := exists_of_admitted hin
      obtain rfl : e = awaitingResult (base library decoders) secType :=
        Phase.expecting.inj (hphase'.symm.trans hphase)
      exact absurd he (by simp [awaitingResult, Expected.admitted, Task.inSession])

/-- A server that speaks 3.3 and dictates None. -/
theorem session_authenticated_sample :
    let env : Env Unit Unit := base sampleLibrary fun _ => none
    let c₀ : RFBClient Unit Unit := fresh {} () ()
    let sent : Bytes := [82, 70, 66, 32, 48, 48, 51, 46, 48, 48, 51, 10, 0, 0, 0, 1]
    let d := (turn env).run (client ((deliver env sent).run c₀))
    (∃ e ∈ (client d).attrs.log, e.proceeds = true) ∧
      ∃ c before after, Admission env c₀ sent d c before after := by
  intro env c₀ sent d
  have hdelivered : (deliver env sent).run c₀ = .ok () (client ((deliver env sent).run c₀)) := rfl
  have hfirst : Reaches env c₀ ([] ++ sent) ((deliver env sent).run c₀) :=
    .delivered sent .start rfl rfl
  rw [hdelivered] at hfirst
  have hreach : Reaches env c₀ ([] ++ sent) d := .turned hfirst rfl
  have hproceeds : ∃ e ∈ (client d).attrs.log, e.proceeds = true :=
    ⟨.wrote .clientInit [0], by decide, rfl⟩
  exact ⟨hproceeds, (session_authenticated hreach).2.1 hproceeds⟩

end RFBClient

end VncDoTool
