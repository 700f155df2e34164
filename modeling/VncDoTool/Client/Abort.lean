import VncDoTool.Client.Effects

/-!
# Aborting is final

* `RFBClient.complainedOnce_of_reaches`: at every point of a run the client has complained once if
  it has aborted and never otherwise.
* `RFBClient.eq_of_aborted`: nothing delivered to an aborted client has any effect.
* `RFBClient.sinceHeader_of_reaches`: while a rectangle is being decoded nothing has happened since
  its header.
* `RFBClient.abort_final`: the three together.
-/

namespace VncDoTool

namespace RFBClient

variable {D S : Type} {library : Library}
  {decoders : ℤ → Option (Decoder (D := D) (S := S) (baseCallback library))}

/-! ## Runs -/

/-- The client has complained once if it has aborted, and never otherwise. -/
def ComplainedOnce (c : RFBClient D S) : Prop :=
  c.attrs.log.countP Event.complains = if c.aborted then 1 else 0

/-- No handler complains other than by aborting. -/
theorem complains_of_shows {e : Expected D S} {ev : Event} (h : e.shows ev = true) :
    ev.complains = false := by
  cases ev with
  | called callback =>
    cases callback with
    | vncProtocolError reason =>
      cases e with
      | pump task size resume => cases task <;> exact absurd h (by simp [Expected.shows,
          Event.secures, Event.negotiates, Event.initialises, Event.converses, Event.updates,
          Callback.paints])
      | _ => exact absurd h (by simp [Expected.shows, Event.secures, Event.negotiates,
          Event.initialises, Event.converses, Event.updates, Callback.paints])
    | _ => rfl
  | _ => rfl

theorem Leaves.complainedOnce {P : Event → Bool} {c c' : RFBClient D S}
    (hP : ∀ e, P e = true → e.complains = false) (h : Leaves P c c') (hlive : c.aborted = false)
    (hc : ComplainedOnce c) : ComplainedOnce c' := by
  have hnone : ∀ es : List Event, (∀ e ∈ es, P e = true) → es.countP Event.complains = 0 := by
    intro es hes
    rw [List.countP_eq_zero]
    intro e he
    rw [hP e (hes e he)]
    exact Bool.false_ne_true
  unfold ComplainedOnce at hc ⊢
  rw [hlive] at hc
  cases h with
  | going es hlog hes hlive' =>
    rw [hlog, List.countP_append, hc, hnone es hes, hlive']
    rfl
  | aborted es reason hlog hes habort _ =>
    rw [hlog, List.countP_append, List.countP_append, hc, hnone es hes, habort]
    rfl

/-- At every point of a run. -/
theorem complainedOnce_of_reaches {factory : Factory} {decoding : D} {own : S} {received : Bytes}
    {d : Delivery D S} (h : Reaches (base library decoders) (fresh factory decoding own) received d) :
    ComplainedOnce (client d) := by
  induction h with
  | start => rfl
  | delivered data _ _ hlive ih =>
    refine (leaves_deliver data hlive).complainedOnce ?_ hlive ih
    intro e he
    cases e with
    | called callback => exact absurd he (by simp [Event.greets])
    | _ => rfl
  | dropped data _ _ _ ih => exact ih
  | turned h hready ih =>
    obtain ⟨e, hphase, -, hlive⟩ := exists_of_ready hready
    exact (leaves_turn (sound_of_reaches h) hready hphase).complainedOnce
      (fun _ => complains_of_shows) hlive ih

/-- Nothing delivered to a client that has aborted has any effect. -/
theorem eq_of_aborted {env : Env D S} {c : RFBClient D S} (habort : c.aborted = true)
    {received : Bytes} {d : Delivery D S} (h : Reaches env c received d) : client d = c := by
  induction h with
  | start => rfl
  | delivered data _ _ hlive ih =>
    rw [ih, habort] at hlive
    exact absurd hlive (by simp)
  | dropped data _ _ _ ih => exact ih
  | @turned _ c' _ hready ih =>
    have hsame : c' = c := ih
    rw [hsame, ready_of_aborted habort] at hready
    exact absurd hready (by simp)

/-! ## Rectangles that fail to decode -/

/-- The rectangle being decoded, if one is. -/
def decodingRect (c : RFBClient D S) : Option Rect :=
  match c.phase with
  | .expecting (.pump (.rectangle rect) _ _) => some rect
  | _ => none

theorem decodingRect_of_plain {c : RFBClient D S} (h : Plain c) : decodingRect c = none := by
  unfold Plain at h
  unfold decodingRect
  split
  next rect size resume hphase =>
    rw [hphase] at h
    exact absurd h (by simp [Expected.plain])
  · rfl

/-- The handler call aborted or raised. -/
def Failed : Delivery D S → Prop
  | .ok _ c => c.aborted = true
  | .error _ _ => True

/-- Since `c` nothing was shown or recorded. -/
structure Untouched (c c' : RFBClient D S) : Prop where
  log : c'.attrs.log = c.attrs.log
  rectanglePos : c'.attrs.rectanglePos = c.attrs.rectanglePos

/-- Since `c` nothing was painted or recorded: at most the client complained and closed. -/
structure Unpainted (c c' : RFBClient D S) : Prop where
  log : c'.attrs.log = c.attrs.log ∨ ∃ reason,
    c'.attrs.log = c.attrs.log ++ [.called (.vncProtocolError reason), .loseConnection]
  rectanglePos : c'.attrs.rectanglePos = c.attrs.rectanglePos

theorem Untouched.trans {c c' c'' : RFBClient D S} (h : Untouched c c') (h' : Untouched c' c'') :
    Untouched c c'' :=
  ⟨h'.log.trans h.log, h'.rectanglePos.trans h.rectanglePos⟩

theorem Untouched.unpainted {c c' : RFBClient D S} (h : Untouched c c') : Unpainted c c' :=
  ⟨.inl h.log, h.rectanglePos⟩

theorem Unpainted.after {c c' c'' : RFBClient D S} (h' : Unpainted c' c'') (h : Untouched c c') :
    Unpainted c c'' := by
  refine ⟨?_, h'.rectanglePos.trans h.rectanglePos⟩
  rw [← h.log]
  exact h'.log

theorem Untouched.of_quiet {c : RFBClient D S} {a : Attrs D S} (h : Quiet c.attrs a)
    (phase : Phase D S) : Untouched c { c with attrs := a, phase := phase } :=
  ⟨h.log_eq, h.rectanglePos_eq⟩

theorem Unpainted.of_abort {c : RFBClient D S} {a : Attrs D S} (h : Quiet c.attrs a)
    (reason : String) : Unpainted c
      (client ((abortConnection (base library decoders) reason).run { c with attrs := a })) := by
  rw [run_abortConnection]
  refine ⟨.inr ⟨reason, ?_⟩, h.rectanglePos_eq⟩
  rw [← h.log_eq]
  rfl

/-- A handler call at a rectangle: if the rectangle is then still being decoded nothing was shown or
recorded, and if it failed nothing was painted or recorded. -/
structure Blank (rect : Rect) (c : RFBClient D S) (d : Delivery D S) : Prop where
  decoding : ∀ r, decodingRect (client d) = some r → r = rect ∧ Untouched c (client d)
  failed : Failed d → Unpainted c (client d)

theorem Blank.of_idle {rect : Rect} {c : RFBClient D S} {d : Delivery D S}
    (hidle : decodingRect (client d) = none) (h : Failed d → Unpainted c (client d)) :
    Blank rect c d :=
  ⟨fun _ hr => absurd (hidle.symm.trans hr) (by simp), h⟩

theorem Blank.after {rect : Rect} {c c' : RFBClient D S} {d : Delivery D S} (h : Blank rect c' d)
    (hsame : Untouched c c') : Blank rect c d :=
  ⟨fun r hr => ⟨(h.decoding r hr).1, hsame.trans (h.decoding r hr).2⟩,
    fun hfail => (h.failed hfail).after hsame⟩

theorem not_failed_doConnection {c : RFBClient D S} (hlive : c.aborted = false) :
    ¬Failed ((doConnection (base library decoders)).run c) := by
  rw [run_doConnection]
  by_cases hrect : c.attrs.rectangles ≠ 0
  · rw [if_pos hrect]
    exact ne_true_of_eq_false hlive
  · rw [if_neg hrect]
    exact ne_true_of_eq_false hlive

theorem not_failed_settleRectangle (rect : Rect) (changed : Bool) {c : RFBClient D S}
    (hlive : c.aborted = false) :
    ¬Failed ((settleRectangle (base library decoders) rect changed).run c) := by
  rw [run_settleRectangle]
  refine not_failed_doConnection ?_
  cases changed <;> exact hlive

/-- A rectangle that fails after its decoder returned fails on the length of its paste. -/
theorem abort_of_failed_finish {rect : Rect} {outcome : Outcome} {c : RFBClient D S}
    (hlive : c.aborted = false)
    (h : Failed ((finish (base library decoders) (.rectangle rect) outcome).run c)) :
    outcome.paste ≠ none ∧ ∃ reason, finish (base library decoders) (.rectangle rect) outcome =
      abortConnection (base library decoders) reason := by
  obtain ⟨changed, paste⟩ := outcome
  cases paste with
  | none => exact absurd h (not_failed_settleRectangle rect changed hlive)
  | some paste =>
    refine ⟨by simp, ?_⟩
    by_cases hlen : paste.1.length = rect.width * rect.height * paste.2.bypp
    · change Failed ((finishRectangle _ rect ⟨changed, some (paste.1, paste.2)⟩).run c) at h
      rw [run_finishRectangle_of_length hlen] at h
      exact absurd h (not_failed_settleRectangle rect changed (by exact hlive))
    · exact ⟨_, if_pos hlen⟩

/-- One step of a decoder. -/
theorem blank_pump {rect : Rect} {x : GenStep D S Outcome} {c : RFBClient D S}
    (hlive : c.aborted = false) (hplain : Plain c)
    (h : PaintsLast (baseCallback library) c.attrs x) :
    Blank rect c ((pump (base library decoders) (.rectangle rect) x).run c) := by
  have hpause := drive_paintsLast (!c.packet.isEmpty) h
  rw [run_pump]
  cases hdrive : drive (!c.packet.isEmpty) x with
  -- Only a refusal of what was pasted aborts here, and a decoder that pastes has painted nothing.
  | done a outcome =>
    rw [hdrive] at hpause
    refine .of_idle (decodingRect_of_plain (plain_finish hplain)) fun hfail => ?_
    obtain ⟨hpaste, reason, habort⟩ := abort_of_failed_finish (c := { c with attrs := a }) hlive hfail
    simp only
    rw [habort]
    cases hpause with
    | done hdone =>
      rcases hdone.of_done with hquiet | ⟨hnone, -⟩
      · exact .of_abort hquiet reason
      · exact absurd hnone hpaste
  | failed a e =>
    rw [hdrive] at hpause
    cases hpause with
    | failed hfailed =>
      simp only
      split_ifs
      · exact .of_idle (decodingRect_of_plain (plain_abortConnection hplain))
          fun _ => .of_abort hfailed.of_failed _
      · exact .of_idle (decodingRect_of_plain (c := { c with attrs := a }) hplain)
          fun _ => (Untouched.of_quiet hfailed.of_failed c.phase).unpainted
  | wants a size resume =>
    rw [hdrive] at hpause
    cases hpause with
    | wants hquiet hnext =>
      simp only
      split_ifs
      · exact .of_idle (decodingRect_of_plain (plain_abortConnection hplain))
          fun _ => .of_abort hquiet _
      · refine ⟨fun r hr => ⟨(Option.some.inj hr).symm, .of_quiet hquiet _⟩, fun hfail => ?_⟩
        exact absurd hfail (ne_true_of_eq_false hlive)

/-- A task that is not a rectangle starts none. -/
theorem decodingRect_pump {task : Task} {x : GenStep D S task.Result} {c : RFBClient D S}
    (htask : ∀ rect, task ≠ .rectangle rect) (hplain : Plain c) :
    decodingRect (client ((pump (base library decoders) task x).run c)) = none := by
  rw [run_pump]
  cases drive (!c.packet.isEmpty) x with
  | done a v => exact decodingRect_of_plain (plain_finish hplain)
  | failed a e =>
    simp only
    split_ifs
    · exact decodingRect_of_plain (plain_abortConnection hplain)
    · exact decodingRect_of_plain hplain
  | wants a size resume =>
    simp only
    split_ifs
    · exact decodingRect_of_plain (plain_abortConnection hplain)
    · cases task with
      | rectangle rect => exact absurd rfl (htask rect)
      | security secType => rfl
      | message msgid => rfl

theorem decodingRect_startSecurity {secType : ℕ} {c : RFBClient D S} (hplain : Plain c) :
    decodingRect (client ((startSecurity (base library decoders) secType).run c)) = none := by
  rw [run_startSecurity]
  cases securityHandler (base library decoders) secType with
  | none => exact decodingRect_of_plain (plain_abortConnection hplain)
  | some handler => exact decodingRect_pump (fun _ => Task.noConfusion) hplain

/-- The rectangle a client is about to read the header of, or is decoding. -/
def AtRectangle (c : RFBClient D S) (rect : Rect) : Prop :=
  decodingRect c = some rect ∨ c.phase = .expecting .rectangle ∧
    ∃ hlen : 12 ≤ c.packet.length, announcedRect (Block.ofPrefix 12 c.packet hlen) = rect

/-- Only a client at a rectangle goes on decoding one. -/
theorem decodingRect_handle {e : Expected D S} {block : Block e.len} {c : RFBClient D S}
    (hphase : c.phase = .expecting e) (hheader : e ≠ .rectangle)
    (hdecoding : decodingRect c = none) :
    decodingRect (client ((handle (base library decoders) e block).run c)) = none := by
  have hplain : e.plain = true → Plain c := by
    intro he
    unfold Plain
    rw [hphase]
    exact he
  cases e with
  | auth =>
    have hp := hplain rfl
    simp only [handle, handleAuth]
    split_ifs
    · rfl
    · exact decodingRect_startSecurity hp
    · exact decodingRect_of_plain (plain_abortConnection hp)
  | numberSecurityTypes =>
    simp only [handle, handleNumberSecurityTypes]
    split_ifs <;> rfl
  | securityTypes count =>
    have hp := hplain rfl
    simp only [handle, handleSecurityTypes]
    split
    · exact decodingRect_startSecurity hp
    · exact decodingRect_of_plain (plain_abortConnection hp)
  | connFailed =>
    have hp := hplain rfl
    simp only [handle, handleConnFailed]
    split_ifs
    · exact decodingRect_of_plain (plain_abortConnection hp)
    · rfl
  | connMessage waitfor => exact decodingRect_of_plain (plain_abortConnection (hplain rfl))
  | serverInit => rfl
  | serverName namelen => rfl
  | connection =>
    have hp := hplain rfl
    simp only [handle, handleConnection]
    split_ifs
    · rfl
    · split
      · exact decodingRect_of_plain (plain_abortConnection hp)
      · exact decodingRect_pump (fun _ => Task.noConfusion) hp
  | framebufferUpdate => exact decodingRect_of_plain (plain_doConnection _)
  | rectangle => exact absurd rfl hheader
  -- A resumed generator is not a rectangle's: the client was at none.
  | pump task size resume =>
    rw [run_handle_pump]
    refine decodingRect_pump ?_ rfl
    rintro rect rfl
    unfold decodingRect at hdecoding
    rw [hphase] at hdecoding
    exact absurd hdecoding (by simp)
  | ended task size =>
    have hp := hplain rfl
    cases task with
    | message msgid => rfl
    | _ => exact decodingRect_of_plain (c := c) hp

/-- One turn at a rectangle. -/
theorem blank_turn {rect : Rect} {c : RFBClient D S} (hsound : Sound (baseCallback library) c)
    (hready : ready c = true) (hat : AtRectangle c rect) :
    Blank rect c ((turn (base library decoders)).run c) := by
  obtain ⟨e, hphase, hlen, hlive⟩ := exists_of_ready hready
  unfold Sound at hsound
  rw [hphase] at hsound
  rw [run_turn _ hphase hlen]
  rcases hat with hdecoding | ⟨hheader, hlen', rfl⟩
  · -- In mid-rectangle: the suspended decoder takes one more step.
    unfold decodingRect at hdecoding
    rw [hphase] at hdecoding
    split at hdecoding
    next rect' size resume he =>
      obtain rfl := Option.some.inj hdecoding
      obtain rfl : e = _ := Phase.expecting.inj he
      rw [run_handle_pump]
      refine Blank.after (blank_pump ?_ ?_ (hsound.2 _ c.attrs)) ?_
      · exact hlive
      · exact rfl
      · exact ⟨rfl, rfl⟩
    · exact absurd hdecoding (by simp)
  · -- At the header: the decoder of its encoding starts.
    obtain rfl : e = .rectangle := Phase.expecting.inj (hphase.symm.trans hheader)
    have hplain : Plain c := by
      unfold Plain
      rw [hphase]
      rfl
    simp only [handle]
    rw [run_handleRectangle]
    by_cases hrect : remaining (Block.ofPrefix 12 c.packet hlen) c.attrs.rectangles ≠ 0
    · rw [if_pos hrect, run_pumpRectangle]
      split
      next decoder _ =>
        refine Blank.after (blank_pump ?_ ?_ (decoder.paintsLast _ _ _)) ?_
        · exact hlive
        · exact hplain
        · exact ⟨rfl, rfl⟩
      · refine .of_idle (decodingRect_of_plain (plain_abortConnection ?_)) fun _ => ?_
        · exact hplain
        · rw [run_abortConnection]
          exact ⟨.inr ⟨_, rfl⟩, rfl⟩
    · rw [if_neg hrect]
      refine .of_idle (decodingRect_of_plain (plain_doConnection _)) fun hfail => ?_
      exact absurd hfail (not_failed_doConnection hlive)

/-- Between the point of a run where the header of `rect` was about to be read and `c` nothing was
shown or recorded. -/
def SinceHeader (env : Env D S) (c₀ : RFBClient D S) (rect : Rect) (c : RFBClient D S) : Prop :=
  ∃ received c₁, Reaches env c₀ received (.ok () c₁) ∧ ready c₁ = true ∧
    c₁.phase = .expecting .rectangle ∧ AtRectangle c₁ rect ∧ Untouched c₁ c

/-- While a rectangle is being decoded, nothing has been shown or recorded since its header. -/
theorem sinceHeader_of_reaches {factory : Factory} {decoding : D} {own : S} {received : Bytes}
    {d : Delivery D S} (h : Reaches (base library decoders) (fresh factory decoding own) received d)
    {rect : Rect} (hrect : decodingRect (client d) = some rect) :
    SinceHeader (base library decoders) (fresh factory decoding own) rect (client d) := by
  induction h with
  | start => exact absurd hrect (by simp [client, fresh, decodingRect])
  | @delivered _ d data h _ hlive ih =>
    cases hphase : (client d).phase with
    | initial =>
      -- Nothing is being decoded before the version header is answered.
      have hidle : decodingRect (client ((deliver (base library decoders) data).run (client d))) =
          none := by
        have hplain : Plain (extend (client d) data) := by
          unfold Plain
          rw [show (extend (client d) data).phase = .initial from hphase]
          trivial
        rw [run_deliver_of_initial _ hphase, run_handleInitial]
        split_ifs
        · rw [run_answerHeader]
          cases negotiate (announced ((extend (client d) data).packet.take 12)) with
          | none => exact decodingRect_of_plain hplain
          | some version =>
            unfold decodingRect greeted client
            simp only
            split_ifs <;> rfl
        · exact decodingRect_of_plain hplain
        · exact decodingRect_of_plain (plain_abortConnection hplain)
      exact absurd (hidle.symm.trans hrect) (by simp)
    | expecting e =>
      rw [run_deliver_of_expecting _ hphase] at hrect ⊢
      obtain ⟨received', c₁, hreach, hready, hheader, hat, hsame⟩ := ih hrect
      exact ⟨received', c₁, hreach, hready, hheader, hat, hsame.trans ⟨rfl, rfl⟩⟩
  | dropped data _ _ _ ih => exact ih hrect
  | @turned _ c h hready ih =>
    obtain ⟨e, hphase, hlen, -⟩ := exists_of_ready hready
    by_cases hheader : c.phase = .expecting .rectangle
    · have hlen' : 12 ≤ c.packet.length := by
        obtain rfl := Phase.expecting.inj (hheader.symm.trans hphase)
        exact hlen
      have hat : AtRectangle c (announcedRect (Block.ofPrefix 12 c.packet hlen')) :=
        .inr ⟨hheader, hlen', rfl⟩
      obtain ⟨rfl, hsame⟩ := (blank_turn (sound_of_reaches h) hready hat).decoding rect hrect
      exact ⟨_, c, h, hready, hheader, hat, hsame⟩
    · cases hdecoding : decodingRect c with
      | none =>
        have hidle : decodingRect
            (client ((handle (base library decoders) e (Block.ofPrefix e.len c.packet hlen)).run
              { c with packet := c.packet.drop e.len })) = none :=
          decodingRect_handle hphase (fun he => hheader (he ▸ hphase)) hdecoding
        rw [run_turn _ hphase hlen] at hrect
        exact absurd (hidle.symm.trans hrect) (by simp)
      | some r =>
        obtain ⟨rfl, hsame⟩ :=
          (blank_turn (sound_of_reaches h) hready (.inl hdecoding)).decoding rect hrect
        obtain ⟨received', c₁, hreach, hready', hheader', hat, hsame'⟩ := ih hdecoding
        exact ⟨received', c₁, hreach, hready', hheader', hat, hsame'.trans hsame⟩

/-- A rectangle that fails to decode: nothing was painted or recorded since its header. -/
theorem unpainted_of_failed {factory : Factory} {decoding : D} {own : S} {received : Bytes}
    {c : RFBClient D S}
    (h : Reaches (base library decoders) (fresh factory decoding own) received (.ok () c))
    (hready : ready c = true) {rect : Rect} (hat : AtRectangle c rect)
    (hfail : Failed ((turn (base library decoders)).run c)) :
    ∃ received₁ c₁,
      Reaches (base library decoders) (fresh factory decoding own) received₁ (.ok () c₁) ∧
        c₁.phase = .expecting .rectangle ∧ AtRectangle c₁ rect ∧
        Unpainted c₁ (client ((turn (base library decoders)).run c)) := by
  have hblank := (blank_turn (sound_of_reaches h) hready hat).failed hfail
  rcases hat with hdecoding | ⟨hheader, hlen, rfl⟩
  · obtain ⟨received₁, c₁, hreach, -, hheader, hat, hsame⟩ := sinceHeader_of_reaches h hdecoding
    exact ⟨received₁, c₁, hreach, hheader, hat, hblank.after hsame⟩
  · exact ⟨_, c, h, hheader, .inr ⟨hheader, hlen, rfl⟩, hblank⟩

/-- Aborting is final. At every point of every run: the client has called `vncProtocolError` once if
it has aborted and never otherwise; once it has aborted no delivery, no turn of the loop and no
loss of the connection changes anything, so nothing is called, written or painted any more; and
where a rectangle fails to decode, nothing was painted or recorded since its header was read. -/
theorem abort_final {factory : Factory} {decoding : D} {own : S} {received : Bytes}
    {d : Delivery D S} (h : Reaches (base library decoders) (fresh factory decoding own) received d) :
    ((client d).attrs.log.countP Event.complains = if (client d).aborted then 1 else 0) ∧
    ((client d).aborted = true →
      (∀ fuel data, dataReceived (base library decoders) fuel (client d) data =
        some (.ok () (client d))) ∧
      (∀ more d', Reaches (base library decoders) (client d) more d' → client d' = client d) ∧
      ∀ reason, (connectionLost (base library decoders) reason).run (client d) =
        .ok () (client d)) ∧
    ∀ c rect, d = .ok () c → ready c = true → AtRectangle c rect →
      Failed ((turn (base library decoders)).run c) →
      ∃ received₁ c₁,
        Reaches (base library decoders) (fresh factory decoding own) received₁ (.ok () c₁) ∧
          c₁.phase = .expecting .rectangle ∧ AtRectangle c₁ rect ∧
          Unpainted c₁ (client ((turn (base library decoders)).run c)) := by
  refine ⟨complainedOnce_of_reaches h, ?_, ?_⟩
  · intro habort
    refine ⟨fun fuel data => ?_, fun more d' hlater => eq_of_aborted habort hlater, fun reason => ?_⟩
    · unfold dataReceived
      rw [if_pos habort]
    · unfold connectionLost
      simp only [EStateM.run_bind, EStateM.run_get, habort, not_true_eq_false, and_false, if_false]
      rfl
  · rintro c rect rfl hready hat hfail
    exact unpainted_of_failed h hready hat hfail

/-- A client whose server greets it with something else than a version header. -/
theorem abort_final_sample :
    let env : Env Unit Unit := base sampleLibrary fun _ => none
    let c₀ : RFBClient Unit Unit := fresh {} () ()
    let d := (deliver env [88]).run c₀
    (client d).aborted = true ∧ (client d).attrs.log.countP Event.complains = 1 ∧
      ∀ more d', Reaches env (client d) more d' → client d' = client d := by
  intro env c₀ d
  have hreach : Reaches env c₀ ([] ++ [88]) d := .delivered [88] .start rfl rfl
  have habort : (client d).aborted = true := rfl
  have hfinal := abort_final hreach
  exact ⟨habort, hfinal.1.trans (if_pos habort), (hfinal.2.1 habort).2.1⟩

end RFBClient

end VncDoTool
