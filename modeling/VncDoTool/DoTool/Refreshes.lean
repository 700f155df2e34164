import VncDoTool.DoTool.Screens

/-!
# Refreshes that wait for a change

When `commitUpdate` completes a refresh that was not promised the whole screen, and what the update has
painted then.

* `VNCDoToolClient.state_refreshScreen`: what asking for a refresh does.
* `VNCDoToolClient.Commits`: what `commitUpdate` does to the refresh that waits.
* `VNCDoToolClient.Concludes`: what the end of an update does to one that was promised no area.
* `VNCDoToolClient.Event.paints`, `VNCDoToolClient.Event.idles`: calls that paint on the screen, and
  calls whose rectangle counts as a change although they do not.
* `VNCDoToolClient.Tally`: what is noted of the current update; `VNCDoToolClient.Accounts`: it accounts
  for the recorded rectangles.
* `VNCDoToolClient.Reckons`: what a turn does to either.
* `VNCDoToolClient.refresh_painted_iff`: when a refresh is completed only by an update that has painted.
-/

namespace VncDoTool

namespace VNCDoToolClient

open RFBClient

variable {codecs : Codecs}

/-! ## Asking for a refresh -/

theorem run_requestRefresh (incremental : Bool) (a : State codecs) :
    (requestRefresh incremental).run a = (encoded
        (RFBClient.framebufferUpdateRequest (a.width, a.height) 0 0 none none incremental) >>=
          fun message => Attrs.write .message message : Py (State codecs) Unit).run { a with
      own := { a.own with
        fullscreen := if incremental then .satisfied else .awaiting a.width a.height } } := by
  unfold requestRefresh
  rw [EStateM.run_bind, EStateM.run_get]
  dsimp only
  rw [EStateM.run_bind]
  dsimp only [setFields, EStateM.run_modify]

/-- A message goes out, or none does where it cannot be built. -/
theorem state_encoded_write (message : Except EncodeError Bytes) (a : State codecs) :
    ∃ es, Effect.state ((encoded message >>= fun message => Attrs.write .message message :
        Py (State codecs) Unit).run a) = { a with log := a.log ++ es } ∧
      ∀ e ∈ es, Event.requests e = true := by
  rcases message with e | message
  · refine ⟨[], ?_, by simp⟩
    rw [List.append_nil]
    cases e <;> rfl
  · exact ⟨[.wrote .message message], rfl, by simp [Event.requests]⟩

/-- What asking for a refresh does. -/
theorem state_refreshScreen (incremental : Bool) (a : State codecs) :
    ∃ es, Effect.state ((refreshScreen incremental).run a) = { a with
        own := { a.own with
          deferred := true
          fullscreen := if incremental then .satisfied else .awaiting a.width a.height }
        log := a.log ++ es } ∧ ∀ e ∈ es, Event.requests e = true := by
  unfold refreshScreen
  rw [EStateM.run_bind]
  show ∃ es, Effect.state ((requestRefresh incremental).run _) = _ ∧ _
  rw [run_requestRefresh]
  exact state_encoded_write _ _

/-! ## The end of an update -/

/-- The state once the whole screen has been asked for. -/
def asked (a : State codecs) : State codecs := Effect.state (framebufferUpdateRequest.run a)

/-- The state once a retry is counted. -/
def retried (a : State codecs) : State codecs :=
  { a with own := { a.own with
    fullscreen := { a.own.fullscreen with retries := a.own.fullscreen.retries + 1 } } }

/-- The state once no refresh waits any more. -/
def completed (a : State codecs) : State codecs :=
  { a with own := { a.own with
    warnings := if a.own.fullscreen.complete then a.own.warnings
      else a.own.warnings ++ [a.own.fullscreen.describe]
    fullscreen := .satisfied
    deferred := false } }

/-- What `commitUpdate` leaves. -/
inductive Commits (hooks : Hooks codecs) (rectangles : List Rect) (a : State codecs) :
    State codecs → Prop
  /-- No refresh waits. -/
  | idle (hidle : a.own.deferred = false) : Commits hooks rectangles a a
  /-- Nothing was painted. -/
  | unpainted (hwaits : a.own.deferred = true) (h : rectangles = [] ∨ a.own.screen = none) :
      Commits hooks rectangles a (asked a)
  /-- A part of the screen is missing, and the server is asked for it again. -/
  | retries (hwaits : a.own.deferred = true) (hpainted : rectangles ≠ [] ∧ a.own.screen ≠ none)
      (h : a.own.fullscreen.complete = false)
      (hmore : a.own.fullscreen.retries < FullScreenReceived.maxRetries) :
      Commits hooks rectangles a (asked (retried a))
  /-- The refresh is over. -/
  | fires (hwaits : a.own.deferred = true) (hpainted : rectangles ≠ [] ∧ a.own.screen ≠ none)
      (h : a.own.fullscreen.complete = true ∨
        FullScreenReceived.maxRetries ≤ a.own.fullscreen.retries) :
      Commits hooks rectangles a (hooks.refreshed (completed a))

/-- `commitUpdate`, once it has looked at the attributes. -/
theorem run_commitUpdate (hooks : Hooks codecs) (rectangles : List Rect) (a : State codecs) :
    (commitUpdate hooks rectangles).run a =
      if a.own.deferred then
        if rectangles.isEmpty ∨ a.own.screen.isNone then framebufferUpdateRequest.run a
        else if ¬a.own.fullscreen.complete ∧
            a.own.fullscreen.retries < FullScreenReceived.maxRetries then
          framebufferUpdateRequest.run (retried a)
        else .ok () (hooks.refreshed (completed a))
      else .ok () a := by
  unfold commitUpdate
  rw [EStateM.run_bind, EStateM.run_get]
  dsimp only
  by_cases hwaits : a.own.deferred = true
  · rw [if_pos hwaits, if_pos hwaits]
    by_cases hunpainted : rectangles.isEmpty ∨ a.own.screen.isNone
    · rw [if_pos hunpainted, if_pos hunpainted]
    · rw [if_neg hunpainted, if_neg hunpainted]
      by_cases hmore : ¬a.own.fullscreen.complete ∧
          a.own.fullscreen.retries < FullScreenReceived.maxRetries
      · rw [if_pos hmore, if_pos hmore, EStateM.run_bind]
        show (framebufferUpdateRequest : Py (State codecs) Unit).run (retried a) = _
        rfl
      · rw [if_neg hmore, if_neg hmore]
        rfl
  · rw [if_neg hwaits, if_neg hwaits]
    rfl

theorem commitUpdate_spec (hooks : Hooks codecs) (rectangles : List Rect) (a : State codecs) :
    Commits hooks rectangles a (Effect.state ((commitUpdate hooks rectangles).run a)) := by
  rw [run_commitUpdate]
  by_cases hwaits : a.own.deferred = true
  · rw [if_pos hwaits]
    by_cases hunpainted : rectangles.isEmpty ∨ a.own.screen.isNone
    · rw [if_pos hunpainted]
      refine .unpainted hwaits ?_
      rcases hunpainted with h | h
      · exact .inl (List.isEmpty_iff.mp h)
      · exact .inr (Option.isNone_iff_eq_none.mp h)
    · rw [if_neg hunpainted]
      rw [not_or, List.isEmpty_iff, Option.isNone_iff_eq_none] at hunpainted
      by_cases hmore : ¬a.own.fullscreen.complete ∧
          a.own.fullscreen.retries < FullScreenReceived.maxRetries
      · rw [if_pos hmore]
        exact .retries hwaits hunpainted (Bool.eq_false_iff.mpr hmore.1) hmore.2
      · rw [if_neg hmore]
        refine .fires hwaits hunpainted ?_
        by_cases hcomplete : a.own.fullscreen.complete = true
        · exact .inl hcomplete
        · exact .inr (not_lt.mp fun h => hmore ⟨hcomplete, h⟩)
  · rw [if_neg hwaits]
    exact .idle (Bool.eq_false_iff.mpr hwaits)

theorem keeps_asked (a : State codecs) : Keeps a (asked a) := stays_framebufferUpdateRequest a

/-- An update comes to an end, or does not yet. A refresh that was not promised the screen is completed
where it does, on recorded rectangles and a screen. -/
structure Concludes (a a' : State codecs) : Prop where
  screen : a'.own.screen = a.own.screen
  rectanglePos : a'.rectanglePos = a.rectanglePos
  log : ∃ es, a'.log = a.log ++ es ∧ (∀ e ∈ es, Ending e) ∧
    ((∃ rectangles, Event.called (.commitUpdate rectangles) ∈ es) ↔ a.rectangles = 0)
  deferred : a.own.deferred = true → a.own.fullscreen.pending = false →
    (a'.own.deferred = false ↔ a.rectangles = 0 ∧ a.rectanglePos ≠ [] ∧ a.own.screen ≠ none)
  hollow : a.rectanglePos = [] → a'.own.deferred = a.own.deferred

theorem Concludes.kept {a a' a'' : State codecs} (h : Concludes a a') (hkeeps : Keeps a' a'') :
    Concludes a a'' where
  screen := hkeeps.screen.trans h.screen
  rectanglePos := hkeeps.rectanglePos.trans h.rectanglePos
  log := by
    obtain ⟨es, hlog, hes, hends⟩ := h.log
    obtain ⟨es', hlog', hes'⟩ := hkeeps.log
    refine ⟨es ++ es', by rw [hlog', hlog, List.append_assoc], fun e he => ?_, ?_⟩
    · rcases List.mem_append.mp he with he | he
      · exact hes e he
      · exact .inl (hes' e he)
    · rw [← hends]
      refine exists_congr fun rectangles => ⟨fun hmem => ?_, List.mem_append_left es'⟩
      rcases List.mem_append.mp hmem with hmem | hmem
      · exact hmem
      · exact absurd (hes' _ hmem) (by simp [Event.updates])
  deferred hwaits hpending := by
    rw [hkeeps.deferred]
    exact h.deferred hwaits hpending
  hollow hpos := hkeeps.deferred.trans (h.hollow hpos)

/-- A mask of no size is complete. -/
theorem complete_of_not_pending {f : FullScreenReceived} (h : f.pending = false) :
    f.complete = true := by
  have hsize : (f.width, f.height) = (0, 0) := by simpa [FullScreenReceived.pending] using h
  unfold FullScreenReceived.complete
  rw [(Prod.mk.inj hsize).1]
  rfl

section

variable (audience : Audience codecs) (library : Library) (imaging : Imaging) {a : State codecs}

theorem concludes_conclude (a : State codecs) :
    Concludes a (Effect.state ((conclude (stageEnv audience library imaging)).run a)) := by
  unfold conclude
  rw [EStateM.run_bind, EStateM.run_get]
  dsimp only
  by_cases hmore : a.rectangles ≠ 0
  · rw [if_pos hmore]
    refine ⟨rfl, rfl, ⟨[], (List.append_nil _).symm, by simp, by simp [hmore]⟩, fun hwaits _ => ?_,
      fun _ => rfl⟩
    have hkept : a.own.deferred ≠ false := by simp [hwaits]
    exact ⟨fun h => absurd h hkept, fun h => absurd h.1 hmore⟩
  · have hover : a.rectangles = 0 := not_not.mp hmore
    rw [if_neg hmore, run_call]
    -- The attributes with the call in the log.
    have hcommits := commitUpdate_spec audience.toHooks a.rectanglePos
      { a with log := a.log ++ [.called (.commitUpdate a.rectanglePos)] }
    have hcallback : (stageEnv audience library imaging).callback (.commitUpdate a.rectanglePos) =
      commitUpdate audience.toHooks a.rectanglePos := rfl
    rw [hcallback]
    generalize Effect.state ((commitUpdate audience.toHooks a.rectanglePos).run
      { a with log := a.log ++ [.called (.commitUpdate a.rectanglePos)] }) = a' at hcommits ⊢
    have hlogged : ∀ {a' : State codecs},
        (∃ es, a'.log = a.log ++ [.called (.commitUpdate a.rectanglePos)] ++ es ∧
          ∀ e ∈ es, Event.updates e = false) →
        ∃ es, a'.log = a.log ++ es ∧ (∀ e ∈ es, Ending e) ∧
          ((∃ rectangles, Event.called (.commitUpdate rectangles) ∈ es) ↔ a.rectangles = 0) := by
      rintro a' ⟨es, hlog, hes⟩
      refine ⟨.called (.commitUpdate a.rectanglePos) :: es, ?_, fun e he => ?_, ?_⟩
      · rw [hlog]
        exact List.append_assoc _ _ _
      · rcases List.mem_cons.mp he with rfl | he
        · exact .inr ⟨_, rfl⟩
        · exact .inl (hes e he)
      · exact ⟨fun _ => hover, fun _ => ⟨_, List.mem_cons_self⟩⟩
    have hwaited : ∀ {a' : State codecs}, a'.own.deferred = a.own.deferred →
        ¬(a.rectanglePos ≠ [] ∧ a.own.screen ≠ none) → a.own.deferred = true →
        (a'.own.deferred = false ↔ a.rectangles = 0 ∧ a.rectanglePos ≠ [] ∧ a.own.screen ≠ none) := by
      intro a' hsame hunpainted hwaits
      have hkept : a'.own.deferred ≠ false := by simp [hsame, hwaits]
      exact ⟨fun h => absurd h hkept, fun h => absurd h.2 hunpainted⟩
    cases hcommits with
    | idle hidle =>
      refine ⟨rfl, rfl, hlogged (Keeps.refl _).log, fun hwaits _ => ?_, fun _ => rfl⟩
      exact absurd (hidle.symm.trans hwaits) (by simp)
    | unpainted hwaits hunpainted =>
      have hkeeps := keeps_asked { a with log := a.log ++ [.called (.commitUpdate a.rectanglePos)] }
      refine ⟨hkeeps.screen, hkeeps.rectanglePos, hlogged hkeeps.log, fun hwaits _ => ?_,
        fun _ => hkeeps.deferred⟩
      refine hwaited hkeeps.deferred (fun hpainted => ?_) hwaits
      rcases hunpainted with h | h
      · exact hpainted.1 h
      · exact hpainted.2 h
    | retries hwaits hpainted hpart hretry =>
      have hkeeps := keeps_asked
        (retried { a with log := a.log ++ [.called (.commitUpdate a.rectanglePos)] })
      refine ⟨hkeeps.screen, hkeeps.rectanglePos, hlogged hkeeps.log, fun _ hpending => ?_,
        fun _ => hkeeps.deferred⟩
      -- A mask of no size has no part missing.
      exact absurd (hpart.symm.trans (complete_of_not_pending hpending)) (by simp)
    | fires hwaits hpainted hcomplete =>
      have hkeeps := audience.keeps_refreshed
        (completed { a with log := a.log ++ [.called (.commitUpdate a.rectanglePos)] })
      refine ⟨hkeeps.screen, hkeeps.rectanglePos, hlogged hkeeps.log, fun _ _ => ?_,
        fun hpos => absurd hpos hpainted.1⟩
      exact ⟨fun _ => ⟨hover, hpainted⟩, fun _ => hkeeps.deferred⟩

end

/-! ## What an update is made of -/

/-- The rectangle of a call that paints on the screen: it brings pixels, or copies on an existing
screen. -/
def Event.paints (screen : Bool) : Event → Bool
  | .called (.updateRectangle _ data _) => !data.isEmpty
  | .called (.copyRectangle ..) => screen
  | _ => false

/-- The rectangle of a call that paints nothing and counts all the same: it has no area, copies where
there is no screen, or brings the pointer. -/
def Event.idles (screen : Bool) : Event → Bool
  | .called (.updateRectangle _ data _) => data.isEmpty
  | .called (.copyRectangle ..) => !screen
  | .called (.updateCursor ..) => true
  | _ => false

/-- What the current update is made of so far. -/
structure Tally : Type where
  /-- A rectangle has painted on the screen. -/
  painted : Bool := false
  /-- A rectangle has counted without. -/
  hollow : Bool := false
  deriving DecidableEq

/-- What a turn adds to it. -/
def tally (env : Env (Decoding codecs) Fields) (g : Tally) (c : RFBClient (Decoding codecs) Fields) :
    Tally :=
  if Event.called .beginUpdate ∈ made env c then {}
  else if (next env c).attrs.rectanglePos = c.attrs.rectanglePos then g
  else {
    painted := g.painted || (made env c).any (Event.paints c.attrs.own.screen.isSome)
    hollow := g.hollow || (made env c).any (Event.idles c.attrs.own.screen.isSome) }

/-- An incremental refresh waits. -/
def Awaits (a : State codecs) : Prop := a.own.deferred = true ∧ a.own.fullscreen.pending = false

/-- A rectangle gives a new size. -/
def Event.Resizes (e : Event) : Prop := ∃ width height, e = .called (.updateDesktopSize width height)

/-- What a turn does to the recorded rectangles, and to an incremental refresh that waits. It shows
`es`. -/
inductive Reckons (a a' : State codecs) (es : List Event) : Prop
  /-- Nothing. -/
  | same (hpos : a'.rectanglePos = a.rectanglePos) (hdeferred : a'.own.deferred = a.own.deferred)
      (hbegins : Event.called .beginUpdate ∉ es)
      (hends : ∀ rectangles, Event.called (.commitUpdate rectangles) ∉ es)
  /-- An update begins, and does not complete a refresh. -/
  | begins (hpos : a'.rectanglePos = []) (hdeferred : a'.own.deferred = a.own.deferred)
      (hbegins : Event.called .beginUpdate ∈ es)
  /-- A rectangle is over. It is recorded where it counts, and the update may end with it. -/
  | settles (recorded : List Rect) (hpos : a'.rectanglePos = a.rectanglePos ++ recorded)
      (hbegins : Event.called .beginUpdate ∉ es)
      (hcounts : recorded ≠ [] → es.any (Event.paints a.own.screen.isSome) = true ∨
        es.any (Event.idles a.own.screen.isSome) = true)
      (hscreen : recorded = [] ∨ es.any (Event.paints a.own.screen.isSome) = false →
        (a'.own.screen ≠ none ↔ a.own.screen ≠ none ∨ ∃ e ∈ es, Event.Resizes e))
      (hfires : Awaits a → (a'.own.deferred = false ↔
        (∃ rectangles, Event.called (.commitUpdate rectangles) ∈ es) ∧
          a'.rectanglePos ≠ [] ∧ a'.own.screen ≠ none))

/-! ## What a turn does to a refresh -/

/-- What a method that paints leaves alone. -/
structure Works (a a' : State codecs) : Prop where
  rectanglePos : a'.rectanglePos = a.rectanglePos
  deferred : a'.own.deferred = a.own.deferred
  pending : a.own.fullscreen.pending = false → a'.own.fullscreen.pending = false
  log : ∃ es, a'.log = a.log ++ es ∧ ∀ e ∈ es, Event.updates e = false

theorem Keeps.works {a a' : State codecs} (h : Keeps a a') : Works a a' :=
  ⟨h.rectanglePos, h.deferred, fun hpending => h.fullscreen ▸ hpending, h.log⟩

section

variable (imaging : Imaging)

theorem works_copyRectangle (srcx srcy : ℕ) (rect : Rect) :
    Effect.Does Works (copyRectangle srcx srcy rect : Py (State codecs) Unit) := by
  intro a
  rw [run_copyRectangle]
  cases a.own.screen with
  | none => exact (Keeps.refl a).works
  | some screen => exact ⟨rfl, rfl, id, [], (List.append_nil _).symm, by simp⟩

theorem works_updateDesktopSize (width height : ℕ) :
    Effect.Does Works (updateDesktopSize width height : Py (State codecs) Unit) := by
  intro a
  rw [run_updateDesktopSize]
  split_ifs with hfits hpending
  · exact ⟨rfl, rfl, fun h => absurd (hpending.symm.trans h) (by simp), [],
      (List.append_nil _).symm, by simp⟩
  · exact ⟨rfl, rfl, id, [], (List.append_nil _).symm, by simp⟩
  · exact (Keeps.refl a).works

theorem works_updateRectangle (u : Update) :
    Effect.Does Works (updateRectangle imaging u.rect u.data u.pixelFormat : Py (State codecs) Unit) := by
  intro a
  have h := updateRectangle_spec imaging u a
  generalize (updateRectangle imaging u.rect u.data u.pixelFormat).run a = outcome at h ⊢
  cases h with
  | nothing _ => exact (Keeps.refl a).works
  | raised e format mode _ => exact ⟨rfl, rfl, id, [], (List.append_nil _).symm, by simp⟩
  | painted format mode image _ _ _ _ => exact ⟨rfl, rfl, id, [], (List.append_nil _).symm, by simp⟩

end

theorem any_of_around {es : List Event} {method : RFBClient.Callback} {p : Event → Bool}
    (hmem : Event.called method ∈ es) (hes : ∀ e ∈ es, e = .called method ∨ Ending e)
    (hp : ∀ e, Ending e → p e = false) : es.any p = p (.called method) := by
  rw [Bool.eq_iff_iff, List.any_eq_true]
  constructor
  · rintro ⟨e, he, htrue⟩
    rcases hes e he with rfl | hending
    · exact htrue
    · exact absurd ((hp e hending).symm.trans htrue) (by simp)
  · exact fun htrue => ⟨_, hmem, htrue⟩

theorem paints_of_ending {e : Event} (h : Ending e) (screen : Bool) :
    Event.paints screen e = false ∧ Event.idles screen e = false := by
  rcases h with h | ⟨rectangles, rfl⟩
  · unfold Event.updates at h
    unfold Event.paints Event.idles
    constructor <;> split <;> simp_all [Callback.paints]
  · exact ⟨rfl, rfl⟩

section

variable (audience : Audience codecs) (library : Library) (imaging : Imaging) {a a' a₁ : State codecs}

/-- A method that paints has raised. -/
theorem reckons_of_raised {method : RFBClient.Callback} {a₂ : State codecs}
    (hpaints : method ≠ .beginUpdate ∧ ∀ rectangles, method ≠ .commitUpdate rectangles)
    (hbefore : Keeps a a₁) (hworks : Works { a₁ with log := a₁.log ++ [.called method] } a₂)
    (hafter : Keeps a₂ a') : ∃ es, a'.log = a.log ++ es ∧ Reckons a a' es := by
  obtain ⟨es₀, hlog₀, hes₀⟩ := hbefore.log
  obtain ⟨es₁, hlog₁, hes₁⟩ := hworks.log
  obtain ⟨es₂, hlog₂, hes₂⟩ := hafter.log
  have hlog : a'.log = a.log ++ (es₀ ++ ([.called method] ++ (es₁ ++ es₂))) := by
    rw [hlog₂, hlog₁, hlog₀]
    simp only [List.append_assoc]
  -- No other method of an update is called.
  have hcalls : ∀ e, Event.updates e = true → e ≠ .called method →
      e ∉ es₀ ++ ([.called method] ++ (es₁ ++ es₂)) := by
    intro e hupdates hne he
    simp only [List.mem_append, List.mem_singleton] at he
    rcases he with he | he | he | he
    · exact absurd ((hes₀ e he).symm.trans hupdates) (by simp)
    · exact hne he
    · exact absurd ((hes₁ e he).symm.trans hupdates) (by simp)
    · exact absurd ((hes₂ e he).symm.trans hupdates) (by simp)
  refine ⟨_, hlog, .same ?_ ?_ (hcalls _ rfl fun h => hpaints.1 (Event.called.inj h).symm)
    fun rectangles => hcalls _ rfl fun h => hpaints.2 rectangles (Event.called.inj h).symm⟩
  · exact hafter.rectanglePos.trans (hworks.rectanglePos.trans hbefore.rectanglePos)
  · exact hafter.deferred.trans (hworks.deferred.trans hbefore.deferred)

/-- A method that paints has returned, and its rectangle is recorded where it counts. -/
theorem reckons_of_returned {method : RFBClient.Callback} {a₂ a₃ : State codecs}
    (recorded : List Rect)
    (hpaints : method ≠ .beginUpdate ∧ ∀ rectangles, method ≠ .commitUpdate rectangles)
    (hbefore : Keeps a a₁) (hworks : Works { a₁ with log := a₁.log ++ [.called method] } a₂)
    (hconcludes : Concludes a₃ a')
    (hrecorded : a₃.own = a₂.own ∧ a₃.log = a₂.log ∧
      a₃.rectanglePos = a₂.rectanglePos ++ recorded)
    (hcounts : recorded ≠ [] → ∀ screen, Event.paints screen (.called method) = true ∨
      Event.idles screen (.called method) = true)
    (hscreen : recorded = [] ∨ Event.paints a.own.screen.isSome (.called method) = false →
      (a₂.own.screen ≠ none ↔ a.own.screen ≠ none ∨ Event.Resizes (Event.called method))) :
    ∃ es, a'.log = a.log ++ es ∧ Reckons a a' es := by
  obtain ⟨hown, hsame, hpos⟩ := hrecorded
  obtain ⟨es₀, hlog₀, hes₀⟩ := hbefore.log
  obtain ⟨es₁, hlog₁, hes₁⟩ := hworks.log
  obtain ⟨es₂, hlog₂, hes₂, hends⟩ := hconcludes.log
  have hlog : a'.log = a.log ++ (es₀ ++ ([.called method] ++ (es₁ ++ es₂))) := by
    rw [hlog₂, hsame, hlog₁, hlog₀]
    simp only [List.append_assoc]
  have hmem : Event.called method ∈ es₀ ++ ([.called method] ++ (es₁ ++ es₂)) := by simp
  have hes : ∀ e ∈ es₀ ++ ([.called method] ++ (es₁ ++ es₂)), e = .called method ∨ Ending e := by
    intro e he
    simp only [List.mem_append, List.mem_singleton] at he
    rcases he with he | he | he | he
    · exact .inr (.inl (hes₀ e he))
    · exact .inl he
    · exact .inr (.inl (hes₁ e he))
    · exact .inr (hes₂ e he)
  have hcommit : ∀ rectangles,
      Event.called (.commitUpdate rectangles) ∈ es₀ ++ ([.called method] ++ (es₁ ++ es₂)) ↔
        Event.called (.commitUpdate rectangles) ∈ es₂ := by
    intro rectangles
    refine ⟨fun he => ?_, fun he => by simp [he]⟩
    simp only [List.mem_append, List.mem_singleton] at he
    rcases he with he | he | he | he
    · exact absurd (hes₀ _ he) (by simp [Event.updates])
    · exact absurd (Event.called.inj he).symm (hpaints.2 rectangles)
    · exact absurd (hes₁ _ he) (by simp [Event.updates])
    · exact he
  have hpaint : ∀ screen, (es₀ ++ ([Event.called method] ++ (es₁ ++ es₂))).any (Event.paints screen) =
      Event.paints screen (.called method) := fun screen =>
    any_of_around hmem hes fun e h => (paints_of_ending h screen).1
  have hidle : ∀ screen, (es₀ ++ ([Event.called method] ++ (es₁ ++ es₂))).any (Event.idles screen) =
      Event.idles screen (.called method) := fun screen =>
    any_of_around hmem hes fun e h => (paints_of_ending h screen).2
  refine ⟨_, hlog, .settles recorded ?_ (fun he => ?_) (fun h => ?_) (fun h => ?_)
    fun hawaits => ?_⟩
  · rw [hconcludes.rectanglePos, hpos, hworks.rectanglePos, ← hbefore.rectanglePos]
  · rcases hes _ he with h | h
    · exact hpaints.1 (Event.called.inj h).symm
    · rcases h with h | ⟨rectangles, h⟩
      · exact absurd h (by simp [Event.updates])
      · exact absurd h (by simp)
  · rw [hpaint, hidle]
    exact hcounts h _
  · rw [hpaint] at h
    rw [hconcludes.screen, hown, hscreen h]
    refine or_congr Iff.rfl ⟨fun hresizes => ⟨_, hmem, hresizes⟩, fun hresizes => ?_⟩
    obtain ⟨e, he, hresizes⟩ := hresizes
    rcases hes e he with rfl | hending
    · exact hresizes
    · -- The end of an update gives no new size.
      obtain ⟨width, height, rfl⟩ := hresizes
      rcases hending with h | ⟨rectangles, h⟩
      · exact absurd h (by simp [Event.updates, Callback.paints])
      · exact absurd h (by simp)
  · have hwaits : a₃.own.deferred = true := by
      rw [hown, hworks.deferred]
      exact hbefore.deferred.trans hawaits.1
    have hpending : a₃.own.fullscreen.pending = false := by
      rw [hown]
      refine hworks.pending ?_
      show a₁.own.fullscreen.pending = false
      rw [hbefore.fullscreen]
      exact hawaits.2
    rw [hconcludes.deferred hwaits hpending, exists_congr hcommit, hends, hconcludes.rectanglePos,
      hconcludes.screen]

/-- A method that paints, and what follows it. -/
theorem reckons_paint {method : RFBClient.Callback} {rect : Rect} {changed : Bool}
    (hpaints : method ≠ .beginUpdate ∧ ∀ rectangles, method ≠ .commitUpdate rectangles)
    (hbefore : Keeps a a₁)
    (hafter : Keeps
      (Effect.state ((paint (stageEnv audience library imaging) method rect changed).run a₁)) a')
    (hworks : Effect.Does Works ((stageEnv audience library imaging).callback method))
    (hcounts : changed = true → ∀ screen, Event.paints screen (.called method) = true ∨
      Event.idles screen (.called method) = true)
    (hscreen : ∀ a₂, ((stageEnv audience library imaging).callback method).run
        { a₁ with log := a₁.log ++ [.called method] } = .ok () a₂ →
      changed = false ∨ Event.paints a.own.screen.isSome (.called method) = false →
      (a₂.own.screen ≠ none ↔ a.own.screen ≠ none ∨ Event.Resizes (Event.called method))) :
    ∃ es, a'.log = a.log ++ es ∧ Reckons a a' es := by
  have hcall := hworks { a₁ with log := a₁.log ++ [.called method] }
  cases hrun : ((stageEnv audience library imaging).callback method).run
      { a₁ with log := a₁.log ++ [.called method] } with
  -- A method that raises is not recorded, and nothing follows it.
  | error e a₂ =>
    rw [state_paint_of_error (stageEnv audience library imaging) ((run_call _ _ _).trans hrun)]
      at hafter
    rw [hrun] at hcall
    exact reckons_of_raised hpaints hbefore hcall hafter
  | ok u a₂ =>
    rw [state_paint_of_ok (stageEnv audience library imaging) ((run_call _ _ _).trans hrun)]
      at hafter
    rw [hrun, Effect.state_ok] at hcall
    cases changed with
    | true =>
      have hconcludes := (concludes_conclude audience library imaging
        { a₂ with rectanglePos := a₂.rectanglePos ++ [rect] }).kept hafter
      exact reckons_of_returned [rect] hpaints hbefore hcall hconcludes ⟨rfl, rfl, rfl⟩ (fun _ => hcounts rfl)
        fun h => hscreen a₂ hrun (h.imp_left fun h => absurd h (by simp))
    | false =>
      have hconcludes := (concludes_conclude audience library imaging a₂).kept hafter
      exact reckons_of_returned [] hpaints hbefore hcall
        hconcludes ⟨rfl, rfl, (List.append_nil _).symm⟩ (fun h => absurd rfl h) fun _ => hscreen a₂ hrun (.inl rfl)

/-- The end of an update gives no new size, begins nothing, and paints nothing. -/
theorem not_resizes_of_ending {e : Event} (h : Ending e) : ¬Event.Resizes e := by
  rintro ⟨width, height, rfl⟩
  rcases h with h | ⟨rectangles, h⟩
  · exact absurd h (by simp [Event.updates, Callback.paints])
  · exact absurd h (by simp)

theorem not_beginUpdate_of_ending {e : Event} (h : Ending e) : e ≠ .called .beginUpdate := by
  rintro rfl
  rcases h with h | ⟨rectangles, h⟩
  · exact absurd h (by simp [Event.updates])
  · exact absurd h (by simp)

/-- The code of an update ends it where nothing was painted. -/
theorem reckons_of_passes (hbefore : Keeps a a₁) (hconcludes : Concludes a₁ a') :
    ∃ es, a'.log = a.log ++ es ∧ Reckons a a' es := by
  obtain ⟨es₀, hlog₀, hes₀⟩ := hbefore.log
  obtain ⟨es₁, hlog₁, hes₁, hends⟩ := hconcludes.log
  have hes : ∀ e ∈ es₀ ++ es₁, Ending e := by
    intro e he
    rcases List.mem_append.mp he with he | he
    · exact .inl (hes₀ e he)
    · exact hes₁ e he
  have hcommit : ∀ rectangles, Event.called (.commitUpdate rectangles) ∈ es₀ ++ es₁ ↔
      Event.called (.commitUpdate rectangles) ∈ es₁ := by
    intro rectangles
    refine ⟨fun he => ?_, List.mem_append_right es₀⟩
    rcases List.mem_append.mp he with he | he
    · exact absurd (hes₀ _ he) (by simp [Event.updates])
    · exact he
  refine ⟨es₀ ++ es₁, by rw [hlog₁, hlog₀, List.append_assoc], .settles [] ?_ (fun he => ?_)
    (fun h => absurd rfl h) (fun _ => ?_) fun hawaits => ?_⟩
  · rw [hconcludes.rectanglePos, hbefore.rectanglePos, List.append_nil]
  · exact not_beginUpdate_of_ending (hes _ he) rfl
  · rw [hconcludes.screen, hbefore.screen]
    refine ⟨.inl, fun h => ?_⟩
    rcases h with h | ⟨e, he, hresizes⟩
    · exact h
    · exact absurd hresizes (not_resizes_of_ending (hes e he))
  · have hwaits : a₁.own.deferred = true := hbefore.deferred.trans hawaits.1
    have hpending : a₁.own.fullscreen.pending = false := by
      rw [hbefore.fullscreen]
      exact hawaits.2
    rw [hconcludes.deferred hwaits hpending, exists_congr hcommit, hends, hconcludes.rectanglePos,
      hconcludes.screen]

/-- An update that begins has recorded nothing, and completes nothing. -/
theorem reckons_of_begins (rectangles : ℕ) (hbefore : Keeps a a₁)
    (h : a' = Effect.state ((start (stageEnv audience library imaging) rectangles).run a₁)) :
    ∃ es, a'.log = a.log ++ es ∧ Reckons a a' es := by
  obtain ⟨es₀, hlog₀, -⟩ := hbefore.log
  have hstart : a' = Effect.state ((conclude (stageEnv audience library imaging)).run { a₁ with
      rectangles := rectangles
      rectanglePos := []
      log := a₁.log ++ [.called .beginUpdate] }) := h
  have hconcludes := concludes_conclude audience library imaging { a₁ with
    rectangles := rectangles
    rectanglePos := []
    log := a₁.log ++ [.called .beginUpdate] }
  rw [← hstart] at hconcludes
  obtain ⟨es₁, hlog₁, -⟩ := hconcludes.log
  refine ⟨es₀ ++ .called .beginUpdate :: es₁, ?_, .begins hconcludes.rectanglePos ?_ (by simp)⟩
  · rw [hlog₁]
    show a₁.log ++ [.called .beginUpdate] ++ es₁ = _
    rw [hlog₀]
    simp only [List.append_assoc, List.singleton_append]
  · exact (hconcludes.hollow rfl).trans hbefore.deferred

/-- There is a screen where there was one. -/
theorem screen_of_same {method : RFBClient.Callback} {a₂ : State codecs}
    (hsame : a₂.own.screen = a.own.screen)
    (hmethod : ∀ width height, method ≠ .updateDesktopSize width height) :
    a₂.own.screen ≠ none ↔ a.own.screen ≠ none ∨ Event.Resizes (Event.called method) := by
  rw [hsame]
  refine ⟨.inl, fun h => ?_⟩
  rcases h with h | ⟨width, height, hresizes⟩
  · exact h
  · exact absurd (Event.called.inj hresizes) (hmethod width height)

/-- A turn, as a refresh that waits sees it. -/
theorem reckons_of_beat (h : Beat (stageEnv audience library imaging) a a') :
    ∃ es, a'.log = a.log ++ es ∧ Reckons a a' es := by
  cases h with
  | keeps h =>
    obtain ⟨es, hlog, hes⟩ := h.log
    refine ⟨es, hlog, .same h.rectanglePos h.deferred (fun he => ?_) fun rectangles he => ?_⟩
    · exact absurd (hes _ he) (by simp [Event.updates])
    · exact absurd (hes _ he) (by simp [Event.updates])
  | begins a₁ rectangles hbefore h => exact reckons_of_begins audience library imaging rectangles hbefore h
  | passes a₁ hbefore h =>
    exact reckons_of_passes hbefore (h ▸ concludes_conclude audience library imaging a₁)
  | draws a₁ method rect changed hbefore hdraws hafter =>
    cases hdraws with
    | copy srcx srcy rect' hwidth hheight =>
      refine reckons_paint audience library imaging ⟨by simp, by simp⟩ hbefore hafter
        (works_copyRectangle srcx srcy rect') (fun _ screen => ?_) fun a₂ hrun hpaints => ?_
      · cases screen <;> simp [Event.paints, Event.idles]
      · -- A copy that paints nothing finds no screen.
        have hnone : a.own.screen = none := by simpa [Event.paints] using hpaints
        rw [show (stageEnv audience library imaging).callback (.copyRectangle srcx srcy rect') =
          copyRectangle srcx srcy rect' from rfl, run_copyRectangle] at hrun
        have hnone' : a₁.own.screen = none := hbefore.screen.trans hnone
        simp only [hnone'] at hrun
        obtain rfl := (EStateM.Result.ok.inj hrun).2
        exact screen_of_same hbefore.screen (by simp)
    | cursor rect' image mask =>
      refine reckons_paint audience library imaging ⟨by simp, by simp⟩ hbefore hafter
        (fun a => (stays_updateCursor imaging rect' image mask a).works) (fun _ _ => .inr rfl)
        fun a₂ hrun _ => ?_
      have hkeeps := stays_updateCursor imaging rect' image mask
        { a₁ with log := a₁.log ++ [.called (.updateCursor rect' image mask)] }
      rw [show (updateCursor imaging rect' image mask).run _ = _ from hrun] at hkeeps
      exact screen_of_same (hkeeps.screen.trans hbefore.screen) (by simp)
    | pointer x y =>
      refine reckons_paint audience library imaging ⟨by simp, by simp⟩ hbefore hafter
        (fun a => ⟨rfl, rfl, id, [], (List.append_nil _).symm, by simp⟩)
        (fun h => absurd h (by simp)) fun a₂ hrun _ => ?_
      obtain rfl := (EStateM.Result.ok.inj hrun).2
      exact screen_of_same hbefore.screen (by simp)
    | desktop width height =>
      refine reckons_paint audience library imaging ⟨by simp, by simp⟩ hbefore hafter
        (works_updateDesktopSize width height) (fun h => absurd h (by simp))
        fun a₂ hrun _ => ?_
      rw [show (stageEnv audience library imaging).callback (.updateDesktopSize width height) =
        updateDesktopSize width height from rfl, run_updateDesktopSize] at hrun
      by_cases hfits : width < maxDesktopSize ∧ height < maxDesktopSize
      · rw [if_pos hfits] at hrun
        obtain rfl := (EStateM.Result.ok.inj hrun).2
        exact ⟨fun _ => .inr ⟨width, height, rfl⟩, fun _ => by simp⟩
      · rw [if_neg hfits] at hrun
        exact absurd hrun (by simp)
  | pastes a₁ rect data pixelFormat hlength hbefore h =>
    have hafter : Keeps (Effect.state ((paint (stageEnv audience library imaging)
        (.updateRectangle rect data pixelFormat) rect true).run a₁)) a' := h ▸ Keeps.refl a'
    refine reckons_paint audience library imaging ⟨by simp, by simp⟩ hbefore hafter
      (works_updateRectangle imaging ⟨rect, data, pixelFormat⟩) (fun _ screen => ?_)
      fun a₂ hrun hpaints => ?_
    · cases hdata : data.isEmpty <;> simp [Event.paints, Event.idles, hdata]
    · have hcall := updateRectangle_spec imaging ⟨rect, data, pixelFormat⟩
        { a₁ with log := a₁.log ++ [.called (.updateRectangle rect data pixelFormat)] }
      rw [show (updateRectangle imaging rect data pixelFormat).run _ = _ from hrun] at hcall
      cases hcall with
      | nothing _ => exact screen_of_same hbefore.screen (by simp)
      | painted format mode image hdata _ _ _ =>
        rcases hpaints with hpaints | hpaints
        · exact absurd hpaints (by simp)
        · exact absurd (hdata.symm.trans hpaints) (by simp)

end

/-! ## Refreshes over a session -/

section

variable (audience : Audience codecs) (library : Library) (imaging : Imaging)
  {c : RFBClient (Decoding codecs) Fields} {g g₀ : Tally} {c₀ : RFBClient (Decoding codecs) Fields}
  {good : Tally → RFBClient (Decoding codecs) Fields → Prop}

/-- What was noted of an update accounts for the recorded rectangles. -/
def Accounts (g : Tally) (a : State codecs) : Prop :=
  a.rectanglePos ≠ [] ↔ g.painted = true ∨ g.hollow = true

theorem accounts_turned (haccounts : Accounts g c.attrs)
    (hbeat : Beat (stageEnv audience library imaging) c.attrs
      (next (stageEnv audience library imaging) c).attrs) :
    Accounts (tally (stageEnv audience library imaging) g c)
      (next (stageEnv audience library imaging) c).attrs := by
  obtain ⟨es, hlog, hreckons⟩ := reckons_of_beat audience library imaging hbeat
  have hmade : made (stageEnv audience library imaging) c = es := made_eq hlog
  unfold tally
  rw [hmade]
  cases hreckons with
  | same hpos hdeferred hbegins hends =>
    rw [if_neg hbegins, if_pos hpos]
    unfold Accounts
    rw [hpos]
    exact haccounts
  | begins hpos hdeferred hbegins =>
    rw [if_pos hbegins]
    exact ⟨fun h => absurd hpos h, fun h => absurd h (by simp)⟩
  | settles recorded hpos hbegins hcounts hscreen hfires =>
    rw [if_neg hbegins]
    cases recorded with
    | nil =>
      rw [List.append_nil] at hpos
      rw [if_pos hpos]
      unfold Accounts
      rw [hpos]
      exact haccounts
    -- What is recorded was counted: it painted, or was one that paints nothing.
    | cons rect rest =>
      have hrecorded : (next (stageEnv audience library imaging) c).attrs.rectanglePos ≠
          c.attrs.rectanglePos := by
        rw [hpos]
        simp
      rw [if_neg hrecorded]
      refine ⟨fun _ => ?_, fun _ => by simp [hpos]⟩
      rcases hcounts (by simp) with h | h
      · exact .inl (by simp [h])
      · exact .inr (by simp [h])

theorem Session.accounts (hphase : c₀.phase = .initial) (hscreen : c₀.attrs.own.screen = none)
    (hstart : Accounts g₀ c₀.attrs)
    (h : Session (stageEnv audience library imaging) (tally (stageEnv audience library imaging)) good g₀
      c₀ g c) : Accounts g c.attrs := by
  induction h with
  | start => exact hstart
  | delivered data h _ ih =>
    have hkeeps := h.keeps_deliver audience library imaging hphase hscreen data
    unfold Accounts
    rw [hkeeps.rectanglePos]
    exact ih
  | turned h hready _ ih =>
    rcases h.turn_cases audience library imaging hphase hscreen hready with hannounces | hbeat
    · obtain ⟨width, height, pixelFormat, -, -, hattrs⟩ := hannounces.attrs
      -- The announcement shows nothing, and records nothing.
      have hmade : made (stageEnv audience library imaging) _ = [] :=
        made_eq (show _ = _ ++ [] by rw [hattrs, List.append_nil])
      unfold tally
      rw [hmade, if_neg (by simp), if_pos (by rw [hattrs])]
      unfold Accounts
      rw [hattrs]
      exact ih
    · exact accounts_turned audience library imaging ih hbeat
  | acted h hacts ih =>
    obtain ⟨⟨own, decoding, pixelFormat, es, rfl, -, -⟩, -⟩ := hacts
    exact ih

/-- An update that ends on a screen while an incremental refresh waits has painted, if it has recorded a
rectangle that has not. -/
def Fills (env : Env (Decoding codecs) Fields) (g : Tally) (c : RFBClient (Decoding codecs) Fields) :
    Prop :=
  (∃ rectangles, Event.called (.commitUpdate rectangles) ∈ made env c) →
    (c.attrs.own.screen ≠ none ∨ ∃ e ∈ made env c, Event.Resizes e) →
      (tally env g c).hollow = true → (tally env g c).painted = true

/-- An incremental refresh is completed by an update that has painted on the screen, if and only if the
update it may be completed by is not made of idle rectangles alone. -/
theorem refresh_painted_iff {factory : Factory} {options : Options} {pixelFormat : Option PixelFormat}
    {encodings : Option (List ℤ)} {jpegQuality : Option ℕ}
    (h : Session (stageEnv audience library imaging) (tally (stageEnv audience library imaging))
      (fun _ _ => True) {} (build factory options pixelFormat encodings jpegQuality) g c)
    (hready : ready c = true) (hawaits : Awaits c.attrs) :
    ((next (stageEnv audience library imaging) c).attrs.own.deferred = false →
        (tally (stageEnv audience library imaging) g c).painted = true) ↔
      Fills (stageEnv audience library imaging) g c := by
  have haccounts := h.accounts audience library imaging rfl rfl (by simp [Accounts, build, fresh])
  rcases h.turn_cases audience library imaging rfl rfl hready with hannounces | hbeat
  · obtain ⟨width, height, pixelFormat, -, -, hattrs⟩ := hannounces.attrs
    have hmade : made (stageEnv audience library imaging) c = [] :=
      made_eq (show _ = _ ++ [] by rw [hattrs, List.append_nil])
    refine ⟨fun _ hends => ?_, fun _ hover => ?_⟩
    · rw [hmade] at hends
      exact absurd hends (by simp)
    · rw [hattrs] at hover
      exact absurd (hawaits.1.symm.trans hover) (by simp)
  · have hafter := accounts_turned audience library imaging haccounts hbeat
    unfold Accounts at hafter
    obtain ⟨es, hlog, hreckons⟩ := reckons_of_beat audience library imaging hbeat
    have hmade : made (stageEnv audience library imaging) c = es := made_eq hlog
    unfold Fills
    rw [hmade]
    cases hreckons with
    | same hpos hdeferred hbegins hends =>
      refine ⟨fun _ hcommits => ?_, fun _ hover => ?_⟩
      · obtain ⟨rectangles, hmem⟩ := hcommits
        exact absurd hmem (hends rectangles)
      · exact absurd (hover.symm.trans (hdeferred.trans hawaits.1)) (by simp)
    | begins hpos hdeferred hbegins =>
      have hnothing : tally (stageEnv audience library imaging) g c = {} := by
        unfold tally
        rw [hmade, if_pos hbegins]
      refine ⟨fun _ _ _ hhollow => ?_, fun _ hover => ?_⟩
      · rw [hnothing] at hhollow
        exact absurd hhollow (by simp)
      · exact absurd (hover.symm.trans (hdeferred.trans hawaits.1)) (by simp)
    | settles recorded hpos hbegins hcounts hscreen hfires =>
      rw [hfires hawaits, hafter]
      -- Only an update that has not painted can go wrong, and it makes no screen but by a new size.
      by_cases hpainted : (tally (stageEnv audience library imaging) g c).painted = true
      · exact ⟨fun _ _ _ _ => hpainted, fun _ _ => hpainted⟩
      · have hunpainted : recorded = [] ∨ es.any (Event.paints c.attrs.own.screen.isSome) = false := by
          refine or_iff_not_imp_left.mpr fun hrecorded => ?_
          have hmore : (next (stageEnv audience library imaging) c).attrs.rectanglePos ≠
              c.attrs.rectanglePos := by
            rw [hpos]
            simpa using hrecorded
          unfold tally at hpainted
          rw [hmade, if_neg hbegins, if_neg hmore] at hpainted
          simp only [Bool.or_eq_true, not_or, Bool.not_eq_true] at hpainted
          exact hpainted.2
        rw [hscreen hunpainted]
        refine ⟨fun h hends hon hhollow => h ⟨hends, .inr hhollow, hon⟩, fun h hover => ?_⟩
        obtain ⟨hends, hcounted, hon⟩ := hover
        rcases hcounted with hpainted' | hhollow
        · exact hpainted'
        · exact h hends hon hhollow

end

/-- A server that sends an update of its one pixel. -/
def paintedScreen : Bytes := onePixelServer ++ [0, 0, 0, 1] ++ rawPixel (0, 0)

/-- An update of a rectangle of one pixel, with what the rectangle holds. -/
def onePixelUpdate (encoding rectangle : Bytes) : Bytes :=
  [0, 0, 0, 1] ++ [0, 0, 0, 0, 0, 1, 0, 1] ++ encoding ++ rectangle

/-- An update of the pointer. -/
def cursorUpdate : Bytes := onePixelUpdate [255, 255, 255, 17] [255, 255, 255, 0, 128]

/-- The notes and the client after so many turns on the update that `paintedScreen` ends with, an
incremental refresh, and so many turns on what then comes in. -/
abbrev afterRefresh (n : ℕ) (data : Bytes) (m : ℕ) :
    Tally × RFBClient (Decoding Decoders.sampleCodecs) Fields :=
  let before := turns idleStage (tally idleStage) n
    ({}, client ((deliver idleStage paintedScreen).run (build {} {} none none none)))
  let asked := { before.2 with attrs := Effect.state ((refreshScreen true).run before.2.attrs) }
  turns idleStage (tally idleStage) m (before.1, client ((deliver idleStage data).run asked))

/-- Asking for a refresh is an act of an application. -/
theorem acts_refreshScreen (incremental : Bool) (a : State codecs) :
    Acts a (Effect.state ((refreshScreen incremental).run a)) := by
  obtain ⟨es, hstate, hes⟩ := state_refreshScreen incremental a
  rw [hstate]
  exact ⟨⟨_, _, _, es, rfl, rfl, hes⟩, rfl⟩

theorem session_afterRefresh (n : ℕ) (data : Bytes) (m : ℕ)
    (hbefore : ∀ i < n, ready (turns idleStage (tally idleStage) i
      ({}, client ((deliver idleStage paintedScreen).run (build {} {} none none none)))).2 = true)
    (hlive : (turns idleStage (tally idleStage) n
      ({}, client ((deliver idleStage paintedScreen).run (build {} {} none none none)))).2.aborted =
        false)
    (hafter : ∀ i < m, ready (afterRefresh n data i).2 = true) :
    Session idleStage (tally idleStage) (fun _ _ => True) {} (build {} {} none none none)
      (afterRefresh n data m).1 (afterRefresh n data m).2 := by
  have hpainted := (Session.delivered paintedScreen (.start : Session idleStage (tally idleStage)
    (fun _ _ => True) {} (build {} {} none none none) {} (build {} {} none none none)) rfl).turns n
      fun i hi => ⟨hbefore i hi, trivial⟩
  have hasked := hpainted.acted (acts_refreshScreen true _)
  exact (hasked.delivered data hlive).turns m fun i hi => ⟨hafter i hi, trivial⟩

/-- The update of a pixel that is painted on the screen. -/
def pixelUpdate : Bytes := onePixelUpdate [0, 0, 0, 0] [255, 255, 255, 0]

/-- A refresh that a pixel completes: the tally of this very run has it painted. -/
theorem refresh_painted_iff_sample :
    let point := afterRefresh 7 pixelUpdate 3
    Session idleStage (tally idleStage) (fun _ _ => True) {} (build {} {} none none none)
        point.1 point.2 ∧
      Awaits point.2.attrs ∧ (next idleStage point.2).attrs.own.deferred = false ∧
      (tally idleStage point.1 point.2).painted = true := by
  intro point
  have hsession : Session idleStage (tally idleStage) (fun _ _ => True) {}
      (build {} {} none none none) point.1 point.2 :=
    session_afterRefresh 7 pixelUpdate 3 (by decide +kernel) (by decide +kernel) (by decide +kernel)
  have hawaits : Awaits point.2.attrs := ⟨by decide +kernel, by decide +kernel⟩
  have hover : (next idleStage point.2).attrs.own.deferred = false := by decide +kernel
  refine ⟨hsession, hawaits, hover, ?_⟩
  refine (refresh_painted_iff idleAudience sampleLibrary sampleImaging hsession (by decide +kernel)
    hawaits).mpr (fun _ _ hhollow => ?_) hover
  exact absurd (hhollow.symm.trans (by decide +kernel)) (by decide : true ≠ false)

/-- The pointer completes another. -/
theorem refresh_unpainted : ∃ g c,
    Session idleStage (tally idleStage) (fun _ _ => True) {} (build {} {} none none none) g c ∧
      ready c = true ∧ Awaits c.attrs ∧ (next idleStage c).attrs.own.deferred = false ∧
      (tally idleStage g c).painted = false :=
  ⟨_, _, session_afterRefresh 7 cursorUpdate 3 (by decide +kernel) (by decide +kernel)
    (by decide +kernel), by decide +kernel, ⟨by decide +kernel, by decide +kernel⟩, by decide +kernel,
    by decide +kernel⟩

end VNCDoToolClient

end VncDoTool
