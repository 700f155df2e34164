import VncDoTool.Lib.Machine
import VncDoTool.DoTool.Refreshes

/-!
# Refreshes of the whole screen

What has been painted of the framebuffer when `commitUpdate` completes a refresh that was promised the
whole of it.

* `VNCDoToolClient.Act`: the calls a run is made of, in any order.
* `VNCDoToolClient.Coverage`: what is noted of a run; `VNCDoToolClient.Masks`: the mask of the client
  agrees with it.
* `VNCDoToolClient.CompletesCovered`: a refresh is completed on a painted framebuffer, or with a warning.
* `VNCDoToolClient.refresh_covered`: the runs in which every refresh is.
-/

namespace VncDoTool

namespace VNCDoToolClient

open RFBClient

variable {codecs : Codecs}

/-! ## Runs of calls -/

/-- What happens to a client: an application asks for a refresh, or a method is called. -/
inductive Act : Type
  | refresh (incremental : Bool)
  | method (callback : RFBClient.Callback)

/-- The call. -/
def Act.run (env : Env (Decoding codecs) Fields) : Act → Py (State codecs) Unit
  | .refresh incremental => refreshScreen incremental
  | .method callback => env.call callback

/-- The attributes a call leaves, whether it returns or raises. -/
def Act.after (env : Env (Decoding codecs) Fields) (a : State codecs) (act : Act) : State codecs :=
  Effect.state ((act.run env).run a)

/-- What is noted of a run. -/
structure Coverage : Type where
  /-- The last refresh that was asked for is promised the whole screen. -/
  full : Bool := false
  /-- The framebuffer has had no size since it was asked for. -/
  voided : Bool := false
  /-- What was painted of the framebuffer since then, and since its size was last set. -/
  covered : ℕ → ℕ → Bool := fun _ _ => false
  /-- Since that same point an update fell short, and the whole screen was asked for again. -/
  again : Bool := false

/-- A rectangle is painted. -/
def Coverage.paint (g : Coverage) (rect : Rect) : Coverage :=
  { g with covered := fun i j => decide (rect.Covers i j) || g.covered i j }

/-- A part of the framebuffer is not covered. -/
def Coverage.misses (g : Coverage) (a : State codecs) : Bool :=
  (List.range a.width).any fun i => (List.range a.height).any fun j => !g.covered i j

/-- The whole screen is asked for. -/
def asksForAll (a : State codecs) (es : List Event) : Bool :=
  (RFBClient.framebufferUpdateRequest (a.width, a.height) 0 0 none none false).toOption.any
    fun message => es.contains (.wrote .message message)

theorem Act.after_refresh (env : Env (Decoding codecs) Fields) (a : State codecs)
    (incremental : Bool) :
    (Act.refresh incremental).after env a = Effect.state ((refreshScreen incremental).run a) := by
  unfold Act.after Act.run
  rfl

/-- What a call adds to the notes. -/
def Coverage.note (env : Env (Decoding codecs) Fields) (g : Coverage) (a : State codecs) :
    Act → Coverage
  | .refresh incremental => { full := !incremental, voided := a.width = 0 ∧ a.height = 0 }
  | .method (.updateRectangle rect data pixelFormat) =>
    -- A call that raises paints nothing.
    if !data.isEmpty ∧ Effect.returns ((env.call (.updateRectangle rect data pixelFormat)).run a) then
      g.paint rect
    else g
  | .method (.copyRectangle _ _ rect) => if a.own.screen.isSome then g.paint rect else g
  | .method (.updateDesktopSize width height) =>
    if width < maxDesktopSize ∧ height < maxDesktopSize then
      { full := g.full, voided := g.voided || decide (width = 0 ∧ height = 0) }
    else g
  | .method (.commitUpdate rectangles) => { g with
      again := g.again || g.misses a &&
        asksForAll a ((Act.after env a (.method (.commitUpdate rectangles))).log.drop a.log.length) }
  | .method _ => g

/-- A run goes on. -/
def Coverage.step (env : Env (Decoding codecs) Fields) (s : Coverage × State codecs) (act : Act) :
    Coverage × State codecs := (s.1.note env s.2 act, act.after env s.2)

/-- A call that completes a refresh of the whole screen finds the framebuffer covered, or warns of what
is left once the screen was asked for again. -/
def CompletesCovered (env : Env (Decoding codecs) Fields) (s : Coverage × State codecs) (act : Act) :
    Prop :=
  s.1.full = true → s.2.own.deferred = true → (act.after env s.2).own.deferred = false →
    ((act.after env s.2).own.warnings = s.2.own.warnings →
        ∀ i < s.2.width, ∀ j < s.2.height, s.1.covered i j = true) ∧
      ((act.after env s.2).own.warnings ≠ s.2.own.warnings → s.1.again = true)

/-- Once the framebuffer has had no size while a refresh of the whole screen waits, it gets no area. -/
def StaysEmpty (s : Coverage × State codecs) (act : Act) : Prop :=
  ∀ width height, act = .method (.updateDesktopSize width height) →
    s.1.full = true → s.2.own.deferred = true → s.1.voided = true →
      (width < maxDesktopSize ∧ height < maxDesktopSize) → width = 0 ∨ height = 0

/-! ## The mask and the notes -/

/-- The mask of a refresh of the whole screen is as large as the framebuffer and tells what is not
covered, until the framebuffer has had no size: then it has none either. -/
structure Masks (g : Coverage) (size : ℕ × ℕ) (f : FullScreenReceived) : Prop where
  fits : g.voided = false → (f.width, f.height) = size ∧ size ≠ (0, 0)
  unpainted : g.voided = false → ∀ i j, f.unpainted i j = !g.covered i j
  void : g.voided = true → f.pending = false ∧ (size.1 = 0 ∨ size.2 = 0) ∧ f.retries = 0
  again : f.retries ≠ 0 → g.again = true

/-- What holds throughout a run. -/
structure Tracks (g : Coverage) (a : State codecs) : Prop where
  width : a.width < maxDesktopSize
  height : a.height < maxDesktopSize
  mask : g.full = true → a.own.deferred = true → Masks g (a.width, a.height) a.own.fullscreen

section

variable {g : Coverage} {a a' : State codecs}

theorem Tracks.kept (h : Tracks g a) (hkeeps : Keeps a a') : Tracks g a' where
  width := hkeeps.width ▸ h.width
  height := hkeeps.height ▸ h.height
  mask hfull hwaits := by
    rw [hkeeps.width, hkeeps.height, hkeeps.fullscreen]
    exact h.mask hfull (hkeeps.deferred.symm.trans hwaits)

/-- A mask that is painted where the framebuffer is agrees with the notes. -/
theorem Masks.paint {size : ℕ × ℕ} {f : FullScreenReceived} (h : Masks g size f) (rect : Rect) :
    Masks (g.paint rect) size (f.paintRect rect) where
  fits := h.fits
  unpainted hsized i j := by
    show (if _ then false else f.unpainted i j) = !(decide (rect.Covers i j) || g.covered i j)
    rw [h.unpainted hsized, Bool.not_or]
    by_cases hcovers : rect.Covers i j
    · rw [if_pos (and_assoc.mp hcovers), decide_eq_true hcovers]
      rfl
    · rw [if_neg fun hcovers' => hcovers (and_assoc.mpr hcovers'), decide_eq_false hcovers]
      rfl
  void := h.void
  again := h.again

/-- A complete mask tells that the framebuffer is covered. -/
theorem Masks.covered {size : ℕ × ℕ} {f : FullScreenReceived} (h : Masks g size f)
    (hcomplete : f.complete = true) : ∀ i < size.1, ∀ j < size.2, g.covered i j = true := by
  intro i hi j hj
  cases hvoided : g.voided with
  | true =>
    -- A framebuffer without area has no pixel.
    obtain ⟨-, hnone, -⟩ := h.void hvoided
    omega
  | false =>
    obtain ⟨hsize, -⟩ := h.fits hvoided
    have hall := List.all_eq_true.mp hcomplete i (List.mem_range.mpr (by rw [← hsize] at hi; exact hi))
    have hpixel := List.all_eq_true.mp hall j (List.mem_range.mpr (by rw [← hsize] at hj; exact hj))
    rw [h.unpainted hvoided, Bool.not_not] at hpixel
    exact hpixel

/-- A mask that is not complete tells that the framebuffer is not covered. -/
theorem Masks.misses {f : FullScreenReceived} (h : Masks g (a.width, a.height) f)
    (hcomplete : f.complete = false) : g.misses a = true := by
  have hsized : g.voided = false := by
    refine Bool.eq_false_iff.mpr fun hvoided => ?_
    have hall := complete_of_not_pending (h.void hvoided).1
    exact absurd (hcomplete.symm.trans hall) (by simp)
  obtain ⟨hsize, -⟩ := h.fits hsized
  obtain ⟨hwidth, hheight⟩ := Prod.mk.inj hsize
  rw [← Bool.not_eq_true] at hcomplete
  unfold FullScreenReceived.complete at hcomplete
  unfold Coverage.misses
  simp only [h.unpainted hsized, Bool.not_not, hwidth, hheight] at hcomplete
  rw [List.all_eq_true] at hcomplete
  push Not at hcomplete
  obtain ⟨i, hi, hcolumn⟩ := hcomplete
  rw [List.any_eq_true]
  refine ⟨i, hi, ?_⟩
  rw [Ne, List.all_eq_true] at hcolumn
  push Not at hcolumn
  obtain ⟨j, hj, hpixel⟩ := hcolumn
  exact List.any_eq_true.mpr ⟨j, hj, by simpa using hpixel⟩

end

/-! ## What each call keeps -/

section

variable {g : Coverage} {a a' : State codecs}

/-- A framebuffer of a size that can be announced can be asked for. -/
theorem exists_request (hwidth : a.width < maxDesktopSize) (hheight : a.height < maxDesktopSize)
    (incremental : Bool) : ∃ rest,
      RFBClient.framebufferUpdateRequest (a.width, a.height) 0 0 none none incremental =
        .ok (UInt8.ofNat MsgC2S.framebufferUpdateRequest.value :: rest) := by
  have hzero : pack16 0 = some (be16 0) := rfl
  have hw : pack16 ((a.width : ℤ) - 0) = some (be16 a.width) := by
    rw [sub_zero]
    exact pack16_natCast hwidth
  have hh : pack16 ((a.height : ℤ) - 0) = some (be16 a.height) := by
    rw [sub_zero]
    exact pack16_natCast hheight
  unfold RFBClient.framebufferUpdateRequest
  simp only [Option.getD_none, hzero, hw, hh]
  exact ⟨_, rfl⟩

theorem run_framebufferUpdateRequest (a : State codecs) :
    (framebufferUpdateRequest : Py (State codecs) Unit).run a = (encoded
        (RFBClient.framebufferUpdateRequest (a.width, a.height) 0 0 none none false) >>=
          fun message => Attrs.write .message message : Py (State codecs) Unit).run a := by
  unfold framebufferUpdateRequest
  rw [EStateM.run_bind, EStateM.run_get]

theorem run_encoded_write (message : Bytes) (a : State codecs) :
    (encoded (.ok message) >>= fun message => Attrs.write .message message :
      Py (State codecs) Unit).run a = .ok () { a with log := a.log ++ [.wrote .message message] } :=
  rfl

/-- The whole screen is asked for. -/
theorem asksForAll_asked (hwidth : a.width < maxDesktopSize) (hheight : a.height < maxDesktopSize) :
    ∃ es, (asked a).log = a.log ++ es ∧ asksForAll a es = true := by
  obtain ⟨rest, hmessage⟩ := exists_request hwidth hheight false
  generalize UInt8.ofNat MsgC2S.framebufferUpdateRequest.value :: rest = message at hmessage
  have hasked : asked a = { a with log := a.log ++ [.wrote .message message] } := by
    unfold asked
    rw [run_framebufferUpdateRequest, hmessage, run_encoded_write]
    rfl
  refine ⟨[.wrote .message message], by rw [hasked], ?_⟩
  unfold asksForAll
  rw [hmessage]
  show List.contains [Event.wrote .message message] (.wrote .message message) = true
  simp

/-- A refresh is asked for. -/
theorem tracks_refresh (h : Tracks g a) (incremental : Bool) :
    Tracks { full := !incremental, voided := decide (a.width = 0 ∧ a.height = 0) }
      (Effect.state ((refreshScreen incremental).run a)) := by
  obtain ⟨es, hstate, -⟩ := state_refreshScreen incremental a
  rw [hstate]
  refine ⟨h.width, h.height, fun hfull _ => ?_⟩
  obtain rfl : incremental = false := by simpa using hfull
  refine ⟨fun hvoided => ⟨rfl, ?_⟩, fun _ _ _ => rfl, fun hvoided => ?_, fun hretries => ?_⟩
  · simpa [Prod.mk.injEq] using hvoided
  · obtain ⟨hwidth, hheight⟩ := of_decide_eq_true hvoided
    refine ⟨?_, .inl hwidth, rfl⟩
    simp [FullScreenReceived.pending, FullScreenReceived.awaiting, hwidth, hheight]
  · exact absurd rfl hretries

theorem tracks_copyRectangle (h : Tracks g a) (srcx srcy : ℕ) (rect : Rect) :
    Tracks (if a.own.screen.isSome then g.paint rect else g)
      (Effect.state ((copyRectangle srcx srcy rect).run a)) := by
  rw [run_copyRectangle]
  cases hscreen : a.own.screen with
  | none => exact h
  | some screen => exact ⟨h.width, h.height, fun hfull hwaits => (h.mask hfull hwaits).paint rect⟩

theorem tracks_updateDesktopSize (h : Tracks g a) (width height : ℕ)
    (hempty : g.full = true → a.own.deferred = true → g.voided = true →
      (width < maxDesktopSize ∧ height < maxDesktopSize) → width = 0 ∨ height = 0) :
    Tracks (if width < maxDesktopSize ∧ height < maxDesktopSize then
        { full := g.full, voided := g.voided || decide (width = 0 ∧ height = 0) }
      else g) (Effect.state ((updateDesktopSize width height).run a)) := by
  rw [run_updateDesktopSize]
  by_cases hfits : width < maxDesktopSize ∧ height < maxDesktopSize
  · rw [if_pos hfits, if_pos hfits]
    refine ⟨hfits.1, hfits.2, fun hfull hwaits => ?_⟩
    have hmask := h.mask hfull hwaits
    cases hvoided : g.voided with
    | true =>
      -- The client takes the refresh for one that was promised no area, and keeps the mask.
      obtain ⟨hpending, -, hretries⟩ := hmask.void hvoided
      show Masks _ (width, height) (if a.own.fullscreen.pending then _ else a.own.fullscreen)
      rw [hpending]
      refine ⟨fun h => absurd h (by simp), fun h => absurd h (by simp), fun _ => ?_, fun hmore => ?_⟩
      · exact ⟨hpending, hempty hfull hwaits hvoided hfits, hretries⟩
      · exact absurd hretries hmore
    | false =>
      obtain ⟨hsize, hsized⟩ := hmask.fits hvoided
      have hpending : a.own.fullscreen.pending = true := by
        unfold FullScreenReceived.pending
        rw [hsize]
        exact decide_eq_true hsized
      show Masks _ (width, height) (if a.own.fullscreen.pending then _ else a.own.fullscreen)
      rw [hpending]
      refine ⟨fun hvoided' => ⟨rfl, ?_⟩, fun _ _ _ => rfl, fun hvoided' => ?_, fun hmore => ?_⟩
      · simpa [Prod.mk.injEq] using hvoided'
      · obtain ⟨hwidth, hheight⟩ : width = 0 ∧ height = 0 := by simpa using hvoided'
        refine ⟨?_, .inl hwidth, rfl⟩
        simp [FullScreenReceived.pending, FullScreenReceived.awaiting, hwidth, hheight]
      · exact absurd rfl hmore
  · rw [if_neg hfits, if_neg hfits]
    exact h

theorem tracks_updateRectangle (imaging : Imaging) (u : Update) (h : Tracks g a) :
    Tracks (if u.brings = true ∧
          Effect.returns ((updateRectangle imaging u.rect u.data u.pixelFormat).run a) = true then
        g.paint u.rect
      else g) (Effect.state ((updateRectangle imaging u.rect u.data u.pixelFormat).run a)) := by
  have hcall := updateRectangle_spec imaging u a
  generalize (updateRectangle imaging u.rect u.data u.pixelFormat).run a = outcome at hcall ⊢
  cases hcall with
  | nothing hdata =>
    rw [if_neg (by simp [hdata])]
    exact h
  | raised e format mode hdata =>
    rw [if_neg (by simp [Effect.returns])]
    exact ⟨h.width, h.height, h.mask⟩
  | painted format mode image hdata hwidth hheight _ =>
    rw [if_pos ⟨hdata, rfl⟩]
    exact ⟨h.width, h.height, fun hfull hwaits => (h.mask hfull hwaits).paint u.rect⟩

theorem asksForAll_cons {es : List Event} (e : Event) (h : asksForAll a es = true) :
    asksForAll a (e :: es) = true := by
  unfold asksForAll at h ⊢
  obtain ⟨message, hmessage, hmem⟩ := Option.any_eq_true _ _ |>.mp h
  refine Option.any_eq_true _ _ |>.mpr ⟨message, hmessage, ?_⟩
  rw [List.contains_cons, hmem, Bool.or_true]

/-- The notes once an update has ended. -/
def Coverage.ended (g : Coverage) (a a' : State codecs) : Coverage :=
  { g with again := g.again || g.misses a && asksForAll a (a'.log.drop a.log.length) }

theorem Masks.ended {size : ℕ × ℕ} {f : FullScreenReceived} (h : Masks g size f) :
    Masks (g.ended a a') size f where
  fits := h.fits
  unpainted := h.unpainted
  void := h.void
  again hretries := by
    show (g.again || _) = true
    rw [h.again hretries, Bool.true_or]

/-- An update ends. -/
theorem tracks_commitUpdate (hooks : Hooks codecs) (hkeeps : ∀ a, Keeps a (hooks.refreshed a))
    (rectangles : List Rect) (h : Tracks g a) (hcommits : Commits hooks rectangles
      { a with log := a.log ++ [.called (.commitUpdate rectangles)] } a') :
    Tracks (g.ended a a') a' ∧
      (g.full = true → a.own.deferred = true → a'.own.deferred = false →
        (a'.own.warnings = a.own.warnings →
            ∀ i < a.width, ∀ j < a.height, g.covered i j = true) ∧
          (a'.own.warnings ≠ a.own.warnings → g.again = true)) := by
  have hended : Tracks (g.ended a a') { a with log := a.log ++ [.called (.commitUpdate rectangles)] } :=
    ⟨h.width, h.height, fun hfull hwaits => (h.mask hfull hwaits).ended⟩
  cases hcommits with
  | idle hidle =>
    exact ⟨hended, fun _ hwaits => absurd (hidle.symm.trans hwaits) (by simp)⟩
  | unpainted hwaits hunpainted =>
    refine ⟨hended.kept (keeps_asked _), fun _ _ hover => ?_⟩
    exact absurd (hover.symm.trans ((keeps_asked _).deferred.trans hwaits)) (by simp)
  | retries hwaits hpainted hpart hmore =>
    have hasked := keeps_asked
      (retried { a with log := a.log ++ [.called (.commitUpdate rectangles)] })
    refine ⟨?_, fun _ _ hover => ?_⟩
    · suffices hcounted : Tracks _ (retried
          { a with log := a.log ++ [.called (.commitUpdate rectangles)] }) from hcounted.kept hasked
      refine ⟨h.width, h.height, fun hfull _ => ?_⟩
      have hmask := h.mask hfull hwaits
      refine ⟨hmask.fits, hmask.unpainted, fun hvoided => ?_, fun _ => ?_⟩
      · have hall := complete_of_not_pending (hmask.void hvoided).1
        exact absurd (hpart.symm.trans hall) (by simp)
      · -- The update fell short, and the whole screen is asked for.
        obtain ⟨es, hlog, hasks⟩ := asksForAll_asked
          (a := retried { a with log := a.log ++ [.called (.commitUpdate rectangles)] }) h.width h.height
        have hnew : (asked (retried { a with log := a.log ++ [.called (.commitUpdate rectangles)] })).log =
            a.log ++ .called (.commitUpdate rectangles) :: es := by
          rw [hlog]
          exact List.append_assoc _ _ _
        have hasks' : asksForAll a (.called (.commitUpdate rectangles) :: es) = true :=
          asksForAll_cons _ hasks
        show (g.again || g.misses a && asksForAll a _) = true
        rw [hnew, List.drop_left, hmask.misses hpart, hasks']
        simp
    · exact absurd (hover.symm.trans (hasked.deferred.trans hwaits)) (by simp)
  | fires hwaits hpainted hcomplete =>
    have hleft := hkeeps (completed { a with log := a.log ++ [.called (.commitUpdate rectangles)] })
    have hcompleted : Tracks (g.ended a (hooks.refreshed (completed
        { a with log := a.log ++ [.called (.commitUpdate rectangles)] })))
          (completed { a with log := a.log ++ [.called (.commitUpdate rectangles)] }) :=
      ⟨h.width, h.height, fun _ hwaits' => absurd hwaits' (by simp [completed])⟩
    refine ⟨hcompleted.kept hleft, fun hfull _ _ => ?_⟩
    have hmask := h.mask hfull hwaits
    have hwarnings : (hooks.refreshed (completed
        { a with log := a.log ++ [.called (.commitUpdate rectangles)] })).own.warnings =
          if a.own.fullscreen.complete then a.own.warnings
          else a.own.warnings ++ [a.own.fullscreen.describe] := hleft.warnings
    rw [hwarnings]
    by_cases hall : a.own.fullscreen.complete = true
    · rw [if_pos hall]
      exact ⟨fun _ => hmask.covered hall, fun hwarns => absurd rfl hwarns⟩
    · rw [if_neg hall]
      refine ⟨fun hsilent => absurd hsilent (by simp), fun _ => hmask.again ?_⟩
      have hoften : FullScreenReceived.maxRetries ≤ a.own.fullscreen.retries :=
        hcomplete.resolve_left hall
      unfold FullScreenReceived.maxRetries at hoften
      omega

end

section

variable (audience : Audience codecs) (library : Library) (imaging : Imaging)

/-- What a call does that completes nothing. -/
theorem completesCovered_of_waits {s : Coverage × State codecs} {act : Act}
    (h : s.2.own.deferred = true →
      (act.after (stageEnv audience library imaging) s.2).own.deferred = true) :
    CompletesCovered (stageEnv audience library imaging) s act :=
  fun _ hwaits hover => absurd (hover.symm.trans (h hwaits)) (by simp)

/-- Every call keeps what is tracked, and completes refreshes as it should. -/
theorem tracks_step {s : Coverage × State codecs} {act : Act} (h : Tracks s.1 s.2)
    (hempty : StaysEmpty s act) :
    CompletesCovered (stageEnv audience library imaging) s act ∧
      Tracks (Coverage.step (stageEnv audience library imaging) s act).1
        (Coverage.step (stageEnv audience library imaging) s act).2 := by
  obtain ⟨g, a⟩ := s
  cases act with
  | refresh incremental =>
    obtain ⟨es, hstate, -⟩ := state_refreshScreen incremental a
    refine ⟨completesCovered_of_waits audience library imaging fun _ => ?_, ?_⟩
    · rw [Act.after_refresh, hstate]
    · have htracks := tracks_refresh h incremental
      rw [hstate] at htracks
      unfold Coverage.step
      rw [Act.after_refresh, hstate]
      exact htracks
  | method callback =>
    -- The call is in the log before it runs.
    have hlogged : Tracks g { a with log := a.log ++ [.called callback] } :=
      ⟨h.width, h.height, h.mask⟩
    have hkept : ∀ {a'}, Keeps a a' → (Act.method callback).after
        (stageEnv audience library imaging) a = a' → Coverage.note
          (stageEnv audience library imaging) g a (.method callback) = g →
        CompletesCovered (stageEnv audience library imaging) (g, a) (.method callback) ∧
          Tracks (Coverage.step (stageEnv audience library imaging) (g, a) (.method callback)).1
            (Coverage.step (stageEnv audience library imaging) (g, a) (.method callback)).2 := by
      rintro a' hkeeps rfl hnote
      refine ⟨completesCovered_of_waits audience library imaging fun hwaits =>
        hkeeps.deferred.trans hwaits, ?_⟩
      show Tracks (Coverage.note (stageEnv audience library imaging) g a (.method callback)) _
      rw [hnote]
      exact h.kept hkeeps
    cases callback with
    | commitUpdate rectangles =>
      have hcommits := commitUpdate_spec audience.toHooks rectangles
        { a with log := a.log ++ [.called (.commitUpdate rectangles)] }
      obtain ⟨htracks, hcompletes⟩ := tracks_commitUpdate audience.toHooks audience.keeps_refreshed
        rectangles h hcommits
      exact ⟨hcompletes, htracks⟩
    | updateRectangle rect data pixelFormat =>
      have hworks := works_updateRectangle imaging ⟨rect, data, pixelFormat⟩
        { a with log := a.log ++ [.called (.updateRectangle rect data pixelFormat)] }
      exact ⟨completesCovered_of_waits audience library imaging fun hwaits =>
          hworks.deferred.trans hwaits,
        tracks_updateRectangle imaging ⟨rect, data, pixelFormat⟩ hlogged⟩
    | copyRectangle srcx srcy rect =>
      have hworks := works_copyRectangle srcx srcy rect
        { a with log := a.log ++ [.called (.copyRectangle srcx srcy rect)] }
      exact ⟨completesCovered_of_waits audience library imaging fun hwaits =>
          hworks.deferred.trans hwaits,
        tracks_copyRectangle hlogged srcx srcy rect⟩
    | updateDesktopSize width height =>
      have hworks := works_updateDesktopSize width height
        { a with log := a.log ++ [.called (.updateDesktopSize width height)] }
      exact ⟨completesCovered_of_waits audience library imaging fun hwaits =>
          hworks.deferred.trans hwaits,
        tracks_updateDesktopSize hlogged width height (hempty width height rfl)⟩
    | updateCursor rect image mask =>
      have hkeeps := stays_updateCursor imaging rect image mask
        { a with log := a.log ++ [.called (.updateCursor rect image mask)] }
      exact ⟨completesCovered_of_waits audience library imaging fun hwaits =>
          hkeeps.deferred.trans hwaits, hlogged.kept hkeeps⟩
    | updatePointerPos x y =>
      exact ⟨completesCovered_of_waits audience library imaging fun hwaits => hwaits,
        h.width, h.height, h.mask⟩
    | beginUpdate =>
      exact ⟨completesCovered_of_waits audience library imaging fun hwaits => hwaits, hlogged⟩
    | _ => exact hkept (stays_call audience library imaging _ rfl a) rfl rfl

/-- A refresh of the whole screen is completed on a covered framebuffer, or with a warning after the
screen was asked for again, in every run of a client in which a framebuffer that has had no size
meanwhile gets no area. -/
theorem refresh_covered {factory : Factory} {options : Options} {pixelFormat : Option PixelFormat}
    {encodings : Option (List ℤ)} {jpegQuality : Option ℕ}
    {c : RFBClient (Decoding codecs) Fields} {acts : List Act}
    (h : Session (stageEnv audience library imaging) (fun _ _ => ()) (fun _ _ => True) ()
      (build factory options pixelFormat encodings jpegQuality) () c)
    (hempty : Machine.Throughout (Coverage.step (stageEnv audience library imaging)) StaysEmpty
      ({}, c.attrs) acts) :
    Machine.Throughout (Coverage.step (stageEnv audience library imaging))
      (CompletesCovered (stageEnv audience library imaging)) ({}, c.attrs) acts := by
  have hstart : 0 < maxDesktopSize := by decide
  have hsize := h.size_lt audience library imaging rfl rfl hstart hstart
  refine hempty.imp (fun s => Tracks s.1 s.2) ⟨hsize.1, hsize.2, fun hfull => ?_⟩
    fun s act hs hact => tracks_step audience library imaging hs hact
  exact absurd hfull (by simp)

end

/-- A server that announces a framebuffer of no size. -/
def emptyServer : Bytes :=
  versionMessage (3, 3) ++ [0, 0, 0, 1] ++
    [0, 0, 0, 0, 32, 24, 0, 1, 0, 255, 0, 255, 0, 255, 0, 8, 16, 0, 0, 0, 0, 0, 0, 0]

/-- The client once a server has announced its framebuffer, after so many turns. -/
abbrev announcedBy (server : Bytes) (n : ℕ) : RFBClient (Decoding Decoders.sampleCodecs) Fields :=
  (turns idleStage (fun _ _ => ()) n
    ((), client ((deliver idleStage server).run (build {} {} none none none)))).2

theorem session_announcedBy (server : Bytes) (n : ℕ)
    (hready : ∀ i < n, ready (announcedBy server i) = true) :
    Session idleStage (fun _ _ => ()) (fun _ _ => True) () (build {} {} none none none) ()
      (announcedBy server n) :=
  (Session.delivered server .start rfl).turns n fun i hi => ⟨hready i hi, trivial⟩

/-- The pixel at the origin is painted, and the update ends. -/
def firstPixel : List Act :=
  [.method (.updateRectangle ⟨0, 0, 1, 1⟩ [255, 255, 255, 0] PixelFormat.rgbx8888),
    .method (.commitUpdate [⟨0, 0, 1, 1⟩])]

/-- It completes a refresh of a framebuffer of that pixel. -/
theorem refresh_covered_sample : Machine.Throughout (Coverage.step idleStage)
    (CompletesCovered idleStage) ({}, (announcedBy onePixelServer 3).attrs)
    (.refresh false :: firstPixel) :=
  refresh_covered idleAudience sampleLibrary sampleImaging
    (session_announcedBy onePixelServer 3 (by decide +kernel))
    ⟨fun _ _ h => by simp at h, fun _ _ h => by simp at h, fun _ _ h => by simp at h, trivial⟩

/-- A framebuffer of no size gets two pixels while a refresh of it waits, and one of them completes it. -/
theorem refresh_uncovered : ∃ c, Session idleStage (fun _ _ => ()) (fun _ _ => True) ()
      (build {} {} none none none) () c ∧
    ¬Machine.Throughout (Coverage.step idleStage) (CompletesCovered idleStage) ({}, c.attrs)
      (.refresh false :: .method (.updateDesktopSize 2 1) :: firstPixel) := by
  refine ⟨announcedBy emptyServer 3, session_announcedBy emptyServer 3 (by decide +kernel),
    fun h => ?_⟩
  obtain ⟨-, -, -, hcommit, -⟩ := h
  have hcovered := (hcommit (by decide +kernel) (by decide +kernel) (by decide +kernel)).1
    (by decide +kernel) 1 (by decide +kernel) 0 (by decide +kernel)
  exact absurd hcovered (by decide +kernel)

end VNCDoToolClient

end VncDoTool
