import VncDoTool.DoTool.Painting
import VncDoTool.DoTool.Turns

/-!
# The screen over a session

What becomes of `screen` and of the framebuffer's size while a server's bytes come in and an application
makes its requests.

* `VNCDoToolClient.Settles`: what recording a rectangle and ending an update leave alone.
* `VNCDoToolClient.Repaints`: what a turn does to the screen, with the methods that were called.
* `VNCDoToolClient.Session`: a run of deliveries, turns and acts of an application, with a note kept of
  it; `VNCDoToolClient.Session.invariant`: what every turn keeps holds over a session.
* `VNCDoToolClient.screen_within_limit`: how large the screen can grow.
-/

namespace VncDoTool

namespace VNCDoToolClient

open RFBClient

variable {codecs : Codecs}

/-! ## What follows a rectangle -/

/-- The end of an update, as the outside world sees it. -/
def Ending (e : Event) : Prop :=
  Event.updates e = false ∨ ∃ rectangles, e = .called (.commitUpdate rectangles)

/-- The framebuffer and the screen are as they were, and no method was called but to end an update. -/
structure Settles (a a' : State codecs) : Prop where
  width : a'.width = a.width
  height : a'.height = a.height
  screen : a'.own.screen = a.own.screen
  log : ∃ es, a'.log = a.log ++ es ∧ ∀ e ∈ es, Ending e

theorem Settles.refl (a : State codecs) : Settles a a := ⟨rfl, rfl, rfl, [], by simp, by simp⟩

theorem Settles.trans {a a' a'' : State codecs} (h : Settles a a') (h' : Settles a' a'') :
    Settles a a'' where
  width := h'.width.trans h.width
  height := h'.height.trans h.height
  screen := h'.screen.trans h.screen
  log := by
    obtain ⟨es, hlog, hes⟩ := h.log
    obtain ⟨es', hlog', hes'⟩ := h'.log
    refine ⟨es ++ es', by rw [hlog', hlog, List.append_assoc], fun e he => ?_⟩
    rcases List.mem_append.mp he with he | he
    · exact hes e he
    · exact hes' e he

theorem Keeps.settles {a a' : State codecs} (h : Keeps a a') : Settles a a' := by
  obtain ⟨es, hlog, hes⟩ := h.log
  exact ⟨h.width, h.height, h.screen, es, hlog, fun e he => .inl (hes e he)⟩

theorem settles_of_stays {α : Type} {m : Py (State codecs) α} (h : Stays m) :
    Effect.Does Settles m := h.mono fun _ _ hkeeps => hkeeps.settles

/-- What changes only the refresh that waits. -/
theorem settles_setFields {f : Fields → Fields} (h : ∀ s, (f s).screen = s.screen) :
    Effect.Does Settles (setFields f : Py (State codecs) Unit) :=
  fun a => ⟨rfl, rfl, h a.own, [], (List.append_nil _).symm, by simp⟩

section

variable (audience : Audience codecs) (library : Library) (imaging : Imaging)

theorem stays_framebufferUpdateRequest :
    Stays (framebufferUpdateRequest : Py (State codecs) Unit) := by
  unfold framebufferUpdateRequest
  exact stays_get_bind fun a => stays_bind (stays_encoded _) fun message => stays_write _ _

theorem settles_bind {α β : Type} {m : Py (State codecs) α} {f : α → Py (State codecs) β}
    (hm : Effect.Does Settles m) (hf : ∀ v, Effect.Does Settles (f v)) :
    Effect.Does Settles (m >>= f) := Effect.does_bind (fun _ _ _ h h' => h.trans h') hm hf

theorem settles_get_bind {α : Type} {f : State codecs → Py (State codecs) α}
    (h : ∀ a, Effect.Does Settles (f a)) : Effect.Does Settles (get >>= f) :=
  Effect.does_get_bind fun a => h a a

theorem settles_commitUpdate (rectangles : List Rect) :
    Effect.Does Settles (commitUpdate audience.toHooks rectangles) := by
  unfold commitUpdate
  refine settles_get_bind fun a => ?_
  split_ifs
  · exact settles_of_stays stays_framebufferUpdateRequest
  · refine settles_bind (settles_setFields fun _ => rfl) fun _ => ?_
    exact settles_of_stays stays_framebufferUpdateRequest
  · refine settles_bind (settles_setFields fun _ => rfl) fun _ => ?_
    exact fun a => (audience.keeps_refreshed a).settles
  · exact Settles.refl

theorem settles_conclude :
    Effect.Does Settles (conclude (stageEnv audience library imaging)) := by
  unfold conclude
  refine settles_get_bind fun a => ?_
  split_ifs
  · exact Settles.refl
  · refine settles_bind (fun a => ?_) fun _ => settles_commitUpdate audience _
    exact ⟨rfl, rfl, rfl, [.called (.commitUpdate _)], rfl, fun e he =>
      .inr ⟨_, List.mem_singleton.mp he⟩⟩

theorem settles_settle (rect : Rect) (changed : Bool) :
    Effect.Does Settles (settle (stageEnv audience library imaging) rect changed) := by
  cases changed with
  | true =>
    refine settles_bind (fun a => ?_) fun _ => settles_conclude audience library imaging
    exact ⟨rfl, rfl, rfl, [], (List.append_nil _).symm, by simp⟩
  | false => exact settles_conclude audience library imaging

/-- What follows a method that paints leaves the screen as the method has left it. -/
theorem settles_paint (method : RFBClient.Callback) (rect : Rect) (changed : Bool)
    (a : State codecs) :
    Settles (Effect.state (((stageEnv audience library imaging).call method).run a))
      (Effect.state ((paint (stageEnv audience library imaging) method rect changed).run a)) := by
  cases hcall : ((stageEnv audience library imaging).call method).run a with
  | ok u a₁ =>
    rw [state_paint_of_ok _ hcall]
    exact settles_settle audience library imaging rect changed a₁
  | error e a₁ =>
    rw [state_paint_of_error _ hcall]
    exact Settles.refl a₁

theorem settles_start (rectangles : ℕ) (a : State codecs) :
    ∃ es, (Effect.state ((start (stageEnv audience library imaging) rectangles).run a)).log =
        a.log ++ .called .beginUpdate :: es ∧ (∀ e ∈ es, Ending e) ∧
      Settles { a with
          rectangles := rectangles
          rectanglePos := []
          log := a.log ++ [.called .beginUpdate] }
        (Effect.state ((start (stageEnv audience library imaging) rectangles).run a)) := by
  have h := settles_conclude audience library imaging { a with
    rectangles := rectangles
    rectanglePos := []
    log := a.log ++ [.called .beginUpdate] }
  obtain ⟨es, hlog, hes⟩ := h.log
  refine ⟨es, ?_, hes, h⟩
  rw [List.append_assoc] at hlog
  exact hlog

end

/-! ## The methods that paint -/

theorem run_copyRectangle (srcx srcy : ℕ) (rect : Rect) (a : State codecs) :
    (copyRectangle srcx srcy rect).run a = .ok () (match a.own.screen with
      | none => a
      | some screen => { a with own := { a.own with
          screen := some (screen.paste (screen.crop srcx srcy rect.width rect.height) rect.x rect.y)
          fullscreen := a.own.fullscreen.paintRect rect } }) := by
  unfold copyRectangle
  rw [EStateM.run_bind, EStateM.run_get]
  cases hscreen : a.own.screen <;> simp only [hscreen] <;> rfl

/-- The screen in its new size. -/
def resized (width height : ℕ) : Option Canvas → Canvas
  | none => Canvas.new width height
  | some screen => (Canvas.new width height).paste screen 0 0

theorem run_updateDesktopSize (width height : ℕ) (a : State codecs) :
    (updateDesktopSize width height).run a =
      if width < maxDesktopSize ∧ height < maxDesktopSize then .ok () { a with
        width := width
        height := height
        own := { a.own with
          screen := some (resized width height a.own.screen)
          fullscreen :=
            if a.own.fullscreen.pending then .awaiting width height else a.own.fullscreen } }
      else .error ⟨.valueError, s!"({width}, {height})"⟩ a := by
  unfold updateDesktopSize
  by_cases hfits : width < maxDesktopSize ∧ height < maxDesktopSize
  · rw [if_neg (not_not.mpr hfits), if_pos hfits]
    rfl
  · rw [if_pos hfits, if_neg hfits]
    rfl

/-- What changes none of the attributes of the screen. -/
theorem stays_setFields {f : Fields → Fields}
    (h : ∀ s, (f s).screen = s.screen ∧ (f s).deferred = s.deferred ∧
      (f s).fullscreen = s.fullscreen ∧ (f s).warnings = s.warnings) :
    Stays (setFields f : Py (State codecs) Unit) :=
  fun a => Keeps.unseen ⟨rfl, rfl⟩ (h a.own) rfl rfl

theorem stays_updateCursor (imaging : Imaging) (rect : Rect) (image mask : Bytes) :
    Stays (updateCursor imaging rect image mask : Py (State codecs) Unit) := by
  unfold updateCursor
  refine stays_get_bind fun a => ?_
  split_ifs
  · exact stays_pure ()
  · exact stays_setFields fun _ => ⟨rfl, rfl, rfl, rfl⟩
  · refine stays_bind (stays_ofExcept _) fun cursor => ?_
    exact stays_setFields fun _ => ⟨rfl, rfl, rfl, rfl⟩

/-! ## What a turn does to the screen -/

/-- What a turn does to the framebuffer and the screen. It shows `es`, which tells the calls that were
made. -/
inductive Repaints (a a' : State codecs) (es : List Event) : Prop
  /-- Nothing; and a copy was called for only where there is no screen. -/
  | same (hsize : a'.width = a.width ∧ a'.height = a.height) (hscreen : a'.own.screen = a.own.screen)
      (hcalls : ∀ srcx srcy rect, Event.called (.copyRectangle srcx srcy rect) ∈ es →
        a.own.screen = none)
  | copies (screen : Canvas) (srcx srcy : ℕ) (rect : Rect) (hscreen : a.own.screen = some screen)
      (hinside : srcx + rect.width ≤ a.width ∧ srcy + rect.height ≤ a.height)
      (hsize : a'.width = a.width ∧ a'.height = a.height)
      (hnew : a'.own.screen =
        some (screen.paste (screen.crop srcx srcy rect.width rect.height) rect.x rect.y))
      (hcalls : ∀ srcx' srcy' rect', Event.called (.copyRectangle srcx' srcy' rect') ∈ es →
        srcx' = srcx ∧ srcy' = srcy ∧ rect' = rect)
  | resizes (hwidth : a'.width < maxDesktopSize) (hheight : a'.height < maxDesktopSize)
      (hnew : a'.own.screen = some (resized a'.width a'.height a.own.screen))
      (hcalls : ∀ srcx srcy rect, Event.called (.copyRectangle srcx srcy rect) ∉ es)
  | pastes (u : Update) (image : Canvas) (hdata : u.brings = true)
      (himage : image.width = u.rect.width ∧ image.height = u.rect.height)
      (hsize : a'.width = a.width ∧ a'.height = a.height)
      (hnew : a'.own.screen = some (grown (a.width, a.height) a.own.screen u.rect image))
      (hcalled : Event.called (.updateRectangle u.rect u.data u.pixelFormat) ∈ es)
      (hcalls : ∀ srcx srcy rect, Event.called (.copyRectangle srcx srcy rect) ∉ es)

/-- An end of an update is no copy. -/
theorem not_copy_of_ending {e : Event} (h : Ending e) (srcx srcy : ℕ) (rect : Rect) :
    e ≠ .called (.copyRectangle srcx srcy rect) := by
  rintro rfl
  rcases h with h | ⟨rectangles, h⟩
  · exact absurd h (by simp [Event.updates, Callback.paints])
  · exact absurd h (by simp)

section

variable (audience : Audience codecs) (library : Library) (imaging : Imaging) {a a' a₁ : State codecs}

/-- What the screen comes to around a method that does not paint on it. -/
theorem repaints_of_settles {es : List Event} (h : Settles a a') (hlog : a'.log = a.log ++ es) :
    Repaints a a' es := by
  obtain ⟨es', hlog', hes⟩ := h.log
  obtain rfl : es = es' := List.append_cancel_left (hlog.symm.trans hlog')
  refine .same ⟨h.width, h.height⟩ h.screen fun srcx srcy rect hmem => ?_
  exact absurd rfl (not_copy_of_ending (hes _ hmem) srcx srcy rect)

/-- What is shown around a call: the call, and ends of updates. -/
theorem shown_around {method : RFBClient.Callback} {a₂ : State codecs} (hbefore : Keeps a a₁)
    (hcall : ∃ es, a₂.log = a₁.log ++ [.called method] ++ es ∧ ∀ e ∈ es, Event.updates e = false)
    (hafter : Settles a₂ a') :
    ∃ es, a'.log = a.log ++ es ∧ Event.called method ∈ es ∧
      ∀ e ∈ es, e = .called method ∨ Ending e := by
  obtain ⟨es, hlog, hes⟩ := hbefore.log
  obtain ⟨es', hlog', hes'⟩ := hcall
  obtain ⟨es'', hlog'', hes''⟩ := hafter.log
  refine ⟨es ++ ([.called method] ++ (es' ++ es'')), ?_, by simp, fun e he => ?_⟩
  · rw [hlog'', hlog', hlog]
    simp only [List.append_assoc]
  · simp only [List.mem_append, List.mem_singleton] at he
    rcases he with he | he | he | he
    · exact .inr (.inl (hes e he))
    · exact .inl he
    · exact .inr (.inl (hes' e he))
    · exact .inr (hes'' e he)

/-- A call that keeps the screen, and is no copy. -/
theorem repaints_of_keeps {method : RFBClient.Callback} {a₂ : State codecs} (hbefore : Keeps a a₁)
    (hcopy : ∀ srcx srcy rect, method ≠ .copyRectangle srcx srcy rect)
    (hcall : Keeps { a₁ with log := a₁.log ++ [.called method] } a₂) (hafter : Settles a₂ a') :
    ∃ es, a'.log = a.log ++ es ∧ Repaints a a' es := by
  obtain ⟨es, hlog, hmem, hes⟩ := shown_around hbefore hcall.log hafter
  refine ⟨es, hlog, .same ⟨?_, ?_⟩ ?_ fun srcx srcy rect hmem' => ?_⟩
  · exact (hafter.width.trans hcall.width).trans hbefore.width
  · exact (hafter.height.trans hcall.height).trans hbefore.height
  · exact (hafter.screen.trans hcall.screen).trans hbefore.screen
  · rcases hes _ hmem' with heq | hending
    · exact absurd (Event.called.inj heq).symm (hcopy srcx srcy rect)
    · exact absurd rfl (not_copy_of_ending hending srcx srcy rect)

/-- A turn, as the screen sees it. -/
theorem repaints_of_beat (h : Beat (stageEnv audience library imaging) a a') :
    ∃ es, a'.log = a.log ++ es ∧ Repaints a a' es := by
  cases h with
  | keeps h =>
    obtain ⟨es, hlog, -⟩ := h.log
    exact ⟨es, hlog, repaints_of_settles h.settles hlog⟩
  | passes a₁ hbefore h =>
    have hsettles : Settles a a' := by
      rw [h]
      exact hbefore.settles.trans (settles_conclude audience library imaging a₁)
    obtain ⟨es, hlog, -⟩ := hsettles.log
    exact ⟨es, hlog, repaints_of_settles hsettles hlog⟩
  -- The start of an update calls no copy and leaves the screen.
  | begins a₁ rectangles hbefore h =>
    obtain ⟨es, hlog, hes⟩ := hbefore.log
    obtain ⟨es', hlog', hes', hsettles⟩ :=
      settles_start audience library imaging rectangles a₁
    rw [← h] at hlog' hsettles
    refine ⟨es ++ .called .beginUpdate :: es', by rw [hlog', hlog, List.append_assoc], ?_⟩
    refine .same ⟨hsettles.width.trans hbefore.width, hsettles.height.trans hbefore.height⟩
      (hsettles.screen.trans hbefore.screen) fun srcx srcy rect hmem => ?_
    rcases List.mem_append.mp hmem with hmem | hmem
    · exact absurd rfl (not_copy_of_ending (.inl (hes _ hmem)) srcx srcy rect)
    · have hmem' : Event.called (.copyRectangle srcx srcy rect) ∈ es' := by simpa using hmem
      exact absurd rfl (not_copy_of_ending (hes' _ hmem') srcx srcy rect)
  | draws a₁ method rect changed hbefore hdraws hafter =>
    have hsettles := (settles_paint audience library imaging method rect changed a₁).trans
      hafter.settles
    rw [run_call] at hsettles
    cases hdraws with
    -- Without a screen there is nothing to copy.
    | copy srcx srcy rect' hwidth hheight =>
      rw [show (stageEnv audience library imaging).callback (.copyRectangle srcx srcy rect') =
        copyRectangle srcx srcy rect' from rfl, run_copyRectangle] at hsettles
      obtain ⟨es, hlog, hmem, hes⟩ := shown_around hbefore
        ⟨[], by cases a₁.own.screen <;> exact (List.append_nil _).symm, by simp⟩ hsettles
      refine ⟨es, hlog, ?_⟩
      cases hscreen : a₁.own.screen with
      | none =>
        simp only [hscreen] at hsettles
        refine .same ⟨hsettles.width.trans hbefore.width, hsettles.height.trans hbefore.height⟩
          (hsettles.screen.trans hbefore.screen) fun _ _ _ _ => ?_
        exact hbefore.screen.symm.trans hscreen
      | some screen =>
        simp only [hscreen] at hsettles
        refine .copies screen srcx srcy rect' (hbefore.screen.symm.trans hscreen)
          ⟨hbefore.width ▸ hwidth, hbefore.height ▸ hheight⟩
          ⟨hsettles.width.trans hbefore.width, hsettles.height.trans hbefore.height⟩ hsettles.screen ?_
        intro srcx' srcy' rect'' hmem'
        rcases hes _ hmem' with heq | hending
        · simpa using heq
        · exact absurd rfl (not_copy_of_ending hending srcx' srcy' rect'')
    | cursor rect' image mask =>
      exact repaints_of_keeps hbefore (fun _ _ _ h => by cases h)
        (stays_updateCursor imaging rect' image mask _) hsettles
    | pointer x y =>
      have hmoves : Stays (setFields fun s => { s with x := x, y := y } : Py (State codecs) Unit) :=
        stays_setFields fun _ => ⟨rfl, rfl, rfl, rfl⟩
      exact repaints_of_keeps hbefore (fun _ _ _ h => by cases h) (hmoves _) hsettles
    | desktop width height =>
      rw [show (stageEnv audience library imaging).callback (.updateDesktopSize width height) =
        updateDesktopSize width height from rfl, run_updateDesktopSize] at hsettles
      obtain ⟨es, hlog, hmem, hes⟩ := shown_around hbefore
        ⟨[], by split_ifs <;> exact (List.append_nil _).symm, by simp⟩ hsettles
      -- Nothing that follows a rectangle is a copy.
      have hcalls : ∀ srcx srcy rect, Event.called (.copyRectangle srcx srcy rect) ∉ es := by
        intro srcx srcy rect' hmem'
        rcases hes _ hmem' with heq | hending
        · exact absurd heq (by simp)
        · exact absurd rfl (not_copy_of_ending hending srcx srcy rect')
      refine ⟨es, hlog, ?_⟩
      -- A size that is too large is refused, and changes nothing.
      by_cases hfits : width < maxDesktopSize ∧ height < maxDesktopSize
      · rw [if_pos hfits] at hsettles
        refine .resizes (hsettles.width ▸ hfits.1) (hsettles.height ▸ hfits.2) ?_ hcalls
        rw [hsettles.screen, hsettles.width, hsettles.height, ← hbefore.screen]
        rfl
      · rw [if_neg hfits] at hsettles
        exact .same ⟨hsettles.width.trans hbefore.width, hsettles.height.trans hbefore.height⟩
          (hsettles.screen.trans hbefore.screen) fun srcx srcy rect' hmem' =>
            absurd hmem' (hcalls srcx srcy rect')
  | pastes a₁ rect data pixelFormat hlength hbefore h =>
    have hsettles := settles_paint audience library imaging (.updateRectangle rect data pixelFormat)
      rect true a₁
    rw [← h, run_call] at hsettles
    have hcall := updateRectangle_spec imaging ⟨rect, data, pixelFormat⟩
      { a₁ with log := a₁.log ++ [.called (.updateRectangle rect data pixelFormat)] }
    rw [show (stageEnv audience library imaging).callback (.updateRectangle rect data pixelFormat) =
      updateRectangle imaging rect data pixelFormat from rfl] at hsettles
    generalize (updateRectangle imaging rect data pixelFormat).run _ = outcome at hcall hsettles
    obtain ⟨es, hlog, hmem, hes⟩ := shown_around hbefore
      ⟨[], by cases hcall <;> exact (List.append_nil _).symm, by simp⟩ hsettles
    have hcalls : ∀ srcx srcy rect, Event.called (.copyRectangle srcx srcy rect) ∉ es := by
      intro srcx srcy rect' hmem'
      rcases hes _ hmem' with heq | hending
      · exact absurd heq (by simp)
      · exact absurd rfl (not_copy_of_ending hending srcx srcy rect')
    refine ⟨es, hlog, ?_⟩
    have hsame : a₁.own.screen = a.own.screen := hbefore.screen
    cases hcall with
    | nothing hdata =>
      exact .same ⟨hsettles.width.trans hbefore.width, hsettles.height.trans hbefore.height⟩
        (hsettles.screen.trans hsame) fun srcx srcy rect' hmem' => absurd hmem' (hcalls srcx srcy rect')
    | raised e format mode hdata =>
      exact .same ⟨hsettles.width.trans hbefore.width, hsettles.height.trans hbefore.height⟩
        (hsettles.screen.trans hsame) fun srcx srcy rect' hmem' => absurd hmem' (hcalls srcx srcy rect')
    | painted format mode image hdata hwidth hheight _ =>
      refine .pastes ⟨rect, data, pixelFormat⟩ image hdata ⟨hwidth, hheight⟩
        ⟨hsettles.width.trans hbefore.width, hsettles.height.trans hbefore.height⟩ ?_ hmem hcalls
      rw [hsettles.screen, ← hbefore.width, ← hbefore.height, ← hsame]
      rfl

end

/-! ## Sessions -/

/-- What an application does to a client: it sends messages, and asks for refreshes. It never assigns
`screen`. -/
def Acts (a a' : State codecs) : Prop := Attends a a' ∧ a'.own.screen = a.own.screen

/-- The client a turn leaves behind. -/
abbrev next (env : Env (Decoding codecs) Fields) (c : RFBClient (Decoding codecs) Fields) :
    RFBClient (Decoding codecs) Fields := client ((turn env).run c)

/-- What a turn shows the outside world. -/
def made (env : Env (Decoding codecs) Fields) (c : RFBClient (Decoding codecs) Fields) : List Event :=
  (next env c).attrs.log.drop c.attrs.log.length

/-- A run of a client from `c₀` on in which every turn is `good`. Bytes come in at any time, an
application acts between any two turns, and what is noted of the run begins with `g₀`. -/
inductive Session {G : Type} (env : Env (Decoding codecs) Fields)
    (note : G → RFBClient (Decoding codecs) Fields → G)
    (good : G → RFBClient (Decoding codecs) Fields → Prop) (g₀ : G)
    (c₀ : RFBClient (Decoding codecs) Fields) : G → RFBClient (Decoding codecs) Fields → Prop
  | start : Session env note good g₀ c₀ g₀ c₀
  | delivered {g : G} {c : RFBClient (Decoding codecs) Fields} (data : Bytes)
      (h : Session env note good g₀ c₀ g c) (hlive : c.aborted = false) :
      Session env note good g₀ c₀ g (client ((deliver env data).run c))
  | turned {g : G} {c : RFBClient (Decoding codecs) Fields} (h : Session env note good g₀ c₀ g c)
      (hready : ready c = true) (hgood : good g c) :
      Session env note good g₀ c₀ (note g c) (next env c)
  | acted {g : G} {c : RFBClient (Decoding codecs) Fields} {a' : State codecs}
      (h : Session env note good g₀ c₀ g c) (hacts : Acts c.attrs a') :
      Session env note good g₀ c₀ g { c with attrs := a' }

/-- What is noted, and the client, after so many turns. -/
def turns {G : Type} (env : Env (Decoding codecs) Fields)
    (note : G → RFBClient (Decoding codecs) Fields → G) :
    ℕ → G × RFBClient (Decoding codecs) Fields → G × RFBClient (Decoding codecs) Fields
  | 0, p => p
  | n + 1, p => (note (turns env note n p).1 (turns env note n p).2, next env (turns env note n p).2)

/-- So many turns in a row. -/
theorem Session.turns {G : Type} {env : Env (Decoding codecs) Fields}
    {note : G → RFBClient (Decoding codecs) Fields → G}
    {good : G → RFBClient (Decoding codecs) Fields → Prop} {g₀ g : G}
    {c₀ c : RFBClient (Decoding codecs) Fields} (h : Session env note good g₀ c₀ g c) (n : ℕ)
    (hturn : ∀ i < n, ready (turns env note i (g, c)).2 = true ∧
      good (turns env note i (g, c)).1 (turns env note i (g, c)).2) :
    Session env note good g₀ c₀ (turns env note n (g, c)).1 (turns env note n (g, c)).2 := by
  induction n with
  | zero => exact h
  | succ n ih =>
    obtain ⟨hready, hgood⟩ := hturn n (Nat.lt_succ_self n)
    exact .turned (ih fun i hi => hturn i (Nat.lt_succ_of_lt hi)) hready hgood

section

variable (audience : Audience codecs) (library : Library) (imaging : Imaging)
  {c : RFBClient (Decoding codecs) Fields}

theorem keeps_extend (c : RFBClient (Decoding codecs) Fields) (data : Bytes) :
    Keeps c.attrs (extend c data).attrs := .unseen ⟨rfl, rfl⟩ ⟨rfl, rfl, rfl, rfl⟩ rfl rfl

theorem waits_deliver (data : Bytes) (htuned : TunedAt (stageEnv audience library imaging) c)
    (hstarting : Starting c) :
    Waits (stageEnv audience library imaging) c
      (client ((deliver (stageEnv audience library imaging) data).run c)) := by
  cases hphase : c.phase with
  | initial =>
    rw [run_deliver_of_initial _ hphase, run_handleInitial]
    split_ifs
    · rw [run_answerHeader]
      cases negotiate (announced ((extend c data).packet.take 12)) with
      | none => exact .same (keeps_extend c data) rfl htuned hstarting
      | some version =>
        have hkeeps : Keeps c.attrs
            (greeted (extend c data) (announced ((extend c data).packet.take 12)) version).attrs :=
          (keeps_extend c data).trans ((Keeps.emit _ rfl).trans
            (.unseen ⟨rfl, rfl⟩ ⟨rfl, rfl, rfl, rfl⟩ rfl rfl))
        refine ⟨hkeeps, fun e he => ?_, fun e he => ?_⟩
        · obtain rfl := Phase.expecting.inj he
          split_ifs <;> trivial
        · obtain rfl := Phase.expecting.inj he
          split_ifs <;> rfl
    · exact .same (keeps_extend c data) rfl htuned hstarting
    · obtain ⟨hkeeps, hsame⟩ := keeps_abortConnection audience library imaging
        s!"invalid initial server response bytearray({PyText.repr ((extend c data).packet.take 12)})"
        (extend c data)
      exact .same ((keeps_extend c data).trans hkeeps) hsame htuned hstarting
  | expecting e =>
    rw [run_deliver_of_expecting _ hphase]
    exact .same (keeps_extend c data) rfl htuned hstarting

theorem plays_deliver (data : Bytes) (htuned : TunedAt (stageEnv audience library imaging) c)
    (hstarted : Started c) :
    client ((deliver (stageEnv audience library imaging) data).run c) = extend c data ∧
      TunedAt (stageEnv audience library imaging) (extend c data) ∧ Started (extend c data) := by
  obtain ⟨e, hphase, hstarting⟩ := hstarted
  rw [run_deliver_of_expecting _ hphase]
  exact ⟨rfl, htuned, e, hphase, hstarting⟩

variable {G : Type} {note : G → RFBClient (Decoding codecs) Fields → G}
  {good : G → RFBClient (Decoding codecs) Fields → Prop} {g₀ g : G}
  {c₀ : RFBClient (Decoding codecs) Fields}

/-- Before the server announces its framebuffer there is no screen. From then on an invariant holds
that the announcement establishes and that turns, acts and what leaves the screen alone keep. -/
theorem Session.invariant (I : G → State codecs → Prop)
    (hannounced : ∀ (g : G) (a : State codecs) (width height : ℕ) (pixelFormat : PixelFormat),
      a.own.screen = none → width < 0x10000 → height < 0x10000 → I g { a with
        width := width
        height := height
        pixelFormat := pixelFormat })
    (hkept : ∀ g a a', I g a → Keeps a a' → I g a')
    (hacted : ∀ g a a', I g a → Acts a a' → I g a')
    (hturned : ∀ g c, I g c.attrs → good g c → Started c → ready c = true →
      Beat (stageEnv audience library imaging) c.attrs
        (next (stageEnv audience library imaging) c).attrs →
      I (note g c) (next (stageEnv audience library imaging) c).attrs)
    (hphase : c₀.phase = .initial) (hscreen : c₀.attrs.own.screen = none)
    (h : Session (stageEnv audience library imaging) note good g₀ c₀ g c) :
    TunedAt (stageEnv audience library imaging) c ∧
      (Starting c ∧ c.attrs.own.screen = none ∨ Started c ∧ I g c.attrs) := by
  induction h with
  | start =>
    exact ⟨fun e he => absurd (hphase.symm.trans he) (by simp),
      .inl ⟨fun e he => absurd (hphase.symm.trans he) (by simp), hscreen⟩⟩
  -- Before ServerInit there is no screen, and bytes that come in make none.
  | delivered data _ _ ih =>
    rcases ih.2 with ⟨hstarting, hnone⟩ | ⟨hstarted, hI⟩
    · have hwaits := waits_deliver audience library imaging data ih.1 hstarting
      exact ⟨hwaits.tuned, .inl ⟨hwaits.starting, hwaits.keeps.screen.trans hnone⟩⟩
    · obtain ⟨hrun, htuned, hstarted⟩ := plays_deliver audience library imaging data ih.1 hstarted
      rw [hrun]
      exact ⟨htuned, .inr ⟨hstarted, hkept _ _ _ hI (keeps_extend _ data)⟩⟩
  | turned _ hready hgood ih =>
    rcases ih.2 with ⟨hstarting, hnone⟩ | ⟨hstarted, hI⟩
    · rcases turn_starting audience library imaging ih.1 hstarting hready with hwaits | hannounces
      · exact ⟨hwaits.tuned, .inl ⟨hwaits.starting, hwaits.keeps.screen.trans hnone⟩⟩
      · obtain ⟨width, height, pixelFormat, hwidth, hheight, hattrs⟩ := hannounces.attrs
        obtain ⟨namelen, hname⟩ := hannounces.phase
        refine ⟨fun e he => ?_, .inr ⟨⟨.serverName namelen, hname, rfl⟩, ?_⟩⟩
        · obtain rfl := Phase.expecting.inj (hname.symm.trans he)
          trivial
        · rw [hattrs]
          exact hannounced _ _ width height pixelFormat hnone hwidth hheight
    · have hplays := turn_started audience library imaging ih.1 hstarted hready
      exact ⟨hplays.tuned, .inr ⟨hplays.started, hturned _ _ hI hgood hstarted hready hplays.beat⟩⟩
  | acted _ hacts ih =>
    refine ⟨ih.1, ?_⟩
    rcases ih.2 with ⟨hstarting, hnone⟩ | ⟨hstarted, hI⟩
    · exact .inl ⟨hstarting, hacts.2.trans hnone⟩
    · exact .inr ⟨hstarted, hacted _ _ _ hI hacts⟩

/-- Every client of a session has announced its framebuffer, or has not. -/
theorem Session.stage (hphase : c₀.phase = .initial) (hscreen : c₀.attrs.own.screen = none)
    (h : Session (stageEnv audience library imaging) note good g₀ c₀ g c) :
    TunedAt (stageEnv audience library imaging) c ∧ (Starting c ∨ Started c) := by
  obtain ⟨htuned, hstage⟩ := h.invariant audience library imaging (fun _ _ => True)
    (fun _ _ _ _ _ _ _ _ => trivial) (fun _ _ _ _ _ => trivial) (fun _ _ _ _ _ => trivial)
    (fun _ _ _ _ _ _ _ => trivial) hphase hscreen
  exact ⟨htuned, hstage.imp And.left And.left⟩

/-- What every turn of a session comes to. -/
theorem Session.turn_cases (hphase : c₀.phase = .initial) (hscreen : c₀.attrs.own.screen = none)
    (h : Session (stageEnv audience library imaging) note good g₀ c₀ g c) (hready : ready c = true) :
    Announces c (next (stageEnv audience library imaging) c) ∨
      Beat (stageEnv audience library imaging) c.attrs
        (next (stageEnv audience library imaging) c).attrs := by
  obtain ⟨htuned, hstarting | hstarted⟩ := h.stage audience library imaging hphase hscreen
  · rcases turn_starting audience library imaging htuned hstarting hready with hwaits | hannounces
    · exact .inr (.keeps hwaits.keeps)
    · exact .inl hannounces
  · exact .inr (turn_started audience library imaging htuned hstarted hready).beat

/-- Bytes that come in leave the screen alone. -/
theorem Session.keeps_deliver (hphase : c₀.phase = .initial) (hscreen : c₀.attrs.own.screen = none)
    (h : Session (stageEnv audience library imaging) note good g₀ c₀ g c) (data : Bytes) :
    Keeps c.attrs (client ((deliver (stageEnv audience library imaging) data).run c)).attrs := by
  obtain ⟨htuned, hstarting | hstarted⟩ := h.stage audience library imaging hphase hscreen
  · exact (waits_deliver audience library imaging data htuned hstarting).keeps
  · rw [(plays_deliver audience library imaging data htuned hstarted).1]
    exact keeps_extend c data

/-- The framebuffer is as large as a server can announce. -/
theorem Session.size_lt (hphase : c₀.phase = .initial) (hscreen : c₀.attrs.own.screen = none)
    (hwidth : c₀.attrs.width < maxDesktopSize) (hheight : c₀.attrs.height < maxDesktopSize)
    (h : Session (stageEnv audience library imaging) note good g₀ c₀ g c) :
    c.attrs.width < maxDesktopSize ∧ c.attrs.height < maxDesktopSize := by
  induction h with
  | start => exact ⟨hwidth, hheight⟩
  | delivered data h _ ih =>
    have hkeeps := h.keeps_deliver audience library imaging hphase hscreen data
    rw [hkeeps.width, hkeeps.height]
    exact ih
  | turned h hready _ ih =>
    rcases h.turn_cases audience library imaging hphase hscreen hready with hannounces | hbeat
    · obtain ⟨width, height, pixelFormat, hwidth, hheight, hattrs⟩ := hannounces.attrs
      rw [hattrs]
      exact ⟨hwidth, hheight⟩
    · obtain ⟨es, -, hrepaints⟩ := repaints_of_beat audience library imaging hbeat
      cases hrepaints with
      | same hsize _ _ => exact ⟨hsize.1 ▸ ih.1, hsize.2 ▸ ih.2⟩
      | copies _ _ _ _ _ _ hsize _ _ => exact ⟨hsize.1 ▸ ih.1, hsize.2 ▸ ih.2⟩
      | resizes hwidth hheight _ _ => exact ⟨hwidth, hheight⟩
      | pastes _ _ _ _ hsize _ _ _ => exact ⟨hsize.1 ▸ ih.1, hsize.2 ▸ ih.2⟩
  | acted h hacts ih =>
    obtain ⟨⟨own, decoding, pixelFormat, es, rfl, -, -⟩, -⟩ := hacts
    exact ih

end

/-! ## How large the screen grows -/

/-- The framebuffer and the screen are smaller than the largest desktop. -/
structure WithinLimit (a : State codecs) : Prop where
  width : a.width < maxDesktopSize
  height : a.height < maxDesktopSize
  screen : ∀ s, a.own.screen = some s → s.width < maxDesktopSize ∧ s.height < maxDesktopSize

/-- No rectangle that the turn pastes onto an existing screen reaches past the largest desktop. -/
def PastesWithin (env : Env (Decoding codecs) Fields) (c : RFBClient (Decoding codecs) Fields) : Prop :=
  ∀ u : Update, Event.called (.updateRectangle u.rect u.data u.pixelFormat) ∈ made env c →
    u.brings = true → c.attrs.own.screen ≠ none →
      u.rect.x + u.rect.width < maxDesktopSize ∧ u.rect.y + u.rect.height < maxDesktopSize

section

variable (audience : Audience codecs) (library : Library) (imaging : Imaging)
  {c : RFBClient (Decoding codecs) Fields}

theorem made_eq {a a' : State codecs} {es : List Event} (h : a'.log = a.log ++ es) :
    a'.log.drop a.log.length = es := by
  rw [h, List.drop_left]

/-- The screen in a new size has that size. -/
theorem size_resized (width height : ℕ) (screen : Option Canvas) :
    (resized width height screen).width = width ∧ (resized width height screen).height = height := by
  cases screen <;> exact ⟨rfl, rfl⟩

theorem withinLimit_turned (hwithin : WithinLimit c.attrs)
    (hgood : PastesWithin (stageEnv audience library imaging) c)
    (hbeat : Beat (stageEnv audience library imaging) c.attrs
      (next (stageEnv audience library imaging) c).attrs) :
    WithinLimit (next (stageEnv audience library imaging) c).attrs := by
  obtain ⟨es, hlog, hrepaints⟩ := repaints_of_beat audience library imaging hbeat
  have hmade : made (stageEnv audience library imaging) c = es := made_eq hlog
  cases hrepaints with
  | same hsize hscreen hcalls =>
    exact ⟨hsize.1 ▸ hwithin.width, hsize.2 ▸ hwithin.height, hscreen ▸ hwithin.screen⟩
  | copies screen srcx srcy rect hscreen hinside hsize hnew hcalls =>
    refine ⟨hsize.1 ▸ hwithin.width, hsize.2 ▸ hwithin.height, fun s hs => ?_⟩
    obtain rfl := Option.some.inj (hnew.symm.trans hs)
    exact hwithin.screen screen hscreen
  | resizes hwidth hheight hnew hcalls =>
    refine ⟨hwidth, hheight, fun s hs => ?_⟩
    obtain rfl := Option.some.inj (hnew.symm.trans hs)
    obtain ⟨hw, hh⟩ := size_resized (next (stageEnv audience library imaging) c).attrs.width
      (next (stageEnv audience library imaging) c).attrs.height c.attrs.own.screen
    rw [hw, hh]
    exact ⟨hwidth, hheight⟩
  | pastes u image hdata himage hsize hnew hcalled hcalls =>
    refine ⟨hsize.1 ▸ hwithin.width, hsize.2 ▸ hwithin.height, fun s hs => ?_⟩
    obtain rfl := Option.some.inj (hnew.symm.trans hs)
    cases hscreen : c.attrs.own.screen with
    | none => exact ⟨hwithin.width, hwithin.height⟩
    | some screen =>
      obtain ⟨hw, hh, -⟩ := grown_some (c.attrs.width, c.attrs.height) screen himage.1 himage.2
      have hfits := hgood u (hmade.symm ▸ hcalled) hdata (by simp [hscreen])
      rw [hw, hh]
      exact ⟨max_lt hfits.1 (hwithin.screen screen hscreen).1,
        max_lt hfits.2 (hwithin.screen screen hscreen).2⟩

/-- Each side of the screen stays below the limit in every session in which no rectangle is pasted past
it. -/
theorem screen_within_limit {factory : Factory} {options : Options} {pixelFormat : Option PixelFormat}
    {encodings : Option (List ℤ)} {jpegQuality : Option ℕ}
    (h : Session (stageEnv audience library imaging) (fun _ _ => ())
      (fun _ c => PastesWithin (stageEnv audience library imaging) c) ()
      (build factory options pixelFormat encodings jpegQuality) () c) :
    ∀ s, c.attrs.own.screen = some s → s.width < maxDesktopSize ∧ s.height < maxDesktopSize := by
  have hsession := h.invariant audience library imaging (fun _ a => WithinLimit a)
    (fun _ a width height pixelFormat hnone hwidth hheight =>
      ⟨hwidth, hheight, fun s hs => absurd (hnone.symm.trans hs) (by simp)⟩)
    (fun _ a a' hwithin hkeeps =>
      ⟨hkeeps.width ▸ hwithin.width, hkeeps.height ▸ hwithin.height, hkeeps.screen ▸ hwithin.screen⟩)
    (fun _ a a' hwithin hacts => by
      obtain ⟨⟨own, decoding, pixelFormat, es, rfl, -, -⟩, hscreen⟩ := hacts
      exact ⟨hwithin.width, hwithin.height, fun s hs => hwithin.screen s (hscreen.symm.trans hs)⟩)
    (fun _ c hwithin hgood _ _ hbeat => withinLimit_turned audience library imaging hwithin hgood hbeat)
    rfl rfl
  rcases hsession.2 with ⟨-, hnone⟩ | ⟨-, hwithin⟩
  · exact fun s hs => absurd (hnone.symm.trans hs) (by simp)
  · exact hwithin.screen

end

/-- An audience that makes nothing of a report. -/
def idleAudience : Audience Decoders.sampleCodecs where
  report _ := pure ()
  refreshed a := a
  stays_report _ := stays_pure ()
  keeps_refreshed := Keeps.refl

/-- A client under it. -/
abbrev idleStage : Env (Decoding Decoders.sampleCodecs) Fields :=
  stageEnv idleAudience sampleLibrary sampleImaging

/-- A server that announces one pixel. -/
def onePixelServer : Bytes :=
  versionMessage (3, 3) ++ [0, 0, 0, 1] ++
    [0, 1, 0, 1, 32, 24, 0, 1, 0, 255, 0, 255, 0, 255, 0, 8, 16, 0, 0, 0, 0, 0, 0, 0]

/-- A rectangle of one white pixel, Raw. -/
def rawPixel (x : UInt8 × UInt8) : Bytes :=
  [x.1, x.2, 0, 0, 0, 1, 0, 1, 0, 0, 0, 0] ++ [255, 255, 255, 0]

/-- That server goes on to send the pixel, and one in another column. -/
def twoColumns (x : UInt8 × UInt8) : Bytes :=
  onePixelServer ++ [0, 0, 0, 2] ++ rawPixel (0, 0) ++ rawPixel x

/-- The client once these bytes have come in, and so many turns later. -/
abbrev afterColumns (x : UInt8 × UInt8) (n : ℕ) : RFBClient (Decoding Decoders.sampleCodecs) Fields :=
  (turns idleStage (fun _ _ => ()) n
    ((), client ((deliver idleStage (twoColumns x)).run (build {} {} none none none)))).2

theorem session_twoColumns
    {good : Unit → RFBClient (Decoding Decoders.sampleCodecs) Fields → Prop} (x : UInt8 × UInt8)
    (n : ℕ) (hgood : ∀ i < n, ready (afterColumns x i) = true ∧ good () (afterColumns x i)) :
    Session idleStage (fun _ _ => ()) good () (build {} {} none none none) () (afterColumns x n) :=
  (Session.delivered (twoColumns x) .start rfl).turns n hgood

/-- The call pastes inside the largest desktop, if it pastes. -/
def fitsDesktop : Event → Bool
  | .called (.updateRectangle rect _ _) =>
    rect.x + rect.width < maxDesktopSize ∧ rect.y + rect.height < maxDesktopSize
  | _ => true

/-- The first pixel makes the screen, and the one in the next column is pasted onto it. -/
theorem screen_within_limit_sample : ∃ screen s, (afterColumns (0, 1) 8).attrs.own.screen = some screen ∧
    (afterColumns (0, 1) 9).attrs.own.screen = some s ∧ screen.width = 1 ∧ s.width = 2 ∧
    s.width < maxDesktopSize ∧ s.height < maxDesktopSize := by
  have hready : ∀ i < 9, ready (afterColumns (0, 1) i) = true := by decide +kernel
  have hfits : ∀ i < 9, (made idleStage (afterColumns (0, 1) i)).all fitsDesktop = true := by
    decide +kernel
  have hbefore : (afterColumns (0, 1) 8).attrs.own.screen.map Canvas.width = some 1 := by decide +kernel
  have hafter : (afterColumns (0, 1) 9).attrs.own.screen.map Canvas.width = some 2 := by decide +kernel
  obtain ⟨screen, hscreen, hone⟩ := Option.map_eq_some_iff.mp hbefore
  obtain ⟨s, hs, htwo⟩ := Option.map_eq_some_iff.mp hafter
  refine ⟨screen, s, hscreen, hs, hone, htwo, ?_⟩
  refine screen_within_limit idleAudience sampleLibrary sampleImaging
    (session_twoColumns (0, 1) 9 fun i hi => ⟨hready i hi, fun u hu _ _ => ?_⟩) s hs
  have hcall : fitsDesktop (.called (.updateRectangle u.rect u.data u.pixelFormat)) = true :=
    List.all_eq_true.mp (hfits i hi) _ hu
  exact of_decide_eq_true hcall

/-- One in the last column there can be makes the screen as wide as the limit. -/
theorem screen_past_limit : ∃ c, Session idleStage (fun _ _ => ()) (fun _ _ => True) ()
      (build {} {} none none none) () c ∧
    ∃ s, c.attrs.own.screen = some s ∧ ¬(s.width < maxDesktopSize ∧ s.height < maxDesktopSize) := by
  have hready : ∀ i < 9, ready (afterColumns (255, 255) i) = true := by decide +kernel
  have hwidth : (afterColumns (255, 255) 9).attrs.own.screen.map Canvas.width = some 65536 := by
    decide +kernel
  obtain ⟨s, hs, hlimit⟩ := Option.map_eq_some_iff.mp hwidth
  refine ⟨afterColumns (255, 255) 9, session_twoColumns (255, 255) 9 fun i hi => ⟨hready i hi, trivial⟩,
    s, hs, fun hfits => ?_⟩
  exact absurd hfits.1 (by rw [hlimit]; decide)

end VNCDoToolClient

end VncDoTool
