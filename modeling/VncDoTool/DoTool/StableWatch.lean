import Mathlib.Data.Rat.Defs
import VncDoTool.Lib.Fallible
import VncDoTool.DoTool.Coverage

/-!
# Waiting for a stable screen

`_StableWatch` of `client.py`, with the rendering of the screen it compares.

* `VNCDoToolClient.requireOnScreen`, `VNCDoToolClient.render`: a picture of the screen or of a region.
* `VNCDoToolClient.StableWatch`: the attributes of a watch; `VNCDoToolClient.Watched`: a client under one.
* `VNCDoToolClient.stable`: `stableScreen` and `stableRegion`.
* `VNCDoToolClient.Moment`: what happens while a watch waits: calls of the client's methods, time that
  passes, and the reactor running the timer.
-/

namespace VncDoTool

namespace VNCDoToolClient

open RFBClient

variable {codecs : Codecs}

/-! ## Rendering -/

/-- A region of the screen, as a command gives it. -/
structure Region : Type where
  x : ℤ
  y : ℤ
  width : ℤ
  height : ℤ
  deriving DecidableEq, Repr

/-- The size a region has to fit in. -/
def displaySize (a : State codecs) : ℕ × ℕ :=
  match a.own.screen with
  | some screen => (screen.width, screen.height)
  | none => (a.width, a.height)

/-- The region reaches past the edges of a display. -/
def Region.leaves (region : Region) (size : ℕ × ℕ) : Prop :=
  region.x < 0 ∨ region.y < 0 ∨ (size.1 : ℤ) < region.x + region.width ∨
    (size.2 : ℤ) < region.y + region.height

instance (region : Region) (size : ℕ × ℕ) : Decidable (region.leaves size) :=
  inferInstanceAs (Decidable (_ ∨ _))

/-- `_requireOnScreen`. -/
def requireOnScreen (a : State codecs) (region : Region) : Except PyErr Unit :=
  if region.leaves (displaySize a) then
    .error ⟨.regionError, s!"region ({region.x}, {region.y}, {region.x + region.width}, " ++
      s!"{region.y + region.height}) is not inside the {(displaySize a).1}x{(displaySize a).2} screen"⟩
  else .ok ()

/-- `screen.crop(box) if box else screen.copy()`. -/
def cropped (screen : Canvas) : Option Region → Except PyErr Canvas
  | none => .ok screen
  | some region =>
    if region.width < 0 then .error ⟨.valueError, "Coordinate 'right' is less than 'left'"⟩
    else if region.height < 0 then .error ⟨.valueError, "Coordinate 'lower' is less than 'upper'"⟩
    else .ok (screen.crop region.x.toNat region.y.toNat region.width.toNat region.height.toNat)

/-- Whether the pointer shows at a column and row: its mask has a bit for each, in rows of whole bytes. -/
def Cursor.shows (cursor : Cursor) (i j : ℕ) : Bool :=
  (byteAt cursor.mask (j * ((cursor.image.width + 7) / 8) + i / 8)).testBit (7 - i % 8)

/-- `paste` with the pointer's mask. -/
def Canvas.pastePointer (c : Canvas) (cursor : Cursor) (x y : ℤ) : Canvas :=
  { c with pixel := fun i j =>
      if (x ≤ i ∧ i < x + cursor.image.width ∧ y ≤ j ∧ j < y + cursor.image.height) ∧
          cursor.shows (i - x).toNat (j - y).toNat = true then
        cursor.image.pixel (i - x).toNat (j - y).toNat
      else c.pixel i j }

/-- `_render`. -/
def renderBox (a : State codecs) (box : Option Region) : Except PyErr Canvas :=
  match a.own.screen with
  | none => .error ⟨.attributeError, "'NoneType' object has no attribute"⟩
  | some screen => do
    let rendered ← cropped screen box
    match a.own.cursor with
    | none => .ok rendered
    | some cursor =>
      if a.own.options.cursor ≠ .local then .ok rendered
      else
        let corner : ℤ × ℤ := match box with
          | none => (0, 0)
          | some region => (region.x, region.y)
        .ok (Canvas.pastePointer rendered cursor (a.own.x - cursor.focus.1 - corner.1)
          (a.own.y - cursor.focus.2 - corner.2))

/-- `renderScreen`, and `renderRegion` for a region. -/
def render (a : State codecs) : Option Region → Except PyErr Canvas
  | none => renderBox a none
  | some region => do
    requireOnScreen a region
    renderBox a (some region)

/-! ## The watch -/

/-- `_StableWatch`. -/
structure StableWatch : Type where
  seconds : ℚ
  fuzz : ℕ
  blur : ℕ
  /-- What `render` is of: the screen, or a region of it. -/
  region : Option Region
  baseline : Option Canvas := none
  /-- The time the active timer is due at. -/
  timer : Option ℚ := none
  settled : Bool := false
  /-- The time `result` was fired at. -/
  result : Option ℚ := none

/-- A client under a watch, and the time. -/
structure Watched (codecs : Codecs) : Type where
  now : ℚ
  watch : StableWatch
  client : State codecs

/-- `imagematch.matches`: whether two images are as near as the fuzz allows once they are blurred. -/
abbrev Matches : Type := Canvas → Canvas → ℕ → ℕ → Bool

variable (matching : Matches)

/-- Code of the client. -/
def onClient {α : Type} (m : Py (State codecs) α) : Py (Watched codecs) α := fun s =>
  match m s.client with
  | .ok v a => .ok v { s with client := a }
  | .error e a => .error e { s with client := a }

/-- Change the attributes of the watch. -/
def setWatch (f : StableWatch → StableWatch) : Py (Watched codecs) Unit :=
  modify fun s => { s with watch := f s.watch }

/-- A value, or the exception instead of it. -/
def unwrapped {σ α : Type} : Except PyErr α → Py σ α
  | .ok v => pure v
  | .error e => throw e

namespace StableWatch

/-- `_request`: what then completes the refresh runs `_update`. -/
def request (incremental : Bool) : Py (Watched codecs) Unit := onClient (refreshScreen incremental)

/-- `_restart`: `reset` where the timer is active, `callLater` where it is not. -/
def restart : Py (Watched codecs) Unit := do
  let s ← get
  if s.watch.timer.isNone ∧ s.watch.seconds < 0 then throw ⟨.assertionError, "0 <= delay"⟩
  else setWatch fun w => { w with timer := some (s.now + w.seconds) }

/-- `start`. -/
def start : Py (Watched codecs) Unit := do
  let s ← get
  if s.client.own.screen.isSome then
    let frame ← unwrapped (render s.client s.watch.region)
    setWatch fun w => { w with baseline := some frame }
    restart
    request true
  else request false

/-- `_changed`, or there is nothing to compare with. -/
def changed (w : StableWatch) (frame : Canvas) : Bool :=
  match w.baseline with
  | none => true
  | some baseline => !matching frame baseline w.fuzz w.blur

/-- `_update`. -/
def update : Py (Watched codecs) Unit := do
  let s ← get
  if s.watch.settled then pure ()
  else
    let frame ← unwrapped (render s.client s.watch.region)
    if s.watch.changed matching frame then
      setWatch fun w => { w with baseline := some frame }
      restart
      request true
    else request true

/-- `_settle`. -/
def settle (s : Watched codecs) : Watched codecs :=
  { s with watch := { s.watch with timer := none, settled := true, result := some s.now } }

end StableWatch

/-- `stableScreen`, and `stableRegion` for a region. -/
def stable : Py (Watched codecs) Unit := do
  let s ← get
  match s.watch.region with
  | none => StableWatch.start
  | some region => do
    unwrapped (requireOnScreen s.client region)
    StableWatch.start

/-! ## Moments -/

/-- What happens while a watch waits. -/
inductive Moment : Type
  /-- A method of the client is called. -/
  | method (callback : RFBClient.Callback)
  | elapse (time : ℚ) (h : 0 ≤ time)
  /-- The reactor runs the timer, if it is due. -/
  | timer

variable (env : Env (Decoding codecs) Fields)

/-- The method, run on the client. -/
def Watched.called (s : Watched codecs) (callback : RFBClient.Callback) : State codecs :=
  Effect.state ((env.call callback).run s.client)

/-- The method completes the refresh of the watch: its callback is the last line of `commitUpdate`. -/
def Watched.refreshes (s : Watched codecs) (callback : RFBClient.Callback) : Bool :=
  s.client.own.deferred && !(s.called env callback).own.deferred

/-- What a moment leaves. A Deferred keeps what its callback raises. -/
def Watched.after (s : Watched codecs) : Moment → Watched codecs
  | .method callback =>
    if s.refreshes env callback then
      Effect.state ((StableWatch.update matching).run { s with client := s.called env callback })
    else { s with client := s.called env callback }
  | .elapse time _ => { s with now := s.now + time }
  | .timer =>
    match s.watch.timer with
    | some due => if due ≤ s.now then StableWatch.settle s else s
    | none => s

/-- A committed update, or the start of the watch: what the watch has rendered then, and whether it
has asked for an update. -/
structure Entry : Type where
  time : ℚ
  frame : Option Canvas
  asked : Bool

/-- An update is asked for. -/
def Event.asks : Event → Bool
  | .wrote .message message =>
    message.head? = some (UInt8.ofNat MsgC2S.framebufferUpdateRequest.value)
  | _ => false

/-- Whether an update was asked for between two states of the client. -/
def asksBetween (a a' : State codecs) : Bool := (a'.log.drop a.log.length).any Event.asks

/-- What the watch renders in `_update`. -/
def Watched.rendered (s : Watched codecs) (callback : RFBClient.Callback) : Option Canvas :=
  if s.refreshes env callback ∧ ¬s.watch.settled then
    (render (s.called env callback) s.watch.region).toOption
  else none

/-- What is recorded of a moment. -/
def Watched.entries (s : Watched codecs) : Moment → List Entry
  | .method (.commitUpdate rectangles) => [{
      time := s.now
      frame := s.rendered env (.commitUpdate rectangles)
      asked := asksBetween s.client (s.after matching env (.method (.commitUpdate rectangles))).client }]
  | _ => []

/-- A run goes on. -/
def Watched.step (s : List Entry × Watched codecs) (moment : Moment) : List Entry × Watched codecs :=
  (s.1 ++ s.2.entries matching env moment, s.2.after matching env moment)

/-- An update was outstanding from one entry on, and whatever was committed since was rendered and found
near the frame the entry has. -/
structure Watches (w : StableWatch) (base : Canvas) (entry : Entry) (since : List Entry) : Prop where
  frame : entry.frame = some base
  asked : ∀ e ∈ entry :: since, e.asked = true
  near : ∀ e ∈ since, ∃ frame, e.frame = some frame ∧ matching frame base w.fuzz w.blur = true

/-- A moment that fires the result of a watch has been watched: what is rendered is on the screen, and
over the last seconds an update was outstanding and nothing but small changes was committed. -/
def FiresWatched (s : List Entry × Watched codecs) (moment : Moment) : Prop :=
  s.2.watch.result = none → (s.2.after matching env moment).watch.result ≠ none →
    (∀ region, s.2.watch.region = some region → ¬region.leaves (displaySize s.2.client)) ∧
      ∃ before entry since base, s.1 = before ++ entry :: since ∧
        entry.time + s.2.watch.seconds ≤ s.2.now ∧ Watches matching s.2.watch base entry since

/-- While its window runs, no resize takes the region off the screen, and no update is committed that has
recorded nothing. -/
structure Shows (s : List Entry × Watched codecs) (moment : Moment) : Prop where
  resize : ∀ width height region, moment = .method (.updateDesktopSize width height) →
    s.2.watch.timer ≠ none → s.2.watch.region = some region →
      (width < maxDesktopSize ∧ height < maxDesktopSize) → ¬region.leaves (width, height)
  commit : ∀ rectangles, moment = .method (.commitUpdate rectangles) →
    s.2.watch.timer ≠ none → rectangles ≠ []

/-! ## Pictures -/

/-- The region lies on a display, and its sides are not negative. -/
def Region.Fits (region : Region) (size : ℕ × ℕ) : Prop :=
  ¬region.leaves size ∧ 0 ≤ region.width ∧ 0 ≤ region.height

/-- There is a screen, and the region lies on it. -/
structure Displays (a : State codecs) (region : Option Region) : Prop where
  screen : a.own.screen ≠ none
  fits : ∀ r, region = some r → r.Fits (displaySize a)

section

variable {a a' : State codecs}

theorem cropped_returns_iff (screen : Canvas) (box : Option Region) :
    (∃ frame, cropped screen box = .ok frame) ↔ ∀ r, box = some r → 0 ≤ r.width ∧ 0 ≤ r.height := by
  cases box with
  | none => exact ⟨fun _ r h => absurd h (by simp), fun _ => ⟨screen, rfl⟩⟩
  | some region =>
    unfold cropped
    dsimp only
    by_cases hwidth : region.width < 0
    · rw [if_pos hwidth]
      refine ⟨fun h => absurd h.choose_spec (by simp), fun h => ?_⟩
      exact absurd (h region rfl).1 (not_le.mpr hwidth)
    · rw [if_neg hwidth]
      by_cases hheight : region.height < 0
      · rw [if_pos hheight]
        refine ⟨fun h => absurd h.choose_spec (by simp), fun h => ?_⟩
        exact absurd (h region rfl).2 (not_le.mpr hheight)
      · rw [if_neg hheight]
        refine ⟨fun _ r h => ?_, fun _ => ⟨_, rfl⟩⟩
        obtain rfl := Option.some.inj h
        exact ⟨not_lt.mp hwidth, not_lt.mp hheight⟩

theorem renderBox_returns_iff (box : Option Region) :
    (∃ frame, renderBox a box = .ok frame) ↔
      a.own.screen ≠ none ∧ ∀ r, box = some r → 0 ≤ r.width ∧ 0 ≤ r.height := by
  unfold renderBox
  cases hscreen : a.own.screen with
  | none => exact ⟨fun h => absurd h.choose_spec (by simp), fun h => absurd rfl h.1⟩
  | some screen =>
    simp only [← cropped_returns_iff screen box]
    constructor
    · rintro ⟨frame, h⟩
      obtain ⟨rendered, hrendered, -⟩ := Fallible.bind_eq_ok.mp h
      exact ⟨by simp, rendered, hrendered⟩
    · rintro ⟨-, rendered, hrendered⟩
      rw [hrendered]
      cases a.own.cursor with
      | none => exact ⟨rendered, rfl⟩
      | some cursor =>
        show ∃ frame, (if a.own.options.cursor ≠ .local then Except.ok rendered else _) = .ok frame
        split_ifs
        · exact ⟨rendered, rfl⟩
        · exact ⟨_, rfl⟩

/-- There is a picture exactly of what is on the screen. -/
theorem render_returns_iff (region : Option Region) :
    (∃ frame, render a region = .ok frame) ↔ Displays a region := by
  cases region with
  | none =>
    refine (renderBox_returns_iff none).trans ⟨fun h => ⟨h.1, fun r h => ?_⟩, fun h => ⟨h.screen, ?_⟩⟩
    · exact absurd h (by simp)
    · exact fun r h => absurd h (by simp)
  | some region =>
    constructor
    · rintro ⟨frame, h⟩
      obtain ⟨_, hon, hframe⟩ := Fallible.bind_eq_ok.mp h
      obtain ⟨hscreen, hsides⟩ := (renderBox_returns_iff (some region)).mp ⟨frame, hframe⟩
      refine ⟨hscreen, fun r hr => ?_⟩
      obtain rfl := Option.some.inj hr
      refine ⟨fun hleaves => ?_, hsides region rfl⟩
      unfold requireOnScreen at hon
      rw [if_pos hleaves] at hon
      exact absurd hon (by simp)
    · intro h
      obtain ⟨hon, hsides⟩ := h.fits region rfl
      have hbox : ∀ r, some region = some r → 0 ≤ r.width ∧ 0 ≤ r.height :=
        fun r hr => Option.some.inj hr ▸ hsides
      obtain ⟨frame, hframe⟩ := (renderBox_returns_iff (some region)).mpr ⟨h.screen, hbox⟩
      refine ⟨frame, ?_⟩
      have hrequire : requireOnScreen a region = .ok () := if_neg hon
      show (requireOnScreen a region >>= fun _ => renderBox a (some region)) = .ok frame
      rw [hrequire]
      exact hframe

end

/-! ## What the watch does -/

/-- The watch has asked for a refresh that any change completes. -/
structure Asked (a a' : State codecs) : Prop where
  width : a'.width = a.width
  height : a'.height = a.height
  screen : a'.own.screen = a.own.screen
  deferred : a'.own.deferred = true
  pending : a'.own.fullscreen.pending = false
  log : ∃ es, a'.log = a.log ++ es ∧ es.any Event.asks = true

section

variable {s s' : Watched codecs}

theorem run_onClient {α : Type} {m : Py (State codecs) α} {v : α} {a : State codecs}
    (h : m.run s.client = .ok v a) : (onClient m).run s = .ok v { s with client := a } := by
  show onClient m s = _
  unfold onClient
  rw [show m s.client = .ok v a from h]

theorem run_request (hwidth : s.client.width < maxDesktopSize)
    (hheight : s.client.height < maxDesktopSize) (incremental : Bool) :
    ∃ message, Event.asks (.wrote .message message) = true ∧
      (StableWatch.request incremental).run s = .ok () { s with client := { s.client with
        own := { s.client.own with
          deferred := true
          fullscreen := if incremental then .satisfied else .awaiting s.client.width s.client.height }
        log := s.client.log ++ [.wrote .message message] } } := by
  obtain ⟨rest, hmessage⟩ := exists_request hwidth hheight incremental
  refine ⟨UInt8.ofNat MsgC2S.framebufferUpdateRequest.value :: rest, by simp [Event.asks], ?_⟩
  refine run_onClient ?_
  unfold refreshScreen
  rw [EStateM.run_bind]
  show (requestRefresh incremental).run _ = _
  rw [run_requestRefresh]
  show EStateM.run (encoded (RFBClient.framebufferUpdateRequest (s.client.width, s.client.height) 0 0
    none none incremental) >>= fun message => Attrs.write .message message) _ = _
  rw [hmessage, run_encoded_write]

/-- Asking for a refresh of a change. -/
theorem run_request_incremental (hwidth : s.client.width < maxDesktopSize)
    (hheight : s.client.height < maxDesktopSize) :
    ∃ a', Asked s.client a' ∧ (StableWatch.request true).run s = .ok () { s with client := a' } := by
  obtain ⟨message, hasks, hrun⟩ := run_request hwidth hheight true
  refine ⟨_, ?_, hrun⟩
  exact ⟨rfl, rfl, rfl, rfl, rfl, [.wrote .message message], rfl, by simp [hasks]⟩

theorem run_restart (s : Watched codecs) :
    StableWatch.restart.run s = if s.watch.timer.isNone ∧ s.watch.seconds < 0 then
      .error ⟨.assertionError, "0 <= delay"⟩ s
    else .ok () { s with watch := { s.watch with timer := some (s.now + s.watch.seconds) } } := by
  unfold StableWatch.restart
  rw [EStateM.run_bind, EStateM.run_get]
  dsimp only
  split_ifs <;> rfl

end

/-- What `_update` leaves. -/
inductive Updated (matching : Matches) (s : Watched codecs) : Watched codecs → Prop
  /-- The watch is over. -/
  | ended (hsettled : s.watch.settled = true) : Updated matching s s
  /-- There is no picture, and nothing is asked for. -/
  | lost (hlost : ¬Displays s.client s.watch.region) : Updated matching s s
  /-- The reactor refuses the timer. -/
  | refused (frame : Canvas) (htimer : s.watch.timer = none) :
      Updated matching s { s with watch := { s.watch with baseline := some frame } }
  /-- The screen has changed, and the window starts from this frame. -/
  | adopted (frame : Canvas) (a' : State codecs) (hsettled : s.watch.settled = false)
      (hframe : render s.client s.watch.region = .ok frame) (hasked : Asked s.client a') :
      Updated matching s {
        now := s.now
        watch := { s.watch with baseline := some frame, timer := some (s.now + s.watch.seconds) }
        client := a' }
  /-- The window runs on. -/
  | kept (frame : Canvas) (a' : State codecs) (hsettled : s.watch.settled = false)
      (hframe : render s.client s.watch.region = .ok frame)
      (hsame : s.watch.changed matching frame = false) (hasked : Asked s.client a') :
      Updated matching s { s with client := a' }

section

variable {s s' : Watched codecs}

/-- A frame becomes the baseline, and the window starts. -/
theorem run_adopt (hwidth : s.client.width < maxDesktopSize)
    (hheight : s.client.height < maxDesktopSize) (frame : Canvas) :
    (∃ e, s.watch.timer = none ∧ (do
        setWatch fun w => { w with baseline := some frame }
        StableWatch.restart
        StableWatch.request true : Py (Watched codecs) Unit).run s =
          .error e { s with watch := { s.watch with baseline := some frame } }) ∨
      ∃ a', Asked s.client a' ∧ (do
        setWatch fun w => { w with baseline := some frame }
        StableWatch.restart
        StableWatch.request true : Py (Watched codecs) Unit).run s = .ok () {
          now := s.now
          watch := { s.watch with baseline := some frame, timer := some (s.now + s.watch.seconds) }
          client := a' } := by
  rw [EStateM.run_bind]
  show (∃ e, _ ∧ (StableWatch.restart >>= fun _ => StableWatch.request true).run _ = _) ∨
    ∃ a', _ ∧ (StableWatch.restart >>= fun _ => StableWatch.request true).run _ = _
  rw [EStateM.run_bind, run_restart]
  by_cases hrefused : s.watch.timer.isNone ∧ s.watch.seconds < 0
  · left
    rw [if_pos hrefused]
    exact ⟨_, Option.isNone_iff_eq_none.mp hrefused.1, rfl⟩
  · right
    rw [if_neg hrefused]
    obtain ⟨a', hasked, hrun⟩ := run_request_incremental
      (s := { s with watch := { s.watch with
        baseline := some frame
        timer := some (s.now + s.watch.seconds) } }) hwidth hheight
    exact ⟨a', hasked, hrun⟩

theorem update_spec (matching : Matches) (hwidth : s.client.width < maxDesktopSize)
    (hheight : s.client.height < maxDesktopSize) :
    Updated matching s (Effect.state ((StableWatch.update matching).run s)) := by
  unfold StableWatch.update
  rw [EStateM.run_bind, EStateM.run_get]
  dsimp only
  by_cases hsettled : s.watch.settled = true
  · rw [if_pos hsettled]
    exact .ended hsettled
  · rw [if_neg hsettled, EStateM.run_bind]
    have hwaits : s.watch.settled = false := Bool.eq_false_iff.mpr hsettled
    cases hframe : render s.client s.watch.region with
    | error e =>
      refine .lost fun hdisplays => ?_
      obtain ⟨frame, hframe'⟩ := (render_returns_iff s.watch.region).mpr hdisplays
      exact absurd (hframe.symm.trans hframe') (by simp)
    | ok frame =>
      show Updated matching s (Effect.state (EStateM.run (ite _ _ _) s))
      by_cases hchanged : s.watch.changed matching frame = true
      · rw [if_pos hchanged]
        rcases run_adopt hwidth hheight frame with ⟨e, htimer, hrun⟩ | ⟨a', hasked, hrun⟩
        · rw [hrun]
          exact .refused frame htimer
        · rw [hrun]
          exact .adopted frame a' hwaits hframe hasked
      · rw [if_neg hchanged]
        obtain ⟨a', hasked, hrun⟩ := run_request_incremental hwidth hheight
        rw [hrun]
        exact .kept frame a' hwaits hframe (Bool.eq_false_iff.mpr hchanged) hasked

end

/-! ## What the client does under a watch -/

/-- The refresh that waits is as it was, and the display has not shrunk. -/
structure Stands (a a' : State codecs) : Prop where
  width : a'.width = a.width
  height : a'.height = a.height
  deferred : a'.own.deferred = a.own.deferred
  pending : a.own.fullscreen.pending = false → a'.own.fullscreen.pending = false
  display : a.own.screen ≠ none → a'.own.screen ≠ none ∧
    (displaySize a).1 ≤ (displaySize a').1 ∧ (displaySize a).2 ≤ (displaySize a').2

theorem displaySize_congr {a a' : State codecs} (hwidth : a'.width = a.width)
    (hheight : a'.height = a.height) (hscreen : a'.own.screen = a.own.screen) :
    displaySize a' = displaySize a := by
  unfold displaySize
  rw [hwidth, hheight, hscreen]

theorem displaySize_of_screen {a : State codecs} {screen : Canvas} (h : a.own.screen = some screen) :
    displaySize a = (screen.width, screen.height) := by
  unfold displaySize
  rw [h]

theorem Keeps.stands {a a' : State codecs} (h : Keeps a a') : Stands a a' where
  width := h.width
  height := h.height
  deferred := h.deferred
  pending hpending := h.fullscreen ▸ hpending
  display hscreen := by
    rw [displaySize_congr h.width h.height h.screen, h.screen]
    exact ⟨hscreen, le_refl _, le_refl _⟩

/-- A region on a display lies on one that is no smaller. -/
theorem Region.Fits.mono {region : Region} {size size' : ℕ × ℕ} (h : region.Fits size)
    (hwidth : size.1 ≤ size'.1) (hheight : size.2 ≤ size'.2) : region.Fits size' := by
  obtain ⟨hon, hsides⟩ := h
  refine ⟨fun hleaves => hon ?_, hsides⟩
  unfold Region.leaves at hleaves ⊢
  omega

theorem Displays.stands {a a' : State codecs} {region : Option Region} (h : Displays a region)
    (hstands : Stands a a') : Displays a' region := by
  obtain ⟨hscreen, hwidth, hheight⟩ := hstands.display h.screen
  exact ⟨hscreen, fun r hr => (h.fits r hr).mono hwidth hheight⟩

section

variable (audience : Audience codecs) (library : Library) (imaging : Imaging)

/-- What a method does that neither ends an update nor gives a new size. -/
theorem stands_call (callback : RFBClient.Callback)
    (hcommit : ∀ rectangles, callback ≠ .commitUpdate rectangles)
    (hresize : ∀ width height, callback ≠ .updateDesktopSize width height) (a : State codecs) :
    Stands a (Effect.state (((stageEnv audience library imaging).call callback).run a)) := by
  cases callback with
  | commitUpdate rectangles => exact absurd rfl (hcommit rectangles)
  | updateDesktopSize width height => exact absurd rfl (hresize width height)
  | updateRectangle rect data pixelFormat =>
    have hcall := updateRectangle_spec imaging ⟨rect, data, pixelFormat⟩
      { a with log := a.log ++ [.called (.updateRectangle rect data pixelFormat)] }
    show Stands a (Effect.state ((updateRectangle imaging rect data pixelFormat).run _))
    generalize (updateRectangle imaging rect data pixelFormat).run _ = outcome at hcall ⊢
    cases hcall with
    | nothing _ => exact ⟨rfl, rfl, rfl, id, fun h => ⟨h, le_refl _, le_refl _⟩⟩
    | raised e format mode _ => exact ⟨rfl, rfl, rfl, id, fun h => ⟨h, le_refl _, le_refl _⟩⟩
    | painted format mode image _ hwidth hheight _ =>
      refine ⟨rfl, rfl, rfl, id, fun hscreen => ⟨by simp, ?_⟩⟩
      -- The screen grows to hold the rectangle.
      obtain ⟨screen, hsome⟩ := Option.ne_none_iff_exists'.mp hscreen
      obtain ⟨hw, hh, -⟩ := grown_some (a.width, a.height) screen hwidth hheight
      rw [← hsome] at hw hh
      show _ ≤ (grown (a.width, a.height) a.own.screen rect image).width ∧
        _ ≤ (grown (a.width, a.height) a.own.screen rect image).height
      rw [displaySize_of_screen hsome, hw, hh]
      exact ⟨le_max_right _ _, le_max_right _ _⟩
  | copyRectangle srcx srcy rect =>
    show Stands a (Effect.state ((copyRectangle srcx srcy rect).run _))
    rw [run_copyRectangle]
    cases hscreen : a.own.screen with
    | none => exact ⟨rfl, rfl, rfl, id, fun h => absurd hscreen h⟩
    | some screen =>
      refine ⟨rfl, rfl, rfl, id, fun _ => ⟨by simp, ?_⟩⟩
      rw [displaySize_of_screen hscreen]
      exact ⟨le_refl _, le_refl _⟩
  | updateCursor rect image mask =>
    have hkeeps := stays_updateCursor imaging rect image mask
      { a with log := a.log ++ [.called (.updateCursor rect image mask)] }
    exact ⟨hkeeps.width, hkeeps.height, hkeeps.deferred, hkeeps.stands.pending, hkeeps.stands.display⟩
  | updatePointerPos x y => exact ⟨rfl, rfl, rfl, id, fun h => ⟨h, le_refl _, le_refl _⟩⟩
  | beginUpdate => exact ⟨rfl, rfl, rfl, id, fun h => ⟨h, le_refl _, le_refl _⟩⟩
  | _ => exact (stays_call audience library imaging _ rfl a).stands

/-- The end of an update leaves the display alone, and completes a refresh of a change. -/
theorem commit_spec (rectangles : List Rect) (a : State codecs) :
    Settles a (Effect.state (((stageEnv audience library imaging).call
        (.commitUpdate rectangles)).run a)) ∧
      (a.own.fullscreen.pending = false → rectangles ≠ [] → a.own.screen ≠ none →
        (Effect.state (((stageEnv audience library imaging).call
          (.commitUpdate rectangles)).run a)).own.deferred = false) := by
  have hlogged : Settles a { a with log := a.log ++ [.called (.commitUpdate rectangles)] } :=
    ⟨rfl, rfl, rfl, [.called (.commitUpdate rectangles)], rfl, fun e he =>
      .inr ⟨rectangles, List.mem_singleton.mp he⟩⟩
  refine ⟨hlogged.trans (settles_commitUpdate audience rectangles _), fun hpending hrecorded hscreen => ?_⟩
  have hcommits := commitUpdate_spec audience.toHooks rectangles
    { a with log := a.log ++ [.called (.commitUpdate rectangles)] }
  show (Effect.state ((commitUpdate audience.toHooks rectangles).run _)).own.deferred = false
  generalize Effect.state ((commitUpdate audience.toHooks rectangles).run _) = a' at hcommits ⊢
  cases hcommits with
  | idle hidle => exact hidle
  | unpainted _ hunpainted =>
    rcases hunpainted with h | h
    · exact absurd h hrecorded
    · exact absurd h hscreen
  | retries _ _ hpart _ =>
    exact absurd (hpart.symm.trans (complete_of_not_pending hpending)) (by simp)
  | fires _ _ _ => exact (audience.keeps_refreshed _).deferred

end

/-! ## The window -/

section

variable (matching : Matches) (audience : Audience codecs) (library : Library) (imaging : Imaging)
  {past : List Entry} {s : Watched codecs}

/-- The window runs: a refresh of any change waits, what is watched is on the display, and since the entry
the window started from there was nothing but small changes. -/
structure Armed (past : List Entry) (s : Watched codecs) : Prop where
  settled : s.watch.settled = false
  waits : s.client.own.deferred = true
  pending : s.client.own.fullscreen.pending = false
  displays : Displays s.client s.watch.region
  window : ∃ before entry since base, past = before ++ entry :: since ∧
    s.watch.timer = some (entry.time + s.watch.seconds) ∧ s.watch.baseline = some base ∧
      Watches matching s.watch base entry since

/-- What holds throughout a watch. -/
structure Vigilant (past : List Entry) (s : Watched codecs) : Prop where
  width : s.client.width < maxDesktopSize
  height : s.client.height < maxDesktopSize
  armed : s.watch.timer ≠ none → Armed matching past s

theorem asksBetween_of {a a' : State codecs} {es : List Event} (hlog : a'.log = a.log ++ es)
    (h : es.any Event.asks = true) : asksBetween a a' = true := by
  unfold asksBetween
  rw [hlog, List.drop_left]
  exact h

/-- What a client does that stands leaves the window running. -/
theorem Vigilant.stands (h : Vigilant matching past s) {a' : State codecs}
    (hstands : Stands s.client a') : Vigilant matching past { s with client := a' } where
  width := hstands.width ▸ h.width
  height := hstands.height ▸ h.height
  armed htimer := by
    have harmed := h.armed htimer
    exact ⟨harmed.settled, hstands.deferred.trans harmed.waits, hstands.pending harmed.pending,
      harmed.displays.stands hstands, harmed.window⟩

theorem Displays.congr {a a' : State codecs} {region : Option Region} (h : Displays a region)
    (hwidth : a'.width = a.width) (hheight : a'.height = a.height)
    (hscreen : a'.own.screen = a.own.screen) : Displays a' region := by
  refine ⟨hscreen ▸ h.screen, fun r hr => ?_⟩
  rw [displaySize_congr hwidth hheight hscreen]
  exact h.fits r hr

/-- What `_update` does to the window, where an update has been committed that the watch is told of. -/
theorem Vigilant.updated {a' : State codecs} {s' : Watched codecs} {frame : Option Canvas}
    (h : Vigilant matching past s) (hsettles : Settles s.client a')
    (hframe : s.watch.settled = false → frame = (render a' s.watch.region).toOption)
    (hupdated : Updated matching { s with client := a' } s') :
    Vigilant matching (past ++ [⟨s.now, frame, asksBetween s.client s'.client⟩]) s' := by
  have hwidth : a'.width < maxDesktopSize := hsettles.width ▸ h.width
  have hheight : a'.height < maxDesktopSize := hsettles.height ▸ h.height
  -- What is asked for after the method is asked for within the moment.
  have hasks : ∀ {a''}, Asked a' a'' → asksBetween s.client a'' = true := by
    intro a'' hasked
    obtain ⟨es, hlog, -⟩ := hsettles.log
    obtain ⟨es', hlog', hes'⟩ := hasked.log
    have hshown : a''.log = s.client.log ++ (es ++ es') := by
      rw [hlog', hlog, List.append_assoc]
    refine asksBetween_of hshown ?_
    rw [List.any_append, hes', Bool.or_true]
  cases hupdated with
  | ended hsettled =>
    refine ⟨hwidth, hheight, fun htimer => ?_⟩
    exact absurd ((h.armed htimer).settled.symm.trans hsettled) (by simp)
  | lost hlost =>
    refine ⟨hwidth, hheight, fun htimer => ?_⟩
    exact absurd ((h.armed htimer).displays.congr hsettles.width hsettles.height hsettles.screen) hlost
  | refused frame' htimer => exact ⟨hwidth, hheight, fun htimer' => absurd htimer htimer'⟩
  | adopted frame' a'' hsettled hframe' hasked =>
    have hdisplays : Displays a' s.watch.region := (render_returns_iff _).mp ⟨frame', hframe'⟩
    refine ⟨hasked.width ▸ hwidth, hasked.height ▸ hheight, fun _ => ⟨hsettled, hasked.deferred,
      hasked.pending, hdisplays.congr hasked.width hasked.height hasked.screen, ?_⟩⟩
    refine ⟨past, _, [], frame', rfl, rfl, rfl, ?_, fun e he => ?_, fun e he => absurd he (by simp)⟩
    · show frame = some frame'
      rw [hframe hsettled, show render a' s.watch.region = .ok frame' from hframe']
      rfl
    · obtain rfl := List.mem_singleton.mp he
      exact hasks hasked
  | kept frame' a'' hsettled hframe' hsame hasked =>
    refine ⟨hasked.width ▸ hwidth, hasked.height ▸ hheight, fun htimer => ?_⟩
    have harmed := h.armed htimer
    have hdisplays := harmed.displays.congr hsettles.width hsettles.height hsettles.screen
    refine ⟨hsettled, hasked.deferred, hasked.pending,
      hdisplays.congr hasked.width hasked.height hasked.screen, ?_⟩
    obtain ⟨before, entry, since, base, rfl, hdue, hbaseline, hwatches⟩ := harmed.window
    refine ⟨before, entry, since ++ [⟨s.now, frame, asksBetween s.client a''⟩], base, by simp, hdue,
      hbaseline, hwatches.frame, ?_, ?_⟩
    · intro e he
      rw [← List.cons_append] at he
      rcases List.mem_append.mp he with he | he
      · exact hwatches.asked e he
      · obtain rfl := List.mem_singleton.mp he
        exact hasks hasked
    · intro e he
      rcases List.mem_append.mp he with he | he
      · exact hwatches.near e he
      · obtain rfl := List.mem_singleton.mp he
        refine ⟨frame', ?_, ?_⟩
        · show frame = some frame'
          rw [hframe hsettled, show render a' s.watch.region = .ok frame' from hframe']
          rfl
        · -- The frame was found near the baseline.
          unfold StableWatch.changed at hsame
          rw [show s.watch.baseline = some base from hbaseline] at hsame
          simpa using hsame

/-- `_update` fires nothing. -/
theorem Updated.result {s' : Watched codecs} (h : Updated matching s s') :
    s'.watch.result = s.watch.result := by
  cases h <;> rfl

/-- A method that is told neither as the end of an update nor as a new size completes no refresh. -/
theorem refreshes_of_stands {callback : RFBClient.Callback}
    {env : Env (Decoding codecs) Fields} (h : Stands s.client (s.called env callback)) :
    s.refreshes env callback = false := by
  unfold Watched.refreshes
  rw [h.deferred]
  cases s.client.own.deferred <;> rfl

/-- A method after which the window runs on as it did. -/
theorem vigilant_method {env : Env (Decoding codecs) Fields} {callback : RFBClient.Callback}
    (hrefreshes : s.refreshes env callback = false)
    (hentries : s.entries matching env (.method callback) = [])
    (h : Vigilant matching past { s with client := s.called env callback }) :
    FiresWatched matching env (past, s) (.method callback) ∧
      Vigilant matching (Watched.step matching env (past, s) (.method callback)).1
        (Watched.step matching env (past, s) (.method callback)).2 := by
  have hafter : s.after matching env (.method callback) =
      { s with client := s.called env callback } := by
    unfold Watched.after
    exact if_neg (by simp [hrefreshes])
  constructor
  · intro hnone hfired
    rw [hafter] at hfired
    exact absurd hnone hfired
  · show Vigilant matching (past ++ s.entries matching env (.method callback))
      (s.after matching env (.method callback))
    rw [hafter, hentries, List.append_nil]
    exact h

/-- A new size arrives. -/
theorem vigilant_resize (h : Vigilant matching past s) (width height : ℕ)
    (hshows : Shows (past, s) (.method (.updateDesktopSize width height))) :
    FiresWatched matching (stageEnv audience library imaging) (past, s)
        (.method (.updateDesktopSize width height)) ∧
      Vigilant matching
        (Watched.step matching (stageEnv audience library imaging) (past, s)
          (.method (.updateDesktopSize width height))).1
        (Watched.step matching (stageEnv audience library imaging) (past, s)
          (.method (.updateDesktopSize width height))).2 := by
  have hcalled : s.called (stageEnv audience library imaging) (.updateDesktopSize width height) =
      Effect.state ((updateDesktopSize width height).run { s.client with
        log := s.client.log ++ [.called (.updateDesktopSize width height)] }) := rfl
  have hworks := works_updateDesktopSize width height { s.client with
    log := s.client.log ++ [.called (.updateDesktopSize width height)] }
  rw [← hcalled] at hworks
  have hrefreshes : s.refreshes (stageEnv audience library imaging)
      (.updateDesktopSize width height) = false := by
    unfold Watched.refreshes
    rw [hworks.deferred]
    cases s.client.own.deferred <;> rfl
  refine vigilant_method matching hrefreshes rfl ?_
  rw [run_updateDesktopSize] at hcalled
  by_cases hfits : width < maxDesktopSize ∧ height < maxDesktopSize
  · rw [if_pos hfits] at hcalled
    have hwidth : (s.called (stageEnv audience library imaging)
        (.updateDesktopSize width height)).width = width := by rw [hcalled]; rfl
    have hheight : (s.called (stageEnv audience library imaging)
        (.updateDesktopSize width height)).height = height := by rw [hcalled]; rfl
    have hscreen : (s.called (stageEnv audience library imaging)
        (.updateDesktopSize width height)).own.screen =
          some (resized width height s.client.own.screen) := by rw [hcalled]; rfl
    refine ⟨lt_of_eq_of_lt hwidth hfits.1, lt_of_eq_of_lt hheight hfits.2, fun htimer => ?_⟩
    have harmed := h.armed htimer
    refine ⟨harmed.settled, hworks.deferred.trans harmed.waits, hworks.pending harmed.pending,
      ⟨by rw [hscreen]; simp, fun r hr => ⟨?_, (harmed.displays.fits r hr).2⟩⟩, harmed.window⟩
    rw [displaySize_of_screen hscreen, (size_resized width height _).1, (size_resized width height _).2]
    exact hshows.resize width height r rfl htimer hr hfits
  · -- The size is refused.
    rw [if_neg hfits] at hcalled
    refine h.stands matching ?_
    rw [hcalled]
    exact ⟨rfl, rfl, rfl, id, fun hscreen => ⟨hscreen, le_refl _, le_refl _⟩⟩

/-- An update ends. -/
theorem vigilant_commit (h : Vigilant matching past s) (rectangles : List Rect)
    (hshows : Shows (past, s) (.method (.commitUpdate rectangles))) :
    FiresWatched matching (stageEnv audience library imaging) (past, s)
        (.method (.commitUpdate rectangles)) ∧
      Vigilant matching
        (Watched.step matching (stageEnv audience library imaging) (past, s)
          (.method (.commitUpdate rectangles))).1
        (Watched.step matching (stageEnv audience library imaging) (past, s)
          (.method (.commitUpdate rectangles))).2 := by
  obtain ⟨hsettles, hcompletes⟩ := commit_spec audience library imaging rectangles s.client
  have hwidth : (s.called (stageEnv audience library imaging) (.commitUpdate rectangles)).width <
      maxDesktopSize := lt_of_eq_of_lt hsettles.width h.width
  have hheight : (s.called (stageEnv audience library imaging) (.commitUpdate rectangles)).height <
      maxDesktopSize := lt_of_eq_of_lt hsettles.height h.height
  cases hrefreshes : s.refreshes (stageEnv audience library imaging) (.commitUpdate rectangles) with
  | true =>
    have hafter : s.after matching (stageEnv audience library imaging)
        (.method (.commitUpdate rectangles)) = Effect.state ((StableWatch.update matching).run
          { s with client := s.called (stageEnv audience library imaging) (.commitUpdate rectangles) }) := by
      unfold Watched.after
      exact if_pos hrefreshes
    have hupdated := update_spec
      (s := { s with
        client := s.called (stageEnv audience library imaging) (.commitUpdate rectangles) })
      matching hwidth hheight
    rw [← hafter] at hupdated
    constructor
    · intro hnone hfired
      rw [hupdated.result] at hfired
      exact absurd hnone hfired
    · refine h.updated matching hsettles (fun hsettled => ?_) hupdated
      unfold Watched.rendered
      exact if_pos ⟨hrefreshes, by simp [hsettled]⟩
  | false =>
    have hafter : s.after matching (stageEnv audience library imaging)
        (.method (.commitUpdate rectangles)) =
          { s with client := s.called (stageEnv audience library imaging) (.commitUpdate rectangles) } := by
      unfold Watched.after
      exact if_neg (by simp [hrefreshes])
    constructor
    · intro hnone hfired
      rw [hafter] at hfired
      exact absurd hnone hfired
    · show Vigilant matching _ (s.after matching (stageEnv audience library imaging)
        (.method (.commitUpdate rectangles)))
      rw [hafter]
      refine ⟨hwidth, hheight, fun htimer => ?_⟩
      -- While the window runs, an update that has recorded something completes the refresh.
      have harmed := h.armed htimer
      have hover := hcompletes harmed.pending (hshows.commit rectangles rfl htimer) harmed.displays.screen
      have hrefreshes' : s.refreshes (stageEnv audience library imaging)
          (.commitUpdate rectangles) = true := by
        unfold Watched.refreshes
        rw [harmed.waits, show (s.called (stageEnv audience library imaging)
          (.commitUpdate rectangles)).own.deferred = false from hover]
        rfl
      exact absurd (hrefreshes.symm.trans hrefreshes') (by simp)

/-- Every moment keeps the watch vigilant. -/
theorem vigilant_step {p : List Entry × Watched codecs} {moment : Moment}
    (h : Vigilant matching p.1 p.2) (hshows : Shows p moment) :
    FiresWatched matching (stageEnv audience library imaging) p moment ∧
      Vigilant matching
        (Watched.step matching (stageEnv audience library imaging) p moment).1
        (Watched.step matching (stageEnv audience library imaging) p moment).2 := by
  obtain ⟨past, s⟩ := p
  cases moment with
  -- Time alone brings no frame: the window goes on.
  | elapse time htime =>
    refine ⟨fun hnone hfired => absurd hnone hfired, ?_⟩
    show Vigilant matching (past ++ []) { s with now := s.now + time }
    rw [List.append_nil]
    exact ⟨h.width, h.height, fun htimer => by
      have harmed := h.armed htimer
      exact ⟨harmed.settled, harmed.waits, harmed.pending, harmed.displays, harmed.window⟩⟩
  | timer =>
    show FiresWatched matching (stageEnv audience library imaging) (past, s) .timer ∧
      Vigilant matching (past ++ []) (s.after matching (stageEnv audience library imaging) .timer)
    rw [List.append_nil]
    unfold FiresWatched Watched.after
    cases htimer : s.watch.timer with
    | none => exact ⟨fun hnone hfired => absurd hnone hfired, h⟩
    | some due =>
      dsimp only
      -- A timer that is due fires once, and what it watched since it was armed is its window.
      by_cases hdue : due ≤ s.now
      · rw [if_pos hdue]
        refine ⟨fun _ _ => ?_, h.width, h.height, fun htimer' => absurd rfl htimer'⟩
        have harmed := h.armed (by rw [htimer]; simp)
        refine ⟨fun region hregion => (harmed.displays.fits region hregion).1, ?_⟩
        obtain ⟨before, entry, since, base, hpast, htime, -, hwatches⟩ := harmed.window
        obtain rfl := Option.some.inj (htimer.symm.trans htime)
        exact ⟨before, entry, since, base, hpast, hdue, hwatches⟩
      · rw [if_neg hdue]
        exact ⟨fun hnone hfired => absurd hnone hfired, h⟩
  | method callback =>
    by_cases hcommit : ∃ rectangles, callback = .commitUpdate rectangles
    · obtain ⟨rectangles, rfl⟩ := hcommit
      exact vigilant_commit matching audience library imaging h rectangles hshows
    · by_cases hresize : ∃ width height, callback = .updateDesktopSize width height
      · obtain ⟨width, height, rfl⟩ := hresize
        exact vigilant_resize matching audience library imaging h width height hshows
      · -- Any other method neither commits nor resizes: the watch stands as it was.
        have hstands : Stands s.client (s.called (stageEnv audience library imaging) callback) :=
          stands_call audience library imaging callback (fun rectangles heq => hcommit ⟨rectangles, heq⟩)
            (fun width height heq => hresize ⟨width, height, heq⟩) s.client
        have hentries : s.entries matching (stageEnv audience library imaging) (.method callback) = [] := by
          cases callback with
          | commitUpdate rectangles => exact absurd ⟨rectangles, rfl⟩ hcommit
          | _ => rfl
        exact vigilant_method matching (refreshes_of_stands hstands) hentries (h.stands matching hstands)

/-- The entry a watch starts with. -/
def began (s s' : Watched codecs) : Entry :=
  ⟨s.now, s'.watch.baseline, asksBetween s.client s'.client⟩

/-- A watch that starts is vigilant. -/
theorem vigilant_start {s' : Watched codecs} (hwidth : s.client.width < maxDesktopSize)
    (hheight : s.client.height < maxDesktopSize) (hsettled : s.watch.settled = false)
    (htimer : s.watch.timer = none) (h : StableWatch.start.run s = .ok () s') :
    Vigilant matching [began s s'] s' := by
  unfold StableWatch.start at h
  rw [EStateM.run_bind, EStateM.run_get] at h
  dsimp only at h
  by_cases hscreen : s.client.own.screen.isSome = true
  · rw [if_pos hscreen, EStateM.run_bind] at h
    cases hframe : render s.client s.watch.region with
    | error e =>
      rw [hframe] at h
      have hraised : EStateM.Result.error e s = .ok () s' := h
      exact absurd hraised (by simp)
    | ok frame =>
      rw [hframe] at h
      have hdisplays : Displays s.client s.watch.region := (render_returns_iff _).mp ⟨frame, hframe⟩
      rcases run_adopt hwidth hheight frame with ⟨e, -, hrun⟩ | ⟨a', hasked, hrun⟩
      · exact absurd (hrun.symm.trans h) (by simp)
      · obtain rfl := (EStateM.Result.ok.inj (hrun.symm.trans h)).2
        refine ⟨lt_of_eq_of_lt hasked.width hwidth, lt_of_eq_of_lt hasked.height hheight, fun _ => ?_⟩
        refine ⟨hsettled, hasked.deferred, hasked.pending,
          hdisplays.congr hasked.width hasked.height hasked.screen,
          [], _, [], frame, rfl, rfl, rfl, rfl, fun e he => ?_, fun e he => absurd he (by simp)⟩
        obtain rfl := List.mem_singleton.mp he
        obtain ⟨es, hlog, hes⟩ := hasked.log
        exact asksBetween_of hlog hes
  · -- The window starts with the first frame.
    rw [if_neg hscreen] at h
    obtain ⟨message, -, hrun⟩ := run_request hwidth hheight false
    obtain rfl := (EStateM.Result.ok.inj (hrun.symm.trans h)).2
    exact ⟨hwidth, hheight, fun htimer' => absurd htimer htimer'⟩

theorem vigilant_stable {s' : Watched codecs} (hwidth : s.client.width < maxDesktopSize)
    (hheight : s.client.height < maxDesktopSize) (hsettled : s.watch.settled = false)
    (htimer : s.watch.timer = none) (h : stable.run s = .ok () s') :
    Vigilant matching [began s s'] s' := by
  unfold stable at h
  rw [EStateM.run_bind, EStateM.run_get] at h
  dsimp only at h
  cases hregion : s.watch.region with
  | none =>
    rw [hregion] at h
    exact vigilant_start matching hwidth hheight hsettled htimer h
  | some region =>
    rw [hregion] at h
    dsimp only at h
    rw [EStateM.run_bind] at h
    cases hon : requireOnScreen s.client region with
    | error e =>
      rw [hon] at h
      have hraised : EStateM.Result.error e s = .ok () s' := h
      exact absurd hraised (by simp)
    | ok u =>
      rw [hon] at h
      exact vigilant_start matching hwidth hheight hsettled htimer h

/-- A watch reports only a window it has watched, in every run in which no resize takes its region off the
screen and no update that has recorded nothing is committed while its window runs. -/
theorem stable_watched {factory : Factory} {options : Options} {pixelFormat : Option PixelFormat}
    {encodings : Option (List ℤ)} {jpegQuality : Option ℕ}
    {c : RFBClient (Decoding codecs) Fields} {now seconds : ℚ} {fuzz blur : ℕ} {region : Option Region}
    {moments : List Moment}
    (h : Session (stageEnv audience library imaging) (fun _ _ => ()) (fun _ _ => True) ()
      (build factory options pixelFormat encodings jpegQuality) () c)
    (hstart : stable.run ⟨now, { seconds, fuzz, blur, region }, c.attrs⟩ = .ok () s)
    (hshows : Machine.Throughout (Watched.step matching (stageEnv audience library imaging)) Shows
      ([began ⟨now, { seconds, fuzz, blur, region }, c.attrs⟩ s], s) moments) :
    Machine.Throughout (Watched.step matching (stageEnv audience library imaging))
      (FiresWatched matching (stageEnv audience library imaging))
      ([began ⟨now, { seconds, fuzz, blur, region }, c.attrs⟩ s], s) moments := by
  have hzero : 0 < maxDesktopSize := by decide
  obtain ⟨hwidth, hheight⟩ := h.size_lt audience library imaging rfl rfl hzero hzero
  exact hshows.imp (fun p => Vigilant matching p.1 p.2)
    (vigilant_stable matching hwidth hheight rfl rfl hstart)
    fun p moment hp hmoment => vigilant_step matching audience library imaging hp hmoment

end

/-- Exact comparison, as a fuzz of nothing asks for. -/
def exactly : Matches := fun actual expected _ _ =>
  decide (actual.width = expected.width ∧ actual.height = expected.height) &&
    (List.range actual.width).all fun i => (List.range actual.height).all fun j =>
      decide (actual.pixel i j = expected.pixel i j)

/-- A watch of the screen, for a second, on a client that has painted its one pixel. -/
abbrev beforeStable : Watched Decoders.sampleCodecs :=
  ⟨0, { seconds := 1, fuzz := 0, blur := 0, region := none }, (announcedBy paintedScreen 7).attrs⟩

/-- The watch once it has started. -/
abbrev afterStable : Watched Decoders.sampleCodecs := Effect.state (stable.run beforeStable)

theorem run_stable_sample : stable.run beforeStable = .ok () afterStable :=
  Effect.eq_ok_of_returns (by decide +kernel)

/-- The pixel is sent again, and a second passes. -/
def repainted : List Moment :=
  [.method (.updateRectangle ⟨0, 0, 1, 1⟩ [255, 255, 255, 0] PixelFormat.rgbx8888),
    .method (.commitUpdate [⟨0, 0, 1, 1⟩]), .elapse 1 (by decide), .timer]

/-- The screen was stable. -/
theorem stable_watched_sample : Machine.Throughout (Watched.step exactly idleStage)
    (FiresWatched exactly idleStage) ([began beforeStable afterStable], afterStable) repainted := by
  have hshows : ∀ (p : List Entry × Watched Decoders.sampleCodecs) (moment : Moment),
      (∀ width height, moment ≠ .method (.updateDesktopSize width height)) →
        moment ≠ .method (.commitUpdate []) → Shows p moment := fun p moment hresize hcommit =>
    ⟨fun width height _ h => absurd h (hresize width height), fun rectangles h _ hnone =>
      hcommit (hnone ▸ h)⟩
  refine stable_watched exactly idleAudience sampleLibrary sampleImaging
    (session_announcedBy paintedScreen 7 (by decide +kernel)) run_stable_sample ?_
  exact ⟨hshows _ _ (by simp) (by simp), hshows _ _ (by simp) (by simp),
    hshows _ _ (by simp) (by simp), hshows _ _ (by simp) (by simp), trivial⟩

/-- The desktop grows by a pixel, and a second passes. -/
def regrown : List Moment :=
  [.method (.updateDesktopSize 2 1), .method (.commitUpdate []), .elapse 1 (by decide), .timer]

/-- What was rendered last in a window that was watched. -/
theorem Watches.last {w : StableWatch} {base : Canvas} {entry : Entry} {since before past : List Entry}
    {matching : Matches} (h : Watches matching w base entry since) (hpast : past = before ++ entry :: since) :
    ∃ e, past.getLast? = some e ∧ e.frame.isSome = true := by
  rcases List.eq_nil_or_concat' since with rfl | ⟨rest, e, rfl⟩
  · exact ⟨entry, by simp [hpast], by simp [h.frame]⟩
  · obtain ⟨frame, hframe, -⟩ := h.near e (by simp)
    refine ⟨e, ?_, by simp [hframe]⟩
    rw [hpast, ← List.cons_append, ← List.append_assoc, List.getLast?_concat]

/-- What is recorded before the timer runs. -/
abbrev beforeTimer : List Entry × Watched Decoders.sampleCodecs :=
  (regrown.take 3).foldl (Watched.step exactly idleStage) ([began beforeStable afterStable], afterStable)

/-- The watch reports the screen stable, and has not looked at it since it has grown. -/
theorem stable_unwatched : ¬Machine.Throughout (Watched.step exactly idleStage)
    (FiresWatched exactly idleStage) ([began beforeStable afterStable], afterStable) regrown := by
  rintro ⟨-, -, -, hfires, -⟩
  obtain ⟨-, before, entry, since, base, hpast, -, hwatches⟩ :=
    hfires (by decide +kernel) (by decide +kernel)
  obtain ⟨e, hlast, hframe⟩ := hwatches.last hpast
  have hunseen : beforeTimer.1.getLast?.map (fun e => e.frame.isSome) = some false := by
    decide +kernel
  rw [show beforeTimer.1.getLast? = some e from hlast] at hunseen
  exact absurd (hframe.symm.trans (Option.some.inj hunseen)) (by simp)

end VNCDoToolClient

end VncDoTool
