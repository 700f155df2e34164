import VncDoTool.Script.Session

/-!
# Recorded pointer events, replayed

The lines that `handle_pointerEvent` records say which buttons an event has down, each as a click.
A click presses the button and lets go of it.

* `PointerEvent.record`: what is recorded of a sequence of events.
* `transitions`: the presses and releases of a button in the messages of a client.
* `PointerEvent.Replays`: replaying the record puts each button through those of the events.
* `PointerEvent.replays_iff_released`: it does where every button is let go of in the next event, in place.
-/

namespace VncDoTool

/-! ## Buttons -/

/-- A button that goes down or comes up, and where. -/
structure Transition : Type where
  down : Bool
  x : ℤ
  y : ℤ
  deriving DecidableEq

/-- Whether a mask has a button down. -/
def holds (buttonmask : ℤ) (button : ℕ) : Bool := buttonmask.toNat.testBit (button - 1)

/-- The presses and releases of a button in the messages of a client. -/
def transitions (button : ℕ) (held : Bool) : List ClientMessage → List Transition
  | [] => []
  | .pointerEvent x y buttonmask :: messages =>
    if holds buttonmask button = held then transitions button held messages
    else ⟨holds buttonmask button, x, y⟩ ::
      transitions button (holds buttonmask button) messages
  | _ :: messages => transitions button held messages

/-- A PointerEvent that reaches the proxy, and the time since the event before it. -/
structure PointerEvent : Type where
  x : UInt16
  y : UInt16
  buttonmask : UInt8
  elapsed : Seconds

namespace PointerEvent

/-- The message it came in. -/
def message (e : PointerEvent) : ClientMessage :=
  .pointerEvent e.x.toNat e.y.toNat e.buttonmask.toNat

/-- Where the pointer is. -/
def position (e : PointerEvent) : ℕ × ℕ := (e.x.toNat, e.y.toNat)

/-- What a proxy records of events, given where the pointer was. -/
def record (mouse : Option (ℕ × ℕ)) : List PointerEvent → List Char
  | [] => []
  | e :: events =>
    Recorder.pointerLine e.elapsed mouse e.x.toNat e.y.toNat e.buttonmask.toNat ++
      record (some e.position) events

/-- Replaying what was recorded puts each button through the presses and releases of the events. -/
def Replays (keyboard : Keyboard) (events : List PointerEvent) : Prop :=
  ∃ fuel inputs s,
    Script.build (Script.sessionShell (record none events)) {} fuel ["session.vdo"] =
      some (.ok (inputs.map .input)) ∧
    (Input.performAll keyboard inputs).run {} = .ok true s ∧
    ∀ button, 1 ≤ button → button ≤ 8 →
      transitions button false s.sent = transitions button false (events.map message)

/-- Every event with buttons down is followed by one in the same place that has all of them up. -/
def Released : List PointerEvent → Prop
  | [] => True
  | [e] => e.buttonmask = 0
  | e :: e' :: events =>
    (e.buttonmask ≠ 0 → e'.position = e.position ∧ e.buttonmask &&& e'.buttonmask = 0) ∧
      Released (e' :: events)

/-! ## What the record is built into -/

/-- The calls of an event. -/
def calls (mouse : Option (ℕ × ℕ)) (e : PointerEvent) : List Input :=
  [.pause (.finite e.elapsed.value)] ++
    (if mouse ≠ some e.position then [.mouseMove e.x.toNat e.y.toNat] else []) ++
    (Recorder.buttonsIn e.buttonmask.toNat).map fun button : ℕ => .mousePress button

/-- The calls of all events. -/
def allCalls (mouse : Option (ℕ × ℕ)) : List PointerEvent → List Input
  | [] => []
  | e :: events => calls mouse e ++ allCalls (some e.position) events

/-- The words of all events. -/
def rows (mouse : Option (ℕ × ℕ)) : List PointerEvent → List (List Recorder.Word)
  | [] => []
  | e :: events =>
    Recorder.pointerWords e.elapsed mouse e.x.toNat e.y.toNat e.buttonmask.toNat ::
      rows (some e.position) events

theorem record_eq (mouse : Option (ℕ × ℕ)) (events : List PointerEvent) :
    record mouse events = Script.lines (rows mouse events) := by
  induction events generalizing mouse with
  | nil => rfl
  | cons e events ih =>
    rw [record, rows, Recorder.pointerLine_eq, ih]
    simp [Script.lines]

/-- The record is read as it was written. -/
theorem universalNewlines_record (mouse : Option (ℕ × ℕ)) (events : List PointerEvent) :
    Script.universalNewlines (record mouse events) = Script.lines (rows mouse events) := by
  rw [← record_eq]
  refine Script.universalNewlines_of_not_mem ?_
  induction events generalizing mouse with
  | nil => exact List.not_mem_nil
  | cons e events ih =>
    rw [record, List.mem_append, not_or]
    refine ⟨?_, ih _⟩
    rw [Recorder.pointerLine_eq]
    simp only [ShellWords.joined, List.mem_append, List.mem_flatMap, List.mem_cons,
      List.not_mem_nil, or_false, not_or, not_exists, not_and]
    refine ⟨fun w hw => ?_, by decide⟩
    have hplain := Recorder.plain_pointerWords hw
    refine ⟨?_, by decide⟩
    rw [hplain.quote]
    exact hplain.not_mem

open Script in
/-- An event becomes its calls. -/
theorem builds_event (shell : Shell) (mouse : Option (ℕ × ℕ)) (e : PointerEvent) :
    Builds shell ((Recorder.pointerWords e.elapsed mouse e.x.toNat e.y.toNat
      e.buttonmask.toNat).map String.ofList) (calls mouse e) := by
  have hclicks : ∀ buttons : List ℕ, Builds shell
      ((buttons.flatMap fun button => ["click".toList, Recorder.decimal button]).map String.ofList)
      (buttons.map fun button : ℕ => .mousePress button) := by
    intro buttons
    induction buttons with
    | nil => exact builds_nil
    | cons button buttons ih => exact (builds_click button).append ih
  unfold Recorder.pointerWords calls
  rw [List.map_append, List.map_append]
  refine Builds.append (Builds.append (builds_pause e.elapsed) ?_) (hclicks _)
  unfold position
  split_ifs
  · exact builds_move e.x.toNat e.y.toNat
  · exact builds_nil

open Script in
theorem builds_rows (shell : Shell) (mouse : Option (ℕ × ℕ)) (events : List PointerEvent) :
    Builds shell ((rows mouse events).flatten.map String.ofList) (allCalls mouse events) := by
  induction events generalizing mouse with
  | nil => exact builds_nil
  | cons e events ih =>
    rw [rows, List.flatten_cons, List.map_append]
    exact (builds_event shell mouse e).append (ih _)

/-! ## What the calls send -/

/-- The messages that the calls of an event send. -/
def sends (mouse : Option (ℕ × ℕ)) (e : PointerEvent) : List ClientMessage :=
  (if mouse ≠ some e.position then [.pointerEvent e.x.toNat e.y.toNat 0] else []) ++
    (Recorder.buttonsIn e.buttonmask.toNat).flatMap fun button =>
      [.pointerEvent e.x.toNat e.y.toNat (1 <<< (button - 1) : ℕ),
        .pointerEvent e.x.toNat e.y.toNat 0]

/-- The messages of all events. -/
def allSends (mouse : Option (ℕ × ℕ)) : List PointerEvent → List ClientMessage
  | [] => []
  | e :: events => sends mouse e ++ allSends (some e.position) events

variable (keyboard : Keyboard) {s : InputState}

open Input in
/-- The clicks of an event, all buttons up before it. -/
theorem performs_clicks {x y : ℕ} (hx : x < 65536) (hy : y < 65536) (hup : s.buttons = 0)
    (hsx : s.x = x) (hsy : s.y = y) {buttons : List ℕ}
    (hbuttons : ∀ button ∈ buttons, 1 ≤ button ∧ button ≤ 8) :
    Performs keyboard (buttons.map fun button : ℕ => .mousePress button) s
      { s with sent := s.sent ++ buttons.flatMap fun button =>
        [.pointerEvent x y (1 <<< (button - 1) : ℕ), .pointerEvent x y 0] } := by
  induction buttons generalizing s with
  | nil => simpa using performs_nil
  | cons button buttons ih =>
    rw [List.forall_mem_cons] at hbuttons
    obtain ⟨⟨hfirst, hlast⟩, hbuttons⟩ := hbuttons
    have hpress := InputState.run_mousePress hx hy hup hsx hsy hfirst hlast
    have hone : Performs keyboard [.mousePress button] s { s with
        sent := s.sent ++ [.pointerEvent x y (1 <<< (button - 1) : ℕ), .pointerEvent x y 0] } := by
      refine performs_one ?_
      unfold perform
      rw [EStateM.run_bind, hpress]
      rfl
    have hrest := ih (s := { s with
      sent := s.sent ++ [.pointerEvent x y (1 <<< (button - 1) : ℕ), .pointerEvent x y 0] })
      hup hsx hsy hbuttons
    rw [List.flatMap_cons, ← List.append_assoc]
    exact hone.append hrest

theorem mem_buttonsIn {button buttonmask : ℕ} :
    button ∈ Recorder.buttonsIn buttonmask ↔
      (1 ≤ button ∧ button ≤ 8) ∧ buttonmask.testBit (button - 1) = true := by
  have hbit : buttonmask &&& 1 <<< (button - 1) ≠ 0 ↔ buttonmask.testBit (button - 1) = true := by
    rw [Nat.one_shiftLeft, Nat.and_two_pow]
    cases buttonmask.testBit (button - 1) <;> simp
  unfold Recorder.buttonsIn
  rw [List.mem_filter, decide_eq_true_eq, hbit, List.mem_range'_1]
  constructor
  · exact fun ⟨h, hset⟩ => ⟨⟨h.1, by omega⟩, hset⟩
  · exact fun ⟨h, hset⟩ => ⟨⟨h.1, by omega⟩, hset⟩

open Input in
/-- The calls of an event move the pointer there and send its messages. -/
theorem performs_event {mouse : Option (ℕ × ℕ)} (e : PointerEvent) (hup : s.buttons = 0)
    (hmouse : ∀ position, mouse = some position → s.x = position.1 ∧ s.y = position.2) :
    Performs keyboard (calls mouse e) s
      { s with x := e.x.toNat, y := e.y.toNat, sent := s.sent ++ sends mouse e } := by
  have hx : e.x.toNat < 65536 := e.x.toNat_lt
  have hy : e.y.toNat < 65536 := e.y.toNat_lt
  have hbuttons : ∀ button ∈ Recorder.buttonsIn e.buttonmask.toNat, 1 ≤ button ∧ button ≤ 8 :=
    fun button h => (mem_buttonsIn.mp h).1
  unfold calls sends
  rw [List.append_assoc]
  refine (performs_pause e.elapsed).append ?_
  by_cases hmoved : mouse = some e.position
  · obtain ⟨hsx, hsy⟩ := hmouse _ hmoved
    have hclicks := performs_clicks keyboard hx hy hup hsx hsy hbuttons
    have hstay : s = { s with x := e.x.toNat, y := e.y.toNat } := by
      rw [← show s.x = e.x.toNat from hsx, ← show s.y = e.y.toNat from hsy]
    rw [if_neg (not_not_intro hmoved), if_neg (not_not_intro hmoved)]
    rw [← show s.x = e.x.toNat from hsx, ← show s.y = e.y.toNat from hsy] at hclicks ⊢
    exact hclicks
  · have hmove : Performs keyboard [.mouseMove e.x.toNat e.y.toNat] s
        { s with
          x := e.x.toNat, y := e.y.toNat,
          sent := s.sent ++ [.pointerEvent e.x.toNat e.y.toNat 0] } := by
      refine performs_one ?_
      unfold perform
      rw [EStateM.run_bind, InputState.run_mouseMove hx hy hup]
      rfl
    have hclicks := performs_clicks keyboard
      (s := { s with
        x := e.x.toNat, y := e.y.toNat,
        sent := s.sent ++ [.pointerEvent e.x.toNat e.y.toNat 0] }) hx hy hup rfl rfl hbuttons
    rw [if_pos hmoved, if_pos hmoved, ← List.append_assoc]
    exact hmove.append hclicks

open Input in
/-- The calls of all events. -/
theorem performs_allCalls (mouse : Option (ℕ × ℕ)) (events : List PointerEvent)
    (hup : s.buttons = 0)
    (hmouse : ∀ position, mouse = some position → s.x = position.1 ∧ s.y = position.2) :
    ∃ s', Performs keyboard (allCalls mouse events) s s' ∧
      s'.sent = s.sent ++ allSends mouse events := by
  induction events generalizing mouse s with
  | nil => exact ⟨s, performs_nil, (List.append_nil _).symm⟩
  | cons e events ih =>
    have hevent := performs_event keyboard e hup hmouse
    have hposition : ∀ position, some e.position = some position →
        (e.x.toNat : ℤ) = position.1 ∧ (e.y.toNat : ℤ) = position.2 := by
      rintro position ⟨rfl⟩
      exact ⟨rfl, rfl⟩
    obtain ⟨s', hrest, hsent⟩ := ih (s := { s with
      x := e.x.toNat, y := e.y.toNat, sent := s.sent ++ sends mouse e }) _ hup hposition
    refine ⟨s', hevent.append hrest, ?_⟩
    rw [hsent, allSends, List.append_assoc]

/-! ## Presses and releases -/

variable {button : ℕ} {messages : List ClientMessage} {events : List PointerEvent}

/-- Whether an event has a button down. -/
def has (e : PointerEvent) (button : ℕ) : Bool := e.buttonmask.toNat.testBit (button - 1)

/-- A press in place, and its release. -/
def click (e : PointerEvent) : List Transition :=
  [⟨true, e.x.toNat, e.y.toNat⟩, ⟨false, e.x.toNat, e.y.toNat⟩]

/-- What a replay puts a button through. -/
def clicks (button : ℕ) (events : List PointerEvent) : List Transition :=
  events.flatMap fun e => if e.has button then e.click else []

theorem holds_zero : holds 0 button = false := by simp [holds]

/-- The mask of one button has that button down, and no other. -/
theorem holds_bit {other : ℕ} (hbutton : 1 ≤ button) (hother : 1 ≤ other) :
    holds (1 <<< (other - 1) : ℕ) button = decide (other = button) := by
  unfold holds
  rw [Int.toNat_natCast, Nat.one_shiftLeft, Nat.testBit_two_pow]
  exact decide_eq_decide.mpr (by omega)

/-- One click. -/
theorem transitions_click (e : PointerEvent) {other : ℕ} (hbutton : 1 ≤ button)
    (hother : 1 ≤ other) :
    transitions button false
      (.pointerEvent e.x.toNat e.y.toNat (1 <<< (other - 1) : ℕ) ::
        .pointerEvent e.x.toNat e.y.toNat 0 :: messages) =
      (if other = button then e.click else []) ++ transitions button false messages := by
  rw [transitions, holds_bit hbutton hother]
  by_cases hsame : other = button
  · simp [hsame, transitions, holds_zero, click]
  · simp [hsame, transitions, holds_zero]

/-- Clicks put a button through a press and a release if it is among them. -/
theorem transitions_clicks (e : PointerEvent) (hbutton : 1 ≤ button) {buttons : List ℕ}
    (hbuttons : ∀ other ∈ buttons, 1 ≤ other) (hnodup : buttons.Nodup) :
    transitions button false ((buttons.flatMap fun other =>
        [.pointerEvent e.x.toNat e.y.toNat (1 <<< (other - 1) : ℕ),
          .pointerEvent e.x.toNat e.y.toNat 0]) ++ messages) =
      (if button ∈ buttons then e.click else []) ++ transitions button false messages := by
  induction buttons with
  | nil => rfl
  | cons other buttons ih =>
    rw [List.forall_mem_cons] at hbuttons
    rw [List.nodup_cons] at hnodup
    rw [List.flatMap_cons, List.append_assoc, List.cons_append, List.singleton_append,
      transitions_click e hbutton hbuttons.1, ih hbuttons.2 hnodup.2]
    by_cases hsame : other = button
    · subst hsame
      simp [hnodup.1]
    · simp [hsame, Ne.symm hsame]

/-- A replay clicks a button in every event that has it down. -/
theorem transitions_allSends {mouse : Option (ℕ × ℕ)} (hfirst : 1 ≤ button) (hlast : button ≤ 8) :
    transitions button false (allSends mouse events) = clicks button events := by
  induction events generalizing mouse with
  | nil => rfl
  | cons e events ih =>
    have hmem : (button ∈ Recorder.buttonsIn e.buttonmask.toNat) = (e.has button = true) := by
      rw [mem_buttonsIn, eq_iff_iff]
      exact ⟨fun h => h.2, fun h => ⟨⟨hfirst, hlast⟩, h⟩⟩
    have hmove : ∀ rest, transitions button false
        ((if mouse ≠ some e.position then [.pointerEvent e.x.toNat e.y.toNat 0] else []) ++ rest) =
        transitions button false rest := by
      intro rest
      split_ifs
      · simp [transitions, holds_zero]
      · rfl
    rw [allSends, sends, List.append_assoc, hmove, transitions_clicks e hfirst
      (fun other h => (mem_buttonsIn.mp h).1.1)
      (List.Nodup.filter _ List.nodup_range'), ih]
    simp [clicks, hmem]

/-- A button is let go of in the event after each that has it down, in place. -/
def Clicked (button : ℕ) : List PointerEvent → Prop
  | [] => True
  | [e] => e.has button = false
  | e :: e' :: events =>
    (e.has button = true → e'.position = e.position ∧ e'.has button = false) ∧
      Clicked button (e' :: events)

/-- An event takes a button where it has it. -/
theorem transitions_cons {held : Bool} (e : PointerEvent) :
    transitions button held ((e :: events).map message) =
      if e.has button = held then transitions button held (events.map message)
      else ⟨e.has button, e.x.toNat, e.y.toNat⟩ ::
        transitions button (e.has button) (events.map message) := by
  rfl

/-- No more presses than events that have the button down. -/
theorem presses_le {held : Bool} :
    (transitions button held (events.map message)).countP (·.down) ≤
      (clicks button events).countP (·.down) := by
  induction events generalizing held with
  | nil => exact Nat.le_refl 0
  | cons e events ih =>
    have hclicks : (clicks button (e :: events)).countP (·.down) =
        (if e.has button then 1 else 0) + (clicks button events).countP (·.down) := by
      unfold clicks
      rw [List.flatMap_cons, List.countP_append]
      cases e.has button <;> rfl
    rw [transitions_cons, hclicks]
    cases hhas : e.has button <;> cases held
    · exact (ih).trans (by simp)
    · simpa using ih
    · simpa [Nat.add_comm] using ih
    · exact (ih).trans (by simp)

/-- A replay puts a button through what the events did exactly where it was clicked in them. -/
theorem transitions_eq_clicks_iff :
    transitions button false (events.map message) = clicks button events ↔
      Clicked button events := by
  induction events with
  | nil => exact ⟨fun _ => trivial, fun _ => rfl⟩
  | cons e events ih =>
    have hcons : clicks button (e :: events) =
        (if e.has button then e.click else []) ++ clicks button events := rfl
    rw [transitions_cons, hcons]
    cases hhas : e.has button with
    | false =>
      simp only [if_true, Bool.false_eq_true, if_false, List.nil_append]
      rw [ih]
      cases events with
      | nil => simp [Clicked, hhas]
      | cons e' events => simp [Clicked, hhas]
    | true =>
      simp only [Bool.true_eq_false, if_false, if_true, click, List.cons_append, List.nil_append,
        List.cons.injEq, true_and]
      cases events with
      | nil => simp [transitions, Clicked, hhas]
      | cons e' events =>
        rw [transitions_cons] at ih ⊢
        have hcons' : clicks button (e' :: events) =
            (if e'.has button then e'.click else []) ++ clicks button events := rfl
        rw [hcons'] at ih ⊢
        cases hhas' : e'.has button with
        | false =>
          simp only [hhas', if_true, Bool.false_eq_true, if_false, List.nil_append] at ih ⊢
          rw [List.cons.injEq, ih, Clicked, hhas, hhas']
          simp [position, eq_comm]
        | true =>
          -- the button is held, and there are too few presses
          constructor
          · intro h
            simp only [if_true] at h
            have hcount : (transitions button true (events.map message)).countP (·.down) ≤
                (clicks button events).countP (·.down) := presses_le
            rw [h, List.countP_cons_of_neg (by simp)] at hcount
            simp [click] at hcount
          · intro h
            exact absurd (h.1 hhas).2 (by simp [hhas'])

/-! ## Masks -/

/-- A mask without buttons. -/
theorem eq_zero_iff {buttonmask : UInt8} :
    buttonmask = 0 ↔
      ∀ button, 1 ≤ button → button ≤ 8 → buttonmask.toNat.testBit (button - 1) = false := by
  constructor
  · rintro rfl button - -
    exact Nat.zero_testBit _
  · intro h
    have hzero : buttonmask.toNat = 0 := by
      refine Nat.eq_of_testBit_eq fun i => ?_
      rw [Nat.zero_testBit]
      by_cases hi : i < 8
      · exact h (i + 1) (by omega) (by omega)
      · refine Nat.testBit_lt_two_pow (lt_of_lt_of_le buttonmask.toNat_lt ?_)
        exact Nat.pow_le_pow_right (by decide) (by omega : 8 ≤ i)
    exact UInt8.toNat_inj.mp hzero

/-- Two masks without a common button. -/
theorem and_eq_zero_iff {e e' : PointerEvent} :
    e.buttonmask &&& e'.buttonmask = 0 ↔
      ∀ button, 1 ≤ button → button ≤ 8 → e.has button = true → e'.has button = false := by
  rw [eq_zero_iff]
  simp only [UInt8.toNat_and, Nat.testBit_and, has]
  refine forall₃_congr fun button _ _ => ?_
  cases e.buttonmask.toNat.testBit (button - 1) <;> simp

/-- Letting go of everything is clicking each button. -/
theorem released_iff : Released events ↔
    ∀ button, 1 ≤ button → button ≤ 8 → Clicked button events := by
  induction events with
  | nil => exact ⟨fun _ _ _ _ => trivial, fun _ => trivial⟩
  | cons e events ih =>
    cases events with
    | nil => exact eq_zero_iff
    | cons e' events =>
      rw [Released, ih, and_eq_zero_iff]
      constructor
      · rintro ⟨hnext, hrest⟩ button hfirst hlast
        refine ⟨fun hhas => ?_, hrest button hfirst hlast⟩
        have hdown : e.buttonmask ≠ 0 := fun hzero =>
          absurd (eq_zero_iff.mp hzero button hfirst hlast) (by rw [← has, hhas]; decide)
        exact ⟨(hnext hdown).1, (hnext hdown).2 button hfirst hlast hhas⟩
      · intro h
        refine ⟨fun hdown => ⟨?_, fun button hfirst hlast hhas => ?_⟩,
          fun button hfirst hlast => (h button hfirst hlast).2⟩
        · have hsome : ∃ button, 1 ≤ button ∧ button ≤ 8 ∧ e.has button = true := by
            by_contra hnone
            push Not at hnone
            refine hdown (eq_zero_iff.mpr fun button hfirst hlast => ?_)
            exact Bool.eq_false_iff.mpr (hnone button hfirst hlast)
          obtain ⟨button, hfirst, hlast, hhas⟩ := hsome
          exact ((h button hfirst hlast).1 hhas).1
        · exact ((h button hfirst hlast).1 hhas).2

/-! ## The replay -/

/-- What a replay sends: the record becomes calls that nothing keeps from being made. -/
theorem replays_iff_clicked (keyboard : Keyboard) (events : List PointerEvent) :
    Replays keyboard events ↔ ∀ button, 1 ≤ button → button ≤ 8 → Clicked button events := by
  have hbuild := Script.build_session (universalNewlines_record none events)
    (builds_rows (Script.sessionShell (record none events)) none events)
  obtain ⟨fuel, hbuild⟩ := hbuild
  obtain ⟨s, hperforms, hsent⟩ := performs_allCalls keyboard (s := {}) none events rfl
    (fun _ h => absurd h (by simp))
  rw [show ({} : InputState).sent = [] from rfl, List.nil_append] at hsent
  have hbuttons : (∀ button, 1 ≤ button → button ≤ 8 →
        transitions button false s.sent = transitions button false (events.map message)) ↔
      ∀ button, 1 ≤ button → button ≤ 8 → Clicked button events := by
    refine forall₃_congr fun button hfirst hlast => ?_
    rw [hsent, transitions_allSends hfirst hlast, eq_comm, transitions_eq_clicks_iff]
  rw [← hbuttons]
  constructor
  · rintro ⟨fuel', inputs, s', hbuild', hperforms', hsame⟩
    have hinputs : inputs = allCalls none events := by
      have heq := Script.build_unique hbuild' hbuild
      rw [Except.ok.injEq] at heq
      exact (List.map_injective_iff.mpr fun _ _ h => by simpa using h) heq
    rw [hinputs] at hperforms'
    have heq := hperforms'.symm.trans hperforms
    simp only [EStateM.Result.ok.injEq, true_and] at heq
    exact heq ▸ hsame
  · exact fun hsame => ⟨fuel, _, s, hbuild, hperforms, hsame⟩

/-- A record replays as the events it was made of exactly where every event with buttons down is
followed by one in the same place that has all of them up. -/
theorem replays_iff_released (keyboard : Keyboard) (events : List PointerEvent) :
    Replays keyboard events ↔ Released events :=
  (replays_iff_clicked keyboard events).trans released_iff.symm

/-- A button that is held across a move is replayed as two clicks. -/
theorem not_replays_drag :
    ¬Replays {} [⟨1, 1, 1, ⟨0, 0⟩⟩, ⟨5, 1, 1, ⟨0, 0⟩⟩, ⟨5, 1, 0, ⟨0, 0⟩⟩] := by
  rw [replays_iff_clicked]
  intro h
  exact absurd ((h 1 (by decide) (by decide)).1 (by decide)).2 (by decide)

end PointerEvent

end VncDoTool
