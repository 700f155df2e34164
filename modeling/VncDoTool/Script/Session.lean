import VncDoTool.DoTool.Input
import VncDoTool.Proxy.Recorder

/-!
# Reading a recorded session back

A session that the proxy recorded is a script: what its lines are built into, and what running it
comes to.

* `Script.Builds`: words that become calls of the client, whatever words follow.
* `Script.build_session`: the recorded lines, read from their file.
* `Input.Performs`: calls that take a client from one state to another.
-/

namespace VncDoTool

namespace Script

open Recorder (Word)

/-! ## Building -/

variable {shell : Shell} {words words' : List String} {inputs inputs' : List Input}

/-- The words become these calls, whatever follows them. -/
def Builds (shell : Shell) (words : List String) (inputs : List Input) : Prop :=
  ∀ args rest fuel, build shell {} fuel args = some (.ok rest) →
    ∃ fuel', build shell {} fuel' (words ++ args) = some (.ok (inputs.map .input ++ rest))

theorem builds_nil : Builds shell [] [] := fun _ _ fuel h => ⟨fuel, h⟩

theorem Builds.append (h : Builds shell words inputs) (h' : Builds shell words' inputs') :
    Builds shell (words ++ words') (inputs ++ inputs') := by
  intro args rest fuel hargs
  obtain ⟨fuel', hwords'⟩ := h' args rest fuel hargs
  obtain ⟨fuel'', hwords⟩ := h _ _ fuel' hwords'
  exact ⟨fuel'', by simpa using hwords⟩

/-- The words of one command. -/
theorem builds_command {cmd : String} {operands : List String}
    (h : ∀ args, (parse shell {} cmd).run (operands ++ args) = .ok (inputs.map .input, args)) :
    Builds shell (cmd :: operands) inputs := by
  intro args rest fuel hargs
  refine ⟨fuel + 1, ?_⟩
  rw [List.cons_append, build]
  simp only [h args, hargs, delays]
  simp [Except.map]

theorem run_pop (word : String) (args : List String) :
    pop.run (word :: args) = .ok (word, args) := rfl

/-- What comes after code that went well. -/
theorem run_bind_ok {α β : Type} {code : Parse α} {next : α → Parse β} {v : α}
    {args args' : List String} (h : code.run args = .ok (v, args')) :
    (code >>= next).run args = (next v).run args' := by
  rw [StateT.run_bind, h]
  rfl

theorem run_popInt {word : String} {n : ℤ} (h : PyNumber.int word.toList = some n)
    (args : List String) : popInt.run (word :: args) = .ok (n, args) := by
  unfold popInt
  rw [run_bind_ok (run_pop word args)]
  simp only [h]
  rfl

theorem run_popFloat {word : String} {value : PyFloat} (h : PyNumber.float word.toList = some value)
    (args : List String) : popFloat.run (word :: args) = .ok (value, args) := by
  unfold popFloat
  rw [run_bind_ok (run_pop word args)]
  simp only [h]
  rfl

/-- The digits of a number, as a word of a script. -/
theorem int_decimal (n : ℕ) :
    PyNumber.int (String.ofList (Recorder.decimal n)).toList = some (n : ℤ) := by
  rw [String.toList_ofList]
  exact PyNumber.int_toDigits n

theorem builds_pause (t : Seconds) :
    Builds shell ["pause", String.ofList t.text] [.pause (.finite t.value)] := by
  refine builds_command fun args => ?_
  have hfloat : PyNumber.float (String.ofList t.text).toList = some (.finite t.value) := by
    rw [String.toList_ofList, t.float_text]
  have hwarped : warped 1 (.finite t.value) = .ok (.finite t.value) := by
    simp [warped]
  have hparse : parse shell {} "pause" = (do
      let duration ← popFloat
      let duration ← (warped 1 duration : Except CommandError PyFloat)
      pure [.input (.pause duration)]) := rfl
  rw [hparse, List.singleton_append, run_bind_ok (run_popFloat hfloat args), hwarped]
  rfl

theorem builds_move (x y : ℕ) :
    Builds shell
      ["move", String.ofList (Recorder.decimal x), String.ofList (Recorder.decimal y)]
      [.mouseMove x y] := by
  refine builds_command fun args => ?_
  have hparse : parse shell {} "move" = (do
      let x ← popInt
      let y ← popInt
      pure [.input (.mouseMove x y)]) := rfl
  rw [hparse, List.cons_append, List.singleton_append, run_bind_ok (run_popInt (int_decimal x) _),
    run_bind_ok (run_popInt (int_decimal y) _)]
  rfl

theorem builds_click (button : ℕ) :
    Builds shell ["click", String.ofList (Recorder.decimal button)] [.mousePress button] := by
  refine builds_command fun args => ?_
  have hparse : parse shell {} "click" = (do
      let button ← popInt
      pure [.input (.mousePress button)]) := rfl
  rw [hparse, List.singleton_append, run_bind_ok (run_popInt (int_decimal button) args)]
  rfl

theorem builds_keydown (key : String) : Builds shell ["keydown", key] [.keyDown key] :=
  builds_command fun _ => rfl

theorem builds_keyup (key : String) : Builds shell ["keyup", key] [.keyUp key] :=
  builds_command fun _ => rfl

/-- More fuel changes nothing. -/
theorem build_succ {o : Options} {fuel : ℕ} {args : List String}
    {result : Except CommandError (List Command)} (h : build shell o fuel args = some result) :
    build shell o (fuel + 1) args = some result := by
  induction fuel generalizing args result with
  | zero =>
    cases args with
    | nil => exact h
    | cons cmd args => exact absurd h (by simp [build])
  | succ fuel ih =>
    cases args with
    | nil => exact h
    | cons cmd args =>
      rw [build] at h ⊢
      cases hparse : (parse shell o cmd).run args with
      | error e =>
        rw [hparse] at h
        exact h
      | ok v =>
        rw [hparse] at h
        obtain ⟨rest, hrest, hresult⟩ := Option.map_eq_some_iff.mp h
        exact Option.map_eq_some_iff.mpr ⟨rest, ih hrest, hresult⟩

/-- The words alone decide what they become. -/
theorem build_unique {o : Options} {fuel fuel' : ℕ} {args : List String}
    {result result' : Except CommandError (List Command)}
    (h : build shell o fuel args = some result) (h' : build shell o fuel' args = some result') :
    result = result' := by
  have hmore : ∀ n, build shell o (fuel + n) args = some result := by
    intro n
    induction n with
    | zero => exact h
    | succ n ih => exact build_succ ih
  have hmore' : ∀ n, build shell o (fuel' + n) args = some result' := by
    intro n
    induction n with
    | zero => exact h'
    | succ n ih => exact build_succ ih
  have hsame := (hmore fuel').symm.trans (Nat.add_comm fuel fuel' ▸ hmore' fuel)
  exact Option.some.inj hsame

/-! ## The file -/

/-- A machine on which a session was recorded. -/
def sessionShell (text : List Char) : Shell where
  file name := if name = "session.vdo" then some text else none

/-- Lines of words. -/
def lines (rows : List (List Word)) : List Char :=
  rows.flatMap fun row => ShellWords.joined row ++ ['\n']

/-- They are read back, word by word. -/
theorem split_lines (rows : List (List Word)) : ShellWords.split (lines rows) = some rows.flatten := by
  unfold ShellWords.split
  induction rows with
  | nil => rfl
  | cons row rows ih =>
    have hcons : lines (row :: rows) = ShellWords.joined row ++ ('\n' :: lines rows) := by
      simp [lines]
    rw [hcons, ShellWords.lex_joined, ShellWords.lex_space rfl, ih]
    rfl

/-- A text without carriage returns is read as it is. -/
theorem universalNewlines_of_not_mem {text : List Char} (h : '\r' ∉ text) :
    universalNewlines text = text := by
  induction text with
  | nil => rfl
  | cons c text ih =>
    rw [List.mem_cons, not_or] at h
    have hne : c ≠ '\r' := fun hc => h.1 hc.symm
    rw [universalNewlines, ih h.2]
    · exact fun _ hc _ => hne hc
    · exact hne

/-- A session file that holds such lines becomes the calls of its words. -/
theorem build_session {text : List Char} {rows : List (List Word)}
    (htext : universalNewlines text = lines rows)
    (h : Builds (sessionShell text) (rows.flatten.map String.ofList) inputs) :
    ∃ fuel, build (sessionShell text) {} fuel ["session.vdo"] = some (.ok (inputs.map .input)) := by
  obtain ⟨fuel, hbuild⟩ := h [] [] 0 rfl
  have hparse : (parse (sessionShell text) {} "session.vdo").run [] =
      .ok ([], rows.flatten.map String.ofList) := by
    have hread : parse (sessionShell text) {} "session.vdo" =
        insertWords (ShellWords.split (universalNewlines text)) := rfl
    rw [hread, htext, split_lines]
    change Except.ok ([], rows.flatten.map String.ofList ++ []) = _
    rw [List.append_nil]
  refine ⟨fuel + 1, ?_⟩
  rw [List.append_nil] at hbuild
  rw [build]
  simp only [hparse, hbuild, delays]
  simp [Except.map]

end Script

/-! ## Running -/

namespace Input

variable {keyboard : Keyboard} {s s' s'' : InputState} {inputs inputs' : List Input}

/-- The calls take a client from one state to another, and none raises. -/
def Performs (keyboard : Keyboard) (inputs : List Input) (s s' : InputState) : Prop :=
  (performAll keyboard inputs).run s = .ok true s'

theorem performs_nil : Performs keyboard [] s s := rfl

theorem performs_one {input : Input} (h : (input.perform keyboard).run s = .ok true s') :
    Performs keyboard [input] s s' := by
  unfold Performs performAll
  rw [EStateM.run_bind, h]
  rfl

theorem Performs.append (h : Performs keyboard inputs s s') (h' : Performs keyboard inputs' s' s'') :
    Performs keyboard (inputs ++ inputs') s s'' := by
  induction inputs generalizing s with
  | nil =>
    have hsame : s = s' := by simpa [Performs, performAll] using h
    exact hsame ▸ h'
  | cons input inputs ih =>
    unfold Performs at h ⊢
    rw [List.cons_append]
    rw [performAll, EStateM.run_bind] at h ⊢
    cases hinput : (input.perform keyboard).run s with
    | error e s₁ =>
      rw [hinput] at h
      exact absurd h (by simp)
    | ok goesOn s₁ =>
      rw [hinput] at h
      cases goesOn with
      | false => exact absurd h (by simp)
      | true => exact ih h

/-- A pause changes nothing. -/
theorem performs_pause (t : Seconds) : Performs keyboard [.pause (.finite t.value)] s s := by
  refine performs_one ?_
  simp [perform, waits, t.value_nonneg]

end Input

end VncDoTool
