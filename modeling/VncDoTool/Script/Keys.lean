import VncDoTool.Script.Session

/-!
# Recorded key events, replayed

The lines that `handle_keyEvent` records name a key, or quote the character its keysym stands for.

* `KeyEvent.record`: what is recorded of a sequence of events.
* `KeyEvent.Replays`: replaying the record sends the events again.
* `KeyEvent.replays_iff`: it does where every keysym is a character that a file takes, and no
  carriage return.
-/

namespace VncDoTool

/-- A KeyEvent that reaches the proxy, and the time since the event before it. -/
structure KeyEvent : Type where
  key : UInt32
  down : UInt8
  elapsed : Seconds

namespace KeyEvent

/-- The message it came in. -/
def message (e : KeyEvent) : ClientMessage := .keyEvent e.key.toNat (e.down ≠ 0)

/-- What a proxy records of events, `none` where it raises. -/
def record : List KeyEvent → Option (List Char)
  | [] => some []
  | e :: events => do
    let line ← Recorder.keyLine e.elapsed e.key.toNat e.down.toNat
    let rest ← record events
    pure (line ++ rest)

/-- The events are recorded, and replaying the record sends them again. -/
def Replays (keyboard : Keyboard) (events : List KeyEvent) : Prop :=
  ∃ text fuel inputs s,
    record events = some text ∧
    Script.build (Script.sessionShell text) {} fuel ["session.vdo"] =
      some (.ok (inputs.map .input)) ∧
    (Input.performAll keyboard inputs).run {} = .ok true s ∧ s.sent = events.map message

/-! ## Names -/

/-- Every name is one part of a key, and is read as its keysym. -/
theorem keymap_names : ∀ entry ∈ keymap,
    keysymOf entry.1 = some entry.2 ∧ entry.1.toList.splitOn '-' = [entry.1.toList] ∧
      entry.1.length ≠ 1 ∧ entry.1.toList.all ShellWords.isSafe = true := by
  decide +kernel

/-- A keysym's name is in the map. -/
theorem mem_keymap_of_nameOf {key : ℕ} {name : String} (h : nameOf key = some name) :
    (name, key) ∈ keymap := by
  obtain ⟨entry, hfind, rfl⟩ := Option.map_eq_some_iff.mp h
  have hmem := List.mem_of_find?_eq_some hfind
  have hkey := List.find?_some hfind
  rw [decide_eq_true_eq] at hkey
  rw [← hkey]
  exact List.mem_reverse.mp hmem

variable (isUpper : String → Bool) {key : ℕ}

/-- A valid code is the code of its character. -/
theorem toNat_ofNat (h : key.isValidChar) : (Char.ofNat key).toNat = key := by
  unfold Char.ofNat
  rw [dif_pos h]
  rfl

open InputState in
/-- What a key is recorded as is read back as its keysym. -/
theorem decodeKey_keyName (h : key.isValidChar) :
    decodeKey ⟨false, isUpper⟩ (String.ofList (Recorder.keyName key (Char.ofNat key))) =
      .ok [key] := by
  have hcaps : ∀ k, capital ⟨false, isUpper⟩ k = .ok k := fun k => by simp [capital]
  unfold decodeKey
  rw [hcaps]
  simp only [bind, Except.bind]
  unfold Recorder.keyName
  cases hname : nameOf key with
  | some name =>
    have hmem := mem_keymap_of_nameOf hname
    obtain ⟨hkeysym, hsplit, hlength, -⟩ := keymap_names _ hmem
    simp only [Option.map_some, Option.getD_some, String.ofList_toList]
    rw [if_neg hlength, hsplit]
    simp [keysym, hkeysym]
  | none =>
    have hchar : (Char.ofNat key).toNat = key := toNat_ofNat h
    have hunnamed : keysymOf (String.ofList [Char.ofNat key]) = none := by
      unfold keysymOf
      by_contra hsome
      obtain ⟨value, hvalue⟩ := Option.ne_none_iff_exists'.mp hsome
      obtain ⟨before, after, hsplit, -⟩ := List.lookup_eq_some_iff.mp hvalue
      have hmem : (String.ofList [Char.ofNat key], value) ∈ keymap := by simp [hsplit]
      exact (keymap_names _ hmem).2.2.1 (by simp)
    simp only [Option.map_none, Option.getD_none]
    rw [if_pos (by simp)]
    rw [List.mapM_cons, keysym, hunnamed]
    simp [hchar]

/-! ## The file -/

/-- The keysym that comes back: a carriage return is read as the end of a line. -/
def filed (key : ℕ) : ℕ := if key = 13 then 10 else key

/-- The words of an event with this keysym in place of its own. -/
def words (e : KeyEvent) (key : ℕ) : List Recorder.Word :=
  Recorder.keyWords e.elapsed key e.down.toNat (Char.ofNat key)

/-- An event whose keysym is a character is recorded. -/
theorem record_eq_some_iff {events : List KeyEvent} {text : List Char} :
    record events = some text ↔
      (∀ e ∈ events, e.key.toNat.isValidChar) ∧
        text = Script.lines (events.map fun e => e.words e.key.toNat) := by
  induction events generalizing text with
  | nil => simp [record, Script.lines, eq_comm]
  | cons e events ih =>
    rw [record, Recorder.keyLine_eq, Recorder.chr, List.forall_mem_cons]
    by_cases hvalid : e.key.toNat.isValidChar
    · rw [if_pos hvalid]
      cases hrest : record events with
      | none =>
        have hnone : ¬∀ e ∈ events, e.key.toNat.isValidChar := fun hall =>
          absurd (ih.mpr ⟨hall, rfl⟩) (by simp [hrest])
        simp [hnone]
      | some rest =>
        obtain ⟨hall, rfl⟩ := ih.mp hrest
        have hcons : Script.lines ((e :: events).map fun e => e.words e.key.toNat) =
            ShellWords.joined (e.words e.key.toNat) ++ ['\n'] ++
              Script.lines (events.map fun e => e.words e.key.toNat) := rfl
        rw [hcons]
        constructor
        · rintro ⟨rfl⟩
          exact ⟨⟨hvalid, hall⟩, rfl⟩
        · rintro ⟨-, rfl⟩
          rfl
    · simp [hvalid]

/-- What has no carriage return is read as it is, whatever comes behind it. -/
theorem universalNewlines_append {before text : List Char} (h : '\r' ∉ before) :
    Script.universalNewlines (before ++ text) = before ++ Script.universalNewlines text := by
  induction before with
  | nil => rfl
  | cons c before ih =>
    rw [List.mem_cons, not_or] at h
    have hne : c ≠ '\r' := fun hc => h.1 hc.symm
    rw [List.cons_append, Script.universalNewlines, ih h.2, List.cons_append]
    · exact fun _ hc _ => hne hc
    · exact hne

/-- The name of a key has a carriage return where its keysym is one. -/
theorem not_mem_keyName (h : key.isValidChar) (hreturn : key ≠ 13) :
    '\r' ∉ ShellWords.quote (Recorder.keyName key (Char.ofNat key)) := by
  intro hmem
  have hname := ShellWords.mem_of_mem_quote hmem (by decide)
  unfold Recorder.keyName at hname
  cases hnamed : nameOf key with
  | some name =>
    rw [hnamed, Option.map_some, Option.getD_some] at hname
    have hsafe := (keymap_names _ (mem_keymap_of_nameOf hnamed)).2.2.2
    exact absurd (List.all_eq_true.mp hsafe _ hname) (by decide)
  | none =>
    rw [hnamed, Option.map_none, Option.getD_none, List.mem_singleton] at hname
    refine hreturn ?_
    rw [← toNat_ofNat h, ← hname]
    rfl

/-- The line of an event, read back. -/
theorem universalNewlines_words (e : KeyEvent) (h : key.isValidChar) (text : List Char) :
    Script.universalNewlines (ShellWords.joined (e.words key) ++ '\n' :: text) =
      ShellWords.joined (e.words (filed key)) ++ '\n' :: Script.universalNewlines text := by
  have hline : ∀ key, ShellWords.joined (e.words key) =
      ShellWords.joined ["pause".toList, e.elapsed.text,
        if e.down.toNat ≠ 0 then "keydown".toList else "keyup".toList] ++
      (ShellWords.quote (Recorder.keyName key (Char.ofNat key)) ++ [' ']) := by
    intro key
    simp only [words, Recorder.keyWords, ShellWords.joined, List.flatMap_cons, List.flatMap_nil,
      List.append_nil, List.append_assoc]
  have hbefore : '\r' ∉ ShellWords.joined ["pause".toList, e.elapsed.text,
      if e.down.toNat ≠ 0 then "keydown".toList else "keyup".toList] := by
    have htext := (Recorder.plain_text e.elapsed).not_mem
    simp only [ShellWords.joined, List.flatMap_cons, List.flatMap_nil, Recorder.quote_text,
      List.mem_append, not_or]
    refine ⟨⟨by decide, by decide⟩, ⟨htext, by decide⟩, ⟨?_, by decide⟩, List.not_mem_nil⟩
    split_ifs <;> decide
  rw [hline, hline]
  simp only [List.append_assoc]
  rw [universalNewlines_append hbefore]
  congr 1
  -- Only the return key writes a carriage return, and inside the quotes.
  by_cases hreturn : key = 13
  · subst hreturn
    have hquote : ShellWords.quote (Recorder.keyName 13 (Char.ofNat 13)) = ['\'', '\r', '\''] := by
      decide +kernel
    have hfiled : ShellWords.quote (Recorder.keyName (filed 13) (Char.ofNat (filed 13))) =
        ['\'', '\n', '\''] := by
      decide +kernel
    rw [hquote, hfiled]
    rfl
  · have hname := not_mem_keyName h hreturn
    have hsame : filed key = key := if_neg hreturn
    have hend : '\r' ∉ [' ', '\n'] := by decide
    rw [hsame, universalNewlines_append hname]
    congr 1

/-- The whole record, read back. -/
theorem universalNewlines_lines (events : List KeyEvent)
    (h : ∀ e ∈ events, e.key.toNat.isValidChar) :
    Script.universalNewlines (Script.lines (events.map fun e => e.words e.key.toNat)) =
      Script.lines (events.map fun e => e.words (filed e.key.toNat)) := by
  induction events with
  | nil => rfl
  | cons e events ih =>
    rw [List.forall_mem_cons] at h
    have hcons : ∀ row rows, Script.lines (row :: rows) =
        ShellWords.joined row ++ '\n' :: Script.lines rows := by
      intro row rows
      simp [Script.lines]
    rw [List.map_cons, List.map_cons, hcons, hcons, universalNewlines_words e h.1, ih h.2]

/-! ## The replay -/

/-- The calls of an event with this keysym. -/
def calls (e : KeyEvent) (key : ℕ) : List Input :=
  [.pause (.finite e.elapsed.value),
    if e.down ≠ 0 then .keyDown (String.ofList (Recorder.keyName key (Char.ofNat key)))
    else .keyUp (String.ofList (Recorder.keyName key (Char.ofNat key)))]

open Script in
theorem builds_words (shell : Shell) (e : KeyEvent) (key : ℕ) :
    Builds shell ((e.words key).map String.ofList) (e.calls key) := by
  have hdown : e.down.toNat ≠ 0 ↔ e.down ≠ 0 :=
    not_congr (UInt8.toNat_inj (b := 0))
  unfold words Recorder.keyWords calls
  by_cases h : e.down = 0
  · rw [if_neg (fun hne => hdown.mp hne h), if_neg (not_not_intro h)]
    exact (builds_pause e.elapsed).append (builds_keyup _)
  · rw [if_pos (hdown.mpr h), if_pos h]
    exact (builds_pause e.elapsed).append (builds_keydown _)

open Script in
theorem builds_lines (shell : Shell) (events : List KeyEvent) :
    Builds shell
      ((events.map fun e => e.words (filed e.key.toNat)).flatten.map String.ofList)
      (events.flatMap fun e => e.calls (filed e.key.toNat)) := by
  induction events with
  | nil => exact builds_nil
  | cons e events ih =>
    rw [List.map_cons, List.flatten_cons, List.map_append, List.flatMap_cons]
    exact (builds_words shell e _).append ih

variable {s : InputState}

open Input in
/-- The calls of an event send its keysym. -/
theorem performs_calls (e : KeyEvent) (h : key.isValidChar) :
    Performs ⟨false, isUpper⟩ (e.calls key) s
      { s with sent := s.sent ++ [.keyEvent key (e.down ≠ 0)] } := by
  have hkey : key < 2 ^ 32 := by
    rcases h with h | h <;> omega
  have hname := decodeKey_keyName isUpper h
  change Performs _ ([.pause (.finite e.elapsed.value)] ++ [_]) s _
  refine (performs_pause e.elapsed).append (performs_one ?_)
  by_cases hdown : e.down = 0
  · rw [if_neg (not_not_intro hdown), perform, EStateM.run_bind,
      InputState.run_keyUp hname hkey]
    simp [hdown, EStateM.run_pure]
  · rw [if_pos hdown, perform, EStateM.run_bind,
      InputState.run_keyDown hname hkey]
    simp [hdown, EStateM.run_pure]

open Input in
theorem performs_all (events : List KeyEvent) (h : ∀ e ∈ events, e.key.toNat.isValidChar) :
    Performs ⟨false, isUpper⟩ (events.flatMap fun e => e.calls (filed e.key.toNat)) s
      { s with
        sent := s.sent ++ events.map fun e => .keyEvent (filed e.key.toNat) (e.down ≠ 0) } := by
  induction events generalizing s with
  | nil => simpa using performs_nil
  | cons e events ih =>
    rw [List.forall_mem_cons] at h
    have hfiled : (filed e.key.toNat).isValidChar := by
      unfold filed
      split_ifs
      · exact Or.inl (by decide)
      · exact h.1
    have hrest := ih (s := { s with
      sent := s.sent ++ [.keyEvent (filed e.key.toNat) (e.down ≠ 0)] }) h.2
    rw [List.append_assoc] at hrest
    exact (performs_calls isUpper e hfiled).append hrest

/-- Only a carriage return comes back as another keysym. -/
theorem filed_eq_iff : filed key = key ↔ key ≠ 13 := by
  unfold filed
  split_ifs with h
  · subst h
    exact ⟨fun h => absurd h (by decide), fun h => absurd rfl h⟩
  · exact ⟨fun _ => h, fun _ => rfl⟩

/-- The messages come back where no keysym is a carriage return. -/
theorem map_filed_eq_iff {events : List KeyEvent} :
    (events.map fun e => ClientMessage.keyEvent (filed e.key.toNat) (e.down ≠ 0)) =
        events.map message ↔
      ∀ e ∈ events, e.key.toNat ≠ 13 := by
  rw [List.map_inj_left]
  refine forall₂_congr fun e _ => ?_
  rw [message, ClientMessage.keyEvent.injEq, Nat.cast_inj, filed_eq_iff]
  exact and_iff_left rfl

/-- A keysym that a file takes and gives back. -/
def Filed (e : KeyEvent) : Prop := e.key.toNat.isValidChar ∧ e.key.toNat ≠ 13

/-- A sequence of events is recorded and replays as itself exactly where every keysym is a
character, and none a carriage return. -/
theorem replays_iff (isUpper : String → Bool) (events : List KeyEvent) :
    Replays ⟨false, isUpper⟩ events ↔ ∀ e ∈ events, e.Filed := by
  have hrun : ∀ h : ∀ e ∈ events, e.key.toNat.isValidChar, ∃ text fuel,
      record events = some text ∧
      Script.build (Script.sessionShell text) {} fuel ["session.vdo"] =
        some (.ok ((events.flatMap fun e => e.calls (filed e.key.toNat)).map .input)) := by
    intro h
    obtain ⟨fuel, hbuild⟩ := Script.build_session (universalNewlines_lines events h)
      (builds_lines _ events)
    exact ⟨_, fuel, record_eq_some_iff.mpr ⟨h, rfl⟩, hbuild⟩
  constructor
  · rintro ⟨text, fuel, inputs, s, hrecord, hbuild, hperforms, hsent⟩
    have hvalid := (record_eq_some_iff.mp hrecord).1
    obtain ⟨text', fuel', hrecord', hbuild'⟩ := hrun hvalid
    obtain rfl := Option.some.inj (hrecord.symm.trans hrecord')
    have hinputs : inputs = events.flatMap fun e => e.calls (filed e.key.toNat) := by
      have heq := Script.build_unique hbuild hbuild'
      rw [Except.ok.injEq] at heq
      exact (List.map_injective_iff.mpr fun _ _ h => by simpa using h) heq
    rw [hinputs] at hperforms
    have heq := hperforms.symm.trans (performs_all isUpper events hvalid)
    simp only [EStateM.Result.ok.injEq, true_and] at heq
    rw [heq, List.nil_append] at hsent
    exact fun e he => ⟨hvalid e he, map_filed_eq_iff.mp hsent e he⟩
  · intro h
    obtain ⟨text, fuel, hrecord, hbuild⟩ := hrun fun e he => (h e he).1
    refine ⟨text, fuel, _, _, hrecord, hbuild, performs_all isUpper events fun e he => (h e he).1, ?_⟩
    rw [List.nil_append]
    exact map_filed_eq_iff.mpr fun e he => (h e he).2

/-- The keysym of a key that turns the volume down is no character, and recording it raises. -/
theorem not_replays_volume : ¬Replays {} [⟨0x1008FF11, 1, ⟨0, 0⟩⟩] := by
  rintro ⟨text, fuel, inputs, s, hrecord, -⟩
  have hvalid := (record_eq_some_iff.mp hrecord).1 _ (List.mem_singleton_self _)
  exact absurd hvalid (by decide)

end KeyEvent

end VncDoTool
