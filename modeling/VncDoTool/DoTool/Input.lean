import Mathlib.Data.Nat.Bitwise
import VncDoTool.Client.Messages
import VncDoTool.Client.Encoders
import VncDoTool.Keys
import VncDoTool.Script.Commands

/-!
# Input events of the tool

What `VNCDoToolClient` makes of the calls that press keys and move the pointer.

* `InputState`: where the pointer is, the buttons held, and the messages written.
* `InputState.decodeKey`: the keysyms of a key with its modifiers.
* `Input.perform`: one call; `Input.performAll`: the calls of a script, up to one that raises.
-/

namespace VncDoTool

/-- The attributes of a client that input events read and change, and what it has written. -/
structure InputState : Type where
  x : ℤ := 0
  y : ℤ := 0
  buttons : ℕ := 0
  sent : List ClientMessage := []

/-- What the factory and Python say about keys. -/
structure Keyboard : Type where
  forceCaps : Bool := false
  /-- `str.isupper`. -/
  isUpper : String → Bool := fun key => key.any Char.isUpper && !key.any Char.isLower

namespace InputState

/-- Write a message. -/
def write (m : ClientMessage) : Py InputState Unit := do
  let _ ← RFBClient.encoded m.encode
  modify fun s => { s with sent := s.sent ++ [m] }

/-- `keyEvent`. -/
def keyEvent (key : ℕ) (down : Bool) : Py InputState Unit := write (.keyEvent key down)

/-- `pointerEvent`. -/
def pointerEvent (x y : ℤ) (buttonmask : ℕ) : Py InputState Unit :=
  write (.pointerEvent x y buttonmask)

/-! ## Keys -/

/-- `SPECIAL_KEYS_US`. -/
def specialKeysUs : String := "~!@#$%^&*()_+{}|:\"<>?"

/-- `KEYMAP.get(k) or ord(k)`. -/
def keysym (k : String) : Except PyErr ℕ :=
  match keysymOf k with
  | some key => .ok key
  | none =>
    match k.toList with
    | [c] => .ok c.toNat
    | _ => .error ⟨.typeError, s!"ord() expected a character, but string of length {k.length} found"⟩

/-- `"shift-%c" % key`, where capitals are forced. -/
def capital (keyboard : Keyboard) (key : String) : Except PyErr String :=
  if keyboard.forceCaps ∧ (keyboard.isUpper key ∨ key.toList <:+: specialKeysUs.toList) then
    match key.toList with
    | [_] => .ok ("shift-" ++ key)
    | _ => .error ⟨.typeError, "%c requires an int or a unicode character"⟩
  else .ok key

/-- `_decodeKey`: the parts of a key, modifiers first. -/
def decodeKey (keyboard : Keyboard) (key : String) : Except PyErr (List ℕ) := do
  let key ← capital keyboard key
  let keys := if key.length = 1 then [key] else (key.toList.splitOn '-').map String.ofList
  keys.mapM keysym

/-- `keyDown`. -/
def keyDown (keyboard : Keyboard) (key : String) : Py InputState Unit := do
  let keys ← RFBClient.ofExcept (decodeKey keyboard key)
  keys.forM fun k => keyEvent k true

/-- `keyUp`. -/
def keyUp (keyboard : Keyboard) (key : String) : Py InputState Unit := do
  let keys ← RFBClient.ofExcept (decodeKey keyboard key)
  keys.forM fun k => keyEvent k false

/-- `keyPress`. -/
def keyPress (keyboard : Keyboard) (key : String) : Py InputState Unit := do
  let keys ← RFBClient.ofExcept (decodeKey keyboard key)
  keys.forM fun k => keyEvent k true
  keys.reverse.forM fun k => keyEvent k false

/-! ## The pointer -/

/-- `mouseMove`. -/
def mouseMove (x y : ℤ) : Py InputState Unit := do
  modify fun s => { s with x := x, y := y }
  let s ← get
  pointerEvent x y s.buttons

/-- `1 << (button - 1)`. An `int` is unbounded here: CPython refuses shift counts past a size limit of
its own. -/
def buttonBit (button : ℤ) : Except PyErr ℕ :=
  if button < 1 then .error ⟨.valueError, "negative shift count"⟩ else .ok (1 <<< (button - 1).toNat)

/-- `mouseDown`. -/
def mouseDown (button : ℤ) : Py InputState Unit := do
  let bit ← RFBClient.ofExcept (buttonBit button)
  modify fun s => { s with buttons := s.buttons ||| bit }
  let s ← get
  pointerEvent s.x s.y s.buttons

/-- `mouseUp`. -/
def mouseUp (button : ℤ) : Py InputState Unit := do
  let bit ← RFBClient.ofExcept (buttonBit button)
  modify fun s => { s with buttons := Nat.ldiff s.buttons bit }
  let s ← get
  pointerEvent s.x s.y s.buttons

/-- `mousePress`. -/
def mousePress (button : ℤ) : Py InputState Unit := do
  mouseDown button
  mouseUp button

/-! ## What the calls come to -/

variable {s : InputState}

/-- What comes after code that went well. -/
theorem run_bind_ok {α β : Type} {code : Py InputState α} {next : α → Py InputState β} {v : α}
    {s' : InputState} (h : code.run s = .ok v s') : (code >>= next).run s = (next v).run s' := by
  rw [EStateM.run_bind, h]

/-- A message whose fields fit is written. -/
theorem run_write {m : ClientMessage} {b : Bytes} (h : m.encode = .ok b) :
    (write m).run s = .ok () { s with sent := s.sent ++ [m] } := by
  unfold write
  rw [h]
  rfl

theorem run_ofExcept_ok {α : Type} (v : α) :
    (RFBClient.ofExcept (.ok v) : Py InputState α).run s = .ok v s := rfl

theorem run_keyEvent {key : ℕ} (hkey : key < 2 ^ 32) (down : Bool) :
    (keyEvent key down).run s = .ok () { s with sent := s.sent ++ [.keyEvent key down] } := by
  have hpack : RFBClient.keyEvent key down =
      .ok ([UInt8.ofNat MsgC2S.keyEvent.value, if down then 1 else 0, 0, 0] ++ be32 key) := by
    unfold RFBClient.keyEvent
    rw [pack32_natCast hkey]
    rfl
  exact run_write hpack

/-- The only keysym of a key. -/
theorem run_forM_keyEvent {key : ℕ} (hkey : key < 2 ^ 32) (down : Bool) :
    ([key].forM fun k => keyEvent k down).run s =
      .ok () { s with sent := s.sent ++ [.keyEvent key down] } := by
  rw [List.forM_eq_forM, List.forM_cons, List.forM_nil, run_bind_ok (run_keyEvent hkey down)]
  rfl

/-- A key that is one keysym goes down, or comes up. -/
theorem run_keyDown {keyboard : Keyboard} {name : String} {key : ℕ}
    (hname : decodeKey keyboard name = .ok [key]) (hkey : key < 2 ^ 32) :
    (keyDown keyboard name).run s =
      .ok () { s with sent := s.sent ++ [.keyEvent key true] } := by
  unfold keyDown
  rw [hname, run_bind_ok (run_ofExcept_ok [key])]
  exact run_forM_keyEvent hkey true

theorem run_keyUp {keyboard : Keyboard} {name : String} {key : ℕ}
    (hname : decodeKey keyboard name = .ok [key]) (hkey : key < 2 ^ 32) :
    (keyUp keyboard name).run s =
      .ok () { s with sent := s.sent ++ [.keyEvent key false] } := by
  unfold keyUp
  rw [hname, run_bind_ok (run_ofExcept_ok [key])]
  exact run_forM_keyEvent hkey false

theorem run_pointerEvent {x y buttonmask : ℕ} (hx : x < 65536) (hy : y < 65536)
    (hbuttonmask : buttonmask < 256) :
    (pointerEvent x y buttonmask).run s =
      .ok () { s with sent := s.sent ++ [.pointerEvent x y buttonmask] } := by
  have hpack : RFBClient.pointerEvent x y buttonmask =
      .ok ([UInt8.ofNat MsgC2S.pointerEvent.value] ++ [UInt8.ofNat buttonmask] ++ be16 x ++
        be16 y) := by
    unfold RFBClient.pointerEvent
    rw [pack8_natCast hbuttonmask, pack16_natCast hx, pack16_natCast hy]
    rfl
  exact run_write hpack

theorem run_pointerEvent_up {x y : ℕ} (hx : x < 65536) (hy : y < 65536) :
    (pointerEvent x y 0).run s = .ok () { s with sent := s.sent ++ [.pointerEvent x y 0] } :=
  run_pointerEvent hx hy (by decide : 0 < 256)

/-- A move with all buttons up. -/
theorem run_mouseMove {x y : ℕ} (hx : x < 65536) (hy : y < 65536) (hup : s.buttons = 0) :
    (mouseMove x y).run s =
      .ok () { s with x := x, y := y, sent := s.sent ++ [.pointerEvent x y 0] } := by
  unfold mouseMove
  rw [run_bind_ok (EStateM.run_modify _ _), run_bind_ok (EStateM.run_get _), hup, run_pointerEvent_up hx hy]

theorem buttonBit_natCast {button : ℕ} (h : 1 ≤ button) :
    buttonBit button = .ok (1 <<< (button - 1)) := by
  rw [buttonBit, if_neg (by omega)]
  congr 2
  omega

/-- A button that goes down alone. -/
theorem run_mouseDown {x y button : ℕ} (hx : x < 65536) (hy : y < 65536) (hup : s.buttons = 0)
    (hsx : s.x = x) (hsy : s.y = y) (hfirst : 1 ≤ button) (hlast : button ≤ 8) :
    (mouseDown button).run s = .ok () { s with
      buttons := 1 <<< (button - 1),
      sent := s.sent ++ [.pointerEvent x y (1 <<< (button - 1) : ℕ)] } := by
  have hmask : 1 <<< (button - 1) < 256 := by
    rw [Nat.one_shiftLeft]
    exact Nat.pow_lt_pow_right (by decide) (by omega : button - 1 < 8)
  unfold mouseDown
  rw [buttonBit_natCast hfirst, run_bind_ok (run_ofExcept_ok _), run_bind_ok (EStateM.run_modify _ _),
    run_bind_ok (EStateM.run_get _), hup, Nat.zero_or, hsx, hsy, run_pointerEvent hx hy hmask]

/-- The only button that is down comes up. -/
theorem run_mouseUp {s : InputState} {x y button : ℕ} (hx : x < 65536) (hy : y < 65536)
    (hdown : s.buttons = 1 <<< (button - 1)) (hsx : s.x = x) (hsy : s.y = y)
    (hfirst : 1 ≤ button) :
    (mouseUp button).run s =
      .ok () { s with buttons := 0, sent := s.sent ++ [.pointerEvent x y 0] } := by
  have hnone : Nat.ldiff (1 <<< (button - 1)) (1 <<< (button - 1)) = 0 := by
    refine Nat.eq_of_testBit_eq fun i => ?_
    rw [Nat.testBit_ldiff]
    simp
  unfold mouseUp
  rw [buttonBit_natCast hfirst, run_bind_ok (run_ofExcept_ok _), run_bind_ok (EStateM.run_modify _ _),
    run_bind_ok (EStateM.run_get _), hdown, hnone, hsx, hsy, run_pointerEvent_up hx hy]

/-- A click with all buttons up presses the button and lets go of it. -/
theorem run_mousePress {x y button : ℕ} (hx : x < 65536) (hy : y < 65536) (hup : s.buttons = 0)
    (hsx : s.x = x) (hsy : s.y = y) (hfirst : 1 ≤ button) (hlast : button ≤ 8) :
    (mousePress button).run s =
      .ok () { s with
        sent := s.sent ++ [.pointerEvent x y (1 <<< (button - 1) : ℕ), .pointerEvent x y 0] } := by
  have hrelease := run_mouseUp (s := { s with
    buttons := 1 <<< (button - 1),
    sent := s.sent ++ [.pointerEvent x y (1 <<< (button - 1) : ℕ)] }) hx hy rfl hsx hsy hfirst
  rw [List.append_assoc, ← hup] at hrelease
  unfold mousePress
  rw [run_bind_ok (run_mouseDown hx hy hup hsx hsy hfirst hlast)]
  exact hrelease

end InputState

/-- `pause`, which `reactor.callLater` refuses for a time in the past. A pause without an end keeps
the calls behind it from ever being made. -/
def waits : PyFloat → Py InputState Bool
  | .finite value => if 0 ≤ value then pure true else throw ⟨.assertionError, "cannot schedule"⟩
  | .inf negative => if negative then throw ⟨.assertionError, "cannot schedule"⟩ else pure false
  | .nan => throw ⟨.assertionError, "cannot schedule"⟩

/-- Make one call: whether the next one is made. -/
def Input.perform (keyboard : Keyboard) : Input → Py InputState Bool
  | .keyPress key => do
    InputState.keyPress keyboard key
    pure true
  | .keyDown key => do
    InputState.keyDown keyboard key
    pure true
  | .keyUp key => do
    InputState.keyUp keyboard key
    pure true
  | .mouseMove x y => do
    InputState.mouseMove x y
    pure true
  | .mousePress button => do
    InputState.mousePress button
    pure true
  | .mouseDown button => do
    InputState.mouseDown button
    pure true
  | .mouseUp button => do
    InputState.mouseUp button
    pure true
  | .pause duration => waits duration

/-- Make the calls of a script, one after the other. -/
def Input.performAll (keyboard : Keyboard) : List Input → Py InputState Bool
  | [] => pure true
  | input :: inputs => do
    if ← input.perform keyboard then Input.performAll keyboard inputs else pure false

end VncDoTool
