import VncDoTool.DoTool.Input
import VncDoTool.Lib.Effect
import VncDoTool.Lib.Fallible

/-!
# Pointer calls that raise

`mouseMove` and `mouseDown` change the attributes of the client before they pack the event, and
packing refuses what its fields cannot hold.

* `PointerCall`, `PointerCall.perform`: the calls, made on any integers.
* `InputState.LeavesAsWas`: calls that raise leave no trace on the client, nor on later events.
* `PointerCall.Fits`: the calls whose new values fit, and `leavesAsWas_iff`: no others may be made.
-/

namespace VncDoTool

/-- A call that moves the pointer, or presses or lets go of a button. -/
inductive PointerCall : Type
  | mouseMove (x y : ℤ)
  | mouseDown (button : ℤ)
  | mouseUp (button : ℤ)
  | mousePress (button : ℤ)
  deriving DecidableEq, Repr

namespace PointerCall

/-- What the call runs. -/
def perform : PointerCall → Py InputState Unit
  | mouseMove x y => InputState.mouseMove x y
  | mouseDown button => InputState.mouseDown button
  | mouseUp button => InputState.mouseUp button
  | mousePress button => InputState.mousePress button

/-- The client after the call, however it ended. -/
def after (s : InputState) (call : PointerCall) : InputState := Effect.state (call.perform.run s)

/-- The call raises. -/
def Raises (s : InputState) (call : PointerCall) : Prop :=
  Effect.returns (call.perform.run s) = false

/-- The values a call brings in fit the fields of a PointerEvent. -/
def Fits : PointerCall → Prop
  | mouseMove x y => 0 ≤ x ∧ x < 65536 ∧ 0 ≤ y ∧ y < 65536
  | mouseDown button => button ≤ 8
  | mouseUp _ => True
  | mousePress button => button ≤ 8

instance (s : InputState) (call : PointerCall) : Decidable (Raises s call) := by
  unfold Raises
  infer_instance

instance : (call : PointerCall) → Decidable call.Fits
  | mouseMove _ _ => inferInstanceAs (Decidable (_ ∧ _))
  | mouseDown _ => inferInstanceAs (Decidable (_ ≤ _))
  | mouseUp _ => inferInstanceAs (Decidable True)
  | mousePress _ => inferInstanceAs (Decidable (_ ≤ _))

end PointerCall

namespace InputState

/-- The client after a sequence of calls; the caller goes on after one that raises. -/
def afterAll (s : InputState) (calls : List PointerCall) : InputState :=
  calls.foldl PointerCall.after s

theorem afterAll_append (s : InputState) (before rest : List PointerCall) :
    s.afterAll (before ++ rest) = (s.afterAll before).afterAll rest := List.foldl_append

/-- Each call of a sequence that raises leaves the pointer and the buttons as they were, and the
whole sequence sends what it would have sent without that call. -/
def LeavesAsWas (s : InputState) (calls : List PointerCall) : Prop :=
  ∀ before call rest, calls = before ++ call :: rest → call.Raises (s.afterAll before) →
    ((call.after (s.afterAll before)).x = (s.afterAll before).x ∧
      (call.after (s.afterAll before)).y = (s.afterAll before).y ∧
      (call.after (s.afterAll before)).buttons = (s.afterAll before).buttons) ∧
    (s.afterAll calls).sent = (s.afterAll (before ++ rest)).sent

/-- The event that tells where the pointer is can be packed. -/
structure Packable (s : InputState) : Prop where
  x_nonneg : 0 ≤ s.x
  x_lt : s.x < 65536
  y_nonneg : 0 ≤ s.y
  y_lt : s.y < 65536
  buttons_lt : s.buttons < 256

theorem packable_init : Packable {} := ⟨by decide, by decide, by decide, by decide, by decide⟩

/-- The client once it has told where the pointer is. -/
def told (s : InputState) : InputState :=
  { s with sent := s.sent ++ [.pointerEvent s.x s.y s.buttons] }

/-! ## One event -/

/-- Tell where the pointer is and what is held. -/
def tell (s : InputState) : EStateM.Result PyErr InputState Unit :=
  (pointerEvent s.x s.y s.buttons).run s

variable {s : InputState} {x y button : ℤ}

theorem Packable.told (h : s.Packable) : s.told.Packable :=
  ⟨h.x_nonneg, h.x_lt, h.y_nonneg, h.y_lt, h.buttons_lt⟩

/-- An event whose fields fit is sent. -/
theorem tell_packable (h : s.Packable) : s.tell = .ok () s.told := by
  have hmask : pack8 s.buttons = some [UInt8.ofNat s.buttons] := pack8_natCast h.buttons_lt
  have hx : pack16 s.x = some (be16 s.x.toNat) := if_pos ⟨h.x_nonneg, h.x_lt⟩
  have hy : pack16 s.y = some (be16 s.y.toNat) := if_pos ⟨h.y_nonneg, h.y_lt⟩
  have hpack : RFBClient.pointerEvent s.x s.y s.buttons =
      .ok ([UInt8.ofNat MsgC2S.pointerEvent.value] ++ [UInt8.ofNat s.buttons] ++ be16 s.x.toNat ++
        be16 s.y.toNat) := by
    unfold RFBClient.pointerEvent
    rw [hmask, hx, hy]
    rfl
  exact run_write hpack

/-- Packing succeeds on fields that fit only. -/
theorem packable_of_encode {b : Bytes}
    (h : (ClientMessage.pointerEvent s.x s.y s.buttons).encode = .ok b) : s.Packable := by
  obtain ⟨_, hmask, h⟩ := Fallible.bind_eq_ok.mp h
  obtain ⟨_, hpx, h⟩ := Fallible.bind_eq_ok.mp h
  obtain ⟨_, hpy, -⟩ := Fallible.bind_eq_ok.mp h
  obtain ⟨mask, hmask, hlt, -⟩ := pack8_eq_some (ClientMessage.packed_eq_ok.mp hmask)
  obtain ⟨x, hx, hxlt, -⟩ := pack16_eq_some (ClientMessage.packed_eq_ok.mp hpx)
  obtain ⟨y, hy, hylt, -⟩ := pack16_eq_some (ClientMessage.packed_eq_ok.mp hpy)
  exact ⟨by omega, by omega, by omega, by omega, by omega⟩

/-- An event that does not fit raises, and by then the attributes have been assigned. -/
theorem tell_refused (h : ¬s.Packable) : ∃ e, s.tell = .error e s := by
  unfold tell pointerEvent write
  cases hencode : (ClientMessage.pointerEvent s.x s.y s.buttons).encode with
  | ok b => exact absurd (packable_of_encode hencode) h
  | error e =>
    cases e with
    | struct => exact ⟨_, rfl⟩
    | unicode => exact ⟨_, rfl⟩

/-! ## One call -/

/-- The client that has assigned where it moves to. -/
def moved (s : InputState) (x y : ℤ) : InputState := { s with x := x, y := y }

/-- The client that has set the bit of a button. -/
def pressed (s : InputState) (button : ℤ) : InputState :=
  { s with buttons := s.buttons ||| 1 <<< (button - 1).toNat }

/-- The client that has cleared the bit of a button. -/
def released (s : InputState) (button : ℤ) : InputState :=
  { s with buttons := Nat.ldiff s.buttons (1 <<< (button - 1).toNat) }

theorem run_mouseMove_eq : (mouseMove x y).run s = (s.moved x y).tell := by
  unfold mouseMove
  rw [run_bind_ok (EStateM.run_modify _ _), run_bind_ok (EStateM.run_get _)]
  rfl

/-- `1 << (button - 1)`, where there is such a bit. -/
theorem buttonBit_eq_ok (h : 1 ≤ button) :
    buttonBit button = .ok (1 <<< (button - 1).toNat) := if_neg (by omega)

theorem run_mouseDown_eq (h : 1 ≤ button) : (mouseDown button).run s = (s.pressed button).tell := by
  unfold mouseDown
  rw [buttonBit_eq_ok h, run_bind_ok (run_ofExcept_ok _), run_bind_ok (EStateM.run_modify _ _),
    run_bind_ok (EStateM.run_get _)]
  rfl

theorem run_mouseUp_eq (h : 1 ≤ button) : (mouseUp button).run s = (s.released button).tell := by
  unfold mouseUp
  rw [buttonBit_eq_ok h, run_bind_ok (run_ofExcept_ok _), run_bind_ok (EStateM.run_modify _ _),
    run_bind_ok (EStateM.run_get _)]
  rfl

/-- There is no button before the first: nothing has been assigned yet when the shift raises. -/
theorem run_mouseDown_before_first (h : button < 1) : ∃ e, (mouseDown button).run s = .error e s := by
  unfold mouseDown buttonBit
  rw [if_pos h]
  exact ⟨_, rfl⟩

theorem run_mouseUp_before_first (h : button < 1) : ∃ e, (mouseUp button).run s = .error e s := by
  unfold mouseUp buttonBit
  rw [if_pos h]
  exact ⟨_, rfl⟩

/-- The first eight buttons have a bit in the mask. -/
theorem mask_or_lt {buttons : ℕ} (hbuttons : buttons < 256) (hfirst : 1 ≤ button)
    (hlast : button ≤ 8) : buttons ||| 1 <<< (button - 1).toNat < 256 := by
  have hbit : 1 <<< (button - 1).toNat < 2 ^ 8 := by
    rw [Nat.one_shiftLeft]
    exact Nat.pow_lt_pow_right (by decide) (by omega)
  exact Nat.or_lt_two_pow (n := 8) hbuttons hbit

/-- The others do not. -/
theorem le_mask_or {buttons : ℕ} (hlast : 8 < button) :
    256 ≤ buttons ||| 1 <<< (button - 1).toNat := by
  have hbit : 2 ^ 8 ≤ 1 <<< (button - 1).toNat := by
    rw [Nat.one_shiftLeft]
    exact Nat.pow_le_pow_right (by decide) (by omega)
  exact le_trans hbit Nat.right_le_or

/-- Letting go of a button sets no bit. -/
theorem mask_ldiff_lt {buttons bit : ℕ} (hbuttons : buttons < 256) : Nat.ldiff buttons bit < 256 := by
  apply Nat.lt_pow_two_of_testBit (n := 8)
  intro i hi
  have hlow : buttons < 2 ^ i :=
    lt_of_lt_of_le hbuttons (Nat.pow_le_pow_right (show 2 > 0 by decide) hi)
  rw [Nat.testBit_ldiff, Nat.testBit_lt_two_pow hlow, Bool.false_and]

/-- A move onto the wire. -/
theorem run_mouseMove_fits (h : s.Packable) (hx : 0 ≤ x) (hxlt : x < 65536) (hy : 0 ≤ y)
    (hylt : y < 65536) :
    ∃ s', (mouseMove x y).run s = .ok () s' ∧ s'.Packable := by
  have hmoved : (s.moved x y).Packable := ⟨hx, hxlt, hy, hylt, h.buttons_lt⟩
  rw [run_mouseMove_eq]
  exact ⟨_, tell_packable hmoved, hmoved.told⟩

/-- A button of the mask goes down. -/
theorem run_mouseDown_fits (h : s.Packable) (hfirst : 1 ≤ button) (hlast : button ≤ 8) :
    ∃ s', (mouseDown button).run s = .ok () s' ∧ s'.Packable := by
  have hpressed : (s.pressed button).Packable :=
    ⟨h.x_nonneg, h.x_lt, h.y_nonneg, h.y_lt, mask_or_lt h.buttons_lt hfirst hlast⟩
  rw [run_mouseDown_eq hfirst]
  exact ⟨_, tell_packable hpressed, hpressed.told⟩

/-- A button comes up, be it of the mask or not. -/
theorem run_mouseUp_fits (h : s.Packable) (hfirst : 1 ≤ button) :
    ∃ s', (mouseUp button).run s = .ok () s' ∧ s'.Packable := by
  have hreleased : (s.released button).Packable :=
    ⟨h.x_nonneg, h.x_lt, h.y_nonneg, h.y_lt, mask_ldiff_lt h.buttons_lt⟩
  rw [run_mouseUp_eq hfirst]
  exact ⟨_, tell_packable hreleased, hreleased.told⟩

/-- A button past the mask is held for ever after, and no event says so. -/
theorem run_mouseDown_refused (hlast : 8 < button) :
    ∃ e s', (mouseDown button).run s = .error e s' ∧ 256 ≤ s'.buttons := by
  have hmask : 256 ≤ s.buttons ||| 1 <<< (button - 1).toNat := le_mask_or hlast
  have hnot : ¬(s.pressed button).Packable :=
    fun h => absurd h.buttons_lt (not_lt.mpr hmask)
  obtain ⟨e, hrun⟩ := tell_refused hnot
  rw [run_mouseDown_eq (by omega)]
  exact ⟨e, _, hrun, hmask⟩

/-- A move off the wire. -/
theorem run_mouseMove_refused (h : ¬(0 ≤ x ∧ x < 65536 ∧ 0 ≤ y ∧ y < 65536)) :
    ∃ e s', (mouseMove x y).run s = .error e s' ∧ s'.x = x ∧ s'.y = y := by
  have hnot : ¬(s.moved x y).Packable :=
    fun hp => h ⟨hp.x_nonneg, hp.x_lt, hp.y_nonneg, hp.y_lt⟩
  obtain ⟨e, hrun⟩ := tell_refused hnot
  rw [run_mouseMove_eq]
  exact ⟨e, _, hrun, rfl, rfl⟩

/-! ## Sequences of calls -/

/-- A call whose values fit either succeeds or, where its button has no bit, leaves everything. -/
theorem fits_spec (h : s.Packable) {call : PointerCall} (hfits : call.Fits) :
    (call.after s).Packable ∧ (call.Raises s → call.after s = s) := by
  -- a run that returned did not raise
  have hreturned {s' : InputState} (hrun : call.perform.run s = .ok () s') (hs' : s'.Packable) :
      (call.after s).Packable ∧ (call.Raises s → call.after s = s) := by
    unfold PointerCall.after PointerCall.Raises
    rw [hrun]
    exact ⟨hs', fun hraises => absurd hraises (by simp [Effect.returns])⟩
  -- a run that raised before it assigned anything
  have hraised {e : PyErr} (hrun : call.perform.run s = .error e s) :
      (call.after s).Packable ∧ (call.Raises s → call.after s = s) := by
    unfold PointerCall.after
    rw [hrun]
    exact ⟨h, fun _ => rfl⟩
  cases call with
  | mouseMove x y =>
    obtain ⟨hx, hxlt, hy, hylt⟩ := hfits
    obtain ⟨s', hrun, hs'⟩ := run_mouseMove_fits h hx hxlt hy hylt
    exact hreturned hrun hs'
  | mouseDown button =>
    rcases lt_or_ge button 1 with hnone | hfirst
    · obtain ⟨e, hrun⟩ := run_mouseDown_before_first (s := s) hnone
      exact hraised hrun
    · obtain ⟨s', hrun, hs'⟩ := run_mouseDown_fits h hfirst hfits
      exact hreturned hrun hs'
  | mouseUp button =>
    rcases lt_or_ge button 1 with hnone | hfirst
    · obtain ⟨e, hrun⟩ := run_mouseUp_before_first (s := s) hnone
      exact hraised hrun
    · obtain ⟨s', hrun, hs'⟩ := run_mouseUp_fits h hfirst
      exact hreturned hrun hs'
  | mousePress button =>
    rcases lt_or_ge button 1 with hnone | hfirst
    · obtain ⟨e, hdown⟩ := run_mouseDown_before_first (s := s) hnone
      have hpress : (PointerCall.mousePress button).perform.run s = .error e s := by
        show (mouseDown button >>= fun _ => mouseUp button).run s = _
        rw [EStateM.run_bind, hdown]
      exact hraised hpress
    · obtain ⟨s', hdown, hs'⟩ := run_mouseDown_fits h hfirst hfits
      obtain ⟨s'', hup, hs''⟩ := run_mouseUp_fits hs' hfirst
      have hpress : (PointerCall.mousePress button).perform.run s = .ok () s'' := by
        show (mouseDown button >>= fun _ => mouseUp button).run s = _
        rw [run_bind_ok hdown]
        exact hup
      exact hreturned hpress hs''

/-- A call with a value that does not fit raises, and the client is not what it was. -/
theorem refused_spec (h : s.Packable) {call : PointerCall} (hfits : ¬call.Fits) :
    call.Raises s ∧ ¬((call.after s).x = s.x ∧ (call.after s).y = s.y ∧
      (call.after s).buttons = s.buttons) := by
  have hheld {e : PyErr} {s' : InputState} (hbutton : 256 ≤ s'.buttons)
      (hrun : call.perform.run s = .error e s') :
      call.Raises s ∧ ¬((call.after s).x = s.x ∧ (call.after s).y = s.y ∧
        (call.after s).buttons = s.buttons) := by
    unfold PointerCall.Raises PointerCall.after
    rw [hrun]
    refine ⟨rfl, fun hsame => ?_⟩
    have hlt := h.buttons_lt
    have hbuttons : s'.buttons = s.buttons := hsame.2.2
    omega
  cases call with
  | mouseMove x y =>
    obtain ⟨e, s', hrun, hx, hy⟩ := run_mouseMove_refused (s := s) hfits
    unfold PointerCall.Raises PointerCall.after PointerCall.perform
    rw [hrun]
    refine ⟨rfl, fun hsame => hfits ?_⟩
    have hsx : x = s.x := hx.symm.trans hsame.1
    have hsy : y = s.y := hy.symm.trans hsame.2.1
    rw [PointerCall.Fits, hsx, hsy]
    exact ⟨h.x_nonneg, h.x_lt, h.y_nonneg, h.y_lt⟩
  | mouseDown button =>
    obtain ⟨e, s', hrun, hs'⟩ := run_mouseDown_refused (s := s) (not_le.mp hfits)
    exact hheld hs' hrun
  | mouseUp button => exact absurd trivial hfits
  | mousePress button =>
    obtain ⟨e, s', hdown, hs'⟩ := run_mouseDown_refused (s := s) (not_le.mp hfits)
    have hpress : (PointerCall.mousePress button).perform.run s = .error e s' := by
      show (mouseDown button >>= fun _ => mouseUp button).run s = _
      rw [EStateM.run_bind, hdown]
    exact hheld hs' hpress

/-- Calls whose values fit keep the client where it can tell of itself. -/
theorem Packable.afterAll {calls : List PointerCall} (h : s.Packable)
    (hfits : ∀ call ∈ calls, call.Fits) : (s.afterAll calls).Packable := by
  induction calls generalizing s with
  | nil => exact h
  | cons call calls ih =>
    have hafter : (call.after s).Packable := (fits_spec h (hfits call List.mem_cons_self)).1
    exact ih hafter fun c hc => hfits c (List.mem_cons_of_mem _ hc)

/-- From where the client can tell of itself, failures go unnoticed as long as every value fits. -/
theorem leavesAsWas_of_packable (h : s.Packable) (calls : List PointerCall) :
    s.LeavesAsWas calls ↔ ∀ call ∈ calls, call.Fits := by
  constructor
  · intro hleaves
    by_contra hsome
    -- the first call that does not fit is made from a state that can be told
    obtain ⟨before, call, rest, rfl, hbefore, hcall⟩ :
        ∃ before call rest, calls = before ++ call :: rest ∧ (∀ c ∈ before, c.Fits) ∧ ¬call.Fits := by
      clear hleaves
      induction calls with
      | nil => exact absurd (fun c hc => absurd hc List.not_mem_nil) hsome
      | cons first rest ih =>
        by_cases hfirst : first.Fits
        · have hrest : ¬∀ c ∈ rest, c.Fits := fun hall =>
            hsome (List.forall_mem_cons.mpr ⟨hfirst, hall⟩)
          obtain ⟨before, call, after, rfl, hbefore, hcall⟩ := ih hrest
          exact ⟨first :: before, call, after, rfl, List.forall_mem_cons.mpr ⟨hfirst, hbefore⟩, hcall⟩
        · exact ⟨[], first, rest, rfl, fun c hc => absurd hc List.not_mem_nil, hfirst⟩
    obtain ⟨hraises, hchanged⟩ := refused_spec (h.afterAll hbefore) hcall
    exact hchanged (hleaves before call rest rfl hraises).1
  · rintro hfits before call rest rfl hraises
    have hbefore : (s.afterAll before).Packable :=
      h.afterAll fun c hc => hfits c (List.mem_append_left _ hc)
    have hcall : call.Fits := hfits call (List.mem_append_right _ List.mem_cons_self)
    have hsame : call.after (s.afterAll before) = s.afterAll before :=
      (fits_spec hbefore hcall).2 hraises
    refine ⟨by simp only [hsame, and_self], ?_⟩
    rw [afterAll_append, afterAll_append]
    show ((call.after (s.afterAll before)).afterAll rest).sent = _
    rw [hsame]

/-- A new client comes out of every failing call as it went in exactly when no call moves the
pointer off the wire or presses a button past the eighth. -/
theorem leavesAsWas_iff (calls : List PointerCall) :
    LeavesAsWas {} calls ↔ ∀ call ∈ calls, call.Fits := leavesAsWas_of_packable packable_init calls

/-- A move to column 70000 raises, and the client believes it is there. -/
theorem not_leavesAsWas_mouseMove : ¬LeavesAsWas {} [.mouseMove 70000 0, .mouseDown 1] := by
  intro hleaves
  have hraises : (PointerCall.mouseMove 70000 0).Raises {} := by decide
  have hx := (hleaves [] (.mouseMove 70000 0) [.mouseDown 1] rfl hraises).1.1
  exact absurd hx (by decide)

end InputState

end VncDoTool
