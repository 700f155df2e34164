import VncDoTool.Client.Encoders
import VncDoTool.Proxy.Server

/-!
# Parsing undoes encoding

What `RFBServer` makes of client messages as their encoders write them.

* `handleMessage_atOnce`, `handleMessage_hasHandler`, `handle_body`: the handlers on the layout
  of a written message.
* `Takes`: the loop takes one message off the buffer.
* `Runs.spent_le`: the calls made stand for no more bytes than were there.
* `dataReceived_messages_iff`: a buffer of messages is parsed back exactly when no QEMU event is
  followed by another message, since its handler deletes two bytes too many.
-/

namespace VncDoTool

/-- The callback a message asks for, with the values its fields encode. -/
def ClientMessage.call : ClientMessage → Callback
  | .setPixelFormat pixelFormat => .setPixelFormat pixelFormat
  | .setEncodings encodings => .setEncodings encodings
  | .framebufferUpdateRequest screen x y width height incremental =>
    .framebufferUpdate x.toNat y.toNat (width.getD (screen.1 - x)).toNat
      (height.getD (screen.2 - y)).toNat (if incremental then 1 else 0)
  | .keyEvent key down => .keyEvent key.toNat (if down then 1 else 0)
  | .pointerEvent x y buttonmask => .pointerEvent x.toNat y.toNat buttonmask.toNat
  | .clientCutText message => .clientCutText (message.toList.map fun c => UInt8.ofNat c.toNat)
  | .clientFence flags payload => .clientFence flags.toNat payload
  | .qemuExtendedKeyEvent downFlag keysym keycode =>
    .keyEventExtended keysym.toNat downFlag.toNat keycode.toNat

namespace ClientMessage

variable {m : ClientMessage} {head body : Bytes}

theorem Wire.length_head (h : Wire m head body) : head.length = typeLen m.type.value := by
  cases h <;> simp [type, typeLen]

theorem Wire.two_le_length_head (h : Wire m head body) : 2 ≤ head.length :=
  h.length_head ▸ RFBServer.two_le_typeLen (MsgC2S.lookup_value m.type)

theorem Wire.byteAt_head (h : Wire m head body) (rest : Bytes) :
    byteAt (head ++ rest) 0 = m.type.value := by
  cases h <;> rfl

end ClientMessage

namespace RFBServer

open ClientMessage (Wire)

variable {m : ClientMessage} {head body rest : Bytes} {s : RFBServer}

/-- A header that has arrived whole is taken off the buffer and handled. -/
theorem handleProtocol_of_head (h : Wire m head body) (hbuffer : s.buffer = head ++ rest) :
    s.handleProtocol = handleMessage s.consumed m.type (head.drop 1) (s.delete head.length) := by
  have htype := h.byteAt_head rest
  have hlen := h.length_head
  have htwo := h.two_le_length_head
  have hne : s.buffer ≠ [] := by
    rw [hbuffer, ← List.length_pos_iff, List.length_append]
    omega
  have hlong : ¬ s.buffer.length < head.length := by
    rw [hbuffer, List.length_append]
    omega
  rw [handleProtocol, if_neg hne]
  simp only [hbuffer ▸ htype, ← hlen, if_neg hlong, MsgC2S.lookup_value]
  rw [hbuffer, List.take_left]

/-- Whether the body of a message of this type is left to a handler of its own. -/
def HasHandler (type : MsgC2S) : Prop := type = .clientCutText ∨ type = .qemuClientMessage

instance (type : MsgC2S) : Decidable (HasHandler type) :=
  inferInstanceAs (Decidable (_ ∨ _))

/-- The handler a body is left to. -/
def bodyHandler (type : MsgC2S) (length : ℕ) : Handler :=
  if type = .clientCutText then .clientCutText length else .qemuExtendedKeyEvent

/-- The bytes it deletes behind the body. -/
def excess (type : MsgC2S) : ℕ := if type = .qemuClientMessage then 2 else 0

theorem length_flatten_beInt32 (encodings : List ℤ) :
    (encodings.map beInt32).flatten.length = 4 * encodings.length := by
  simp [List.length_flatten, Function.comp_def, Nat.mul_comm]

/-- Written encodings are read back, whatever follows them. -/
theorem unpackInts_beInt32 {encodings : List ℤ} (hrange : ∀ e ∈ encodings, -2 ^ 31 ≤ e ∧ e < 2 ^ 31)
    (rest : Bytes) :
    unpackInts encodings.length ((encodings.map beInt32).flatten ++ rest) = some encodings := by
  have hlen := length_flatten_beInt32 encodings
  rw [unpackInts, if_pos (by rw [List.length_append, hlen]; omega)]
  congr 1
  clear hlen
  induction encodings with
  | nil => rfl
  | cons e encodings ih =>
    simp only [List.mem_cons, forall_eq_or_imp] at hrange
    have hrest : ∀ i, i32At (beInt32 e ++ ((encodings.map beInt32).flatten ++ rest)) (4 * (i + 1)) =
        i32At ((encodings.map beInt32).flatten ++ rest) (4 * i) := fun i => by
      rw [← i32At_append_right (beInt32 e) _ (4 * i), length_beInt32, Nat.mul_add, Nat.add_comm]
    rw [List.map_cons, List.flatten_cons, List.append_assoc, List.length_cons,
      List.range_succ_eq_map, List.map_cons, List.map_map, Nat.mul_zero,
      i32At_beInt32 hrange.1.1 hrange.1.2]
    simp only [Function.comp_def, hrest, ih hrange.2]

@[simp] theorem delete_zero (s : RFBServer) : s.delete 0 = s := by
  simp [delete]

/-- A field at the end of a header. -/
theorem u16At_be16_zero {n : ℕ} (h : n < 65536) : u16At (be16 n) 0 = n := u16At_be16 h []

theorem u32At_be32_zero {n : ℕ} (h : n < 2 ^ 32) : u32At (be32 n) 0 = n := u32At_be32 h []

/-- The header of a message that is called at once, with its body behind it. -/
theorem handleMessage_atOnce (h : Wire m head body) (htype : ¬ HasHandler m.type)
    (hbuffer : s.buffer = body ++ rest) (offset : ℕ) :
    handleMessage offset m.type (head.drop 1) s =
      (callback offset m.call (s.delete body.length), none) := by
  cases h with
  | setPixelFormat block =>
    have hblock : Block.ofPrefix 16 (([0, 0, 0] ++ block.bytes).drop 3) (by simp) = block := by
      apply Block.ext
      simp [List.take_of_length_le]
    simp only [ClientMessage.type, ClientMessage.call, handleMessage, List.cons_append,
      List.drop_succ_cons, List.drop_zero, List.nil_append] at hblock ⊢
    rw [dif_pos (by simp), hblock]
    simp
  | setEncodings hcount hrange =>
    have hints := unpackInts_beInt32 hrange rest
    simp [ClientMessage.type, ClientMessage.call, handleMessage, u16At_be16_zero hcount, hbuffer,
      hints, length_flatten_beInt32, -List.length_flatten]
  | framebufferUpdateRequest incremental hx hy hw hh hwidth hheight =>
    simp [ClientMessage.type, ClientMessage.call, handleMessage, u16At_be16 hx, u16At_be16 hy,
      u16At_be16 hw, u16At_be16_zero hh, hwidth, hheight]
    cases incremental <;> rfl
  | keyEvent hkey down =>
    simp [ClientMessage.type, ClientMessage.call, handleMessage, u32At_be32_zero hkey]
    cases down <;> rfl
  | pointerEvent hx hy hbuttonmask =>
    simp [ClientMessage.type, ClientMessage.call, handleMessage, u16At_be16 hx, u16At_be16_zero hy,
      Nat.mod_eq_of_lt hbuttonmask]
  | clientCutText => exact absurd (.inl rfl) htype
  | clientFence hflags hlength =>
    simp [ClientMessage.type, ClientMessage.call, handleMessage, u32At_be32 hflags, hbuffer,
      Nat.mod_eq_of_lt hlength]
  | qemuExtendedKeyEvent => exact absurd (.inr rfl) htype

/-- The header of any other message arms the handler of its body. -/
theorem handleMessage_hasHandler (h : Wire m head body) (htype : HasHandler m.type) (offset : ℕ) :
    handleMessage offset m.type (head.drop 1) s =
      (s.arm (bodyHandler m.type body.length), none) := by
  cases h <;> try rcases htype with htype | htype <;> cases htype
  case clientCutText hlatin hlength =>
    simp [ClientMessage.type, handleMessage, bodyHandler, u32At_be32_zero hlength]
  case qemuExtendedKeyEvent => rfl

theorem need_bodyHandler (h : Wire m head body) (htype : HasHandler m.type) :
    (bodyHandler m.type body.length).need = body.length := by
  cases h <;> try rcases htype with htype | htype <;> cases htype
  case clientCutText => rfl
  case qemuExtendedKeyEvent => rfl

/-- The handler of a body makes the call. That of a QEMU event reads it where it is, but deletes
two bytes more. -/
theorem handle_body (h : Wire m head body) (htype : HasHandler m.type)
    (hhandler : s.handler = bodyHandler m.type body.length) (hbuffer : s.buffer = body ++ rest) :
    s.handle = ((callback s.consumed m.call (s.delete (body.length + excess m.type))).arm
      (.protocol 1), none) := by
  rw [handle, hhandler]
  cases h <;> try rcases htype with htype | htype <;> cases htype
  case clientCutText hlatin hlength =>
    simp [ClientMessage.type, ClientMessage.call, bodyHandler, excess, handleClientCutText, hbuffer]
  case qemuExtendedKeyEvent hdownFlag hkeysym hkeycode =>
    simp [ClientMessage.type, ClientMessage.call, bodyHandler, excess, handleQemuExtendedKeyEvent,
      hbuffer, u16At_be16 hdownFlag, u32At_be32 hkeysym, u32At_be32 hkeycode]

/-! ## Taking messages off the buffer -/

/-- The loop gets from `s` to `s'`. -/
def Advances (s s' : RFBServer) : Prop := ∀ o, Runs s' o → Runs s o

theorem Advances.refl (s : RFBServer) : Advances s s := fun _ h => h

theorem Advances.trans {s' s'' : RFBServer} (h : Advances s s') (h' : Advances s' s'') :
    Advances s s'' := fun o ho => h o (h' o ho)

theorem Advances.handle {s' : RFBServer} (hneed : s.handler.need ≤ s.buffer.length)
    (h : s.handle = (s', none)) : Advances s s' := fun _ ho => .step hneed h ho

/-- Receiving nothing runs the loop on what is there. -/
theorem runs_dataReceived_nil (s : RFBServer) : Runs s (s.dataReceived []) := by
  simpa using runs_dataReceived [] s

/-- What the loop makes of `s` is what it makes of a parser it gets to. -/
theorem Advances.dataReceived_eq {s' : RFBServer} (h : Advances s s') :
    s.dataReceived [] = s'.dataReceived [] :=
  (runs_dataReceived_nil s).unique (h _ (runs_dataReceived_nil s'))

/-- The loop takes `n` bytes off the buffer, making one call, and waits for the next message. -/
structure Takes (c : Callback) (n : ℕ) (s s' : RFBServer) : Prop where
  advances : Advances s s'
  buffer : s'.buffer = s.buffer.drop n
  calls : s'.calls = s.calls ++ [c]

/-- A header whose type arms no handler is taken with its body. -/
theorem takes_atOnce {t : ℕ} (h : Wire m head body) (htype : ¬ HasHandler m.type)
    (hhandler : s.handler = .protocol t) (ht : t ≤ s.buffer.length)
    (hbuffer : s.buffer = head ++ (body ++ rest)) :
    ∃ s', Takes m.call (head.length + body.length) s s' ∧ s'.handler = .protocol t := by
  have hdelete : (s.delete head.length).buffer = body ++ rest := by
    rw [buffer_delete, hbuffer, List.drop_left]
  have hhandle : s.handle = (callback s.consumed m.call
      ((s.delete head.length).delete body.length), none) := by
    rw [handle, hhandler]
    exact (handleProtocol_of_head h hbuffer).trans (handleMessage_atOnce h htype hdelete _)
  refine ⟨_, ⟨.handle (by rwa [hhandler]) hhandle, ?_, ?_⟩, ?_⟩
  · rw [buffer_callback, buffer_delete, buffer_delete, List.drop_drop]
  · simp
  · simpa using hhandler

/-- Any other header is taken alone, and arms the handler of its body. -/
theorem advances_header {t : ℕ} (h : Wire m head body) (htype : HasHandler m.type)
    (hhandler : s.handler = .protocol t) (ht : t ≤ s.buffer.length)
    (hbuffer : s.buffer = head ++ rest) :
    ∃ s', Advances s s' ∧ s'.calls = s.calls ∧ s'.buffer = rest ∧
      s'.handler = bodyHandler m.type body.length := by
  have hhandle : s.handle = ((s.delete head.length).arm (bodyHandler m.type body.length), none) := by
    rw [handle, hhandler]
    exact (handleProtocol_of_head h hbuffer).trans (handleMessage_hasHandler h htype _)
  refine ⟨_, .handle (by rwa [hhandler]) hhandle, rfl, ?_, rfl⟩
  rw [buffer_arm, buffer_delete, hbuffer, List.drop_left]

/-- The body is taken by its handler, and the threshold is reset. -/
theorem takes_body (h : Wire m head body) (htype : HasHandler m.type)
    (hhandler : s.handler = bodyHandler m.type body.length) (hbuffer : s.buffer = body ++ rest) :
    ∃ s', Takes m.call (body.length + excess m.type) s s' ∧ s'.handler = .protocol 1 := by
  have hneed : s.handler.need ≤ s.buffer.length := by
    rw [hhandler, need_bodyHandler h htype, hbuffer, List.length_append]
    omega
  exact ⟨_, ⟨.handle hneed (handle_body h htype hhandler hbuffer), by simp, by simp⟩, rfl⟩

/-- Both together. -/
theorem takes_hasHandler {t : ℕ} (h : Wire m head body) (htype : HasHandler m.type)
    (hhandler : s.handler = .protocol t) (ht : t ≤ s.buffer.length)
    (hbuffer : s.buffer = head ++ (body ++ rest)) :
    ∃ s', Takes m.call (head.length + body.length + excess m.type) s s' ∧
      s'.handler = .protocol 1 := by
  obtain ⟨s₁, hadvances, hcalls, hbuffer₁, hhandler₁⟩ := advances_header h htype hhandler ht hbuffer
  obtain ⟨s', htakes, hhandler'⟩ := takes_body h htype hhandler₁ hbuffer₁
  have hdrop : (head ++ (body ++ rest)).drop (head.length + (body.length + excess m.type)) =
      (body ++ rest).drop (body.length + excess m.type) := by
    rw [← List.drop_drop, List.drop_left]
  refine ⟨s', ⟨hadvances.trans htakes.advances, ?_, by rw [htakes.calls, hcalls]⟩, hhandler'⟩
  rw [htakes.buffer, hbuffer₁, hbuffer, Nat.add_assoc, hdrop]

/-! ## No call without its bytes -/

end RFBServer

/-- The length of the message a callback stands for. -/
def Callback.wireLen : Callback → ℕ
  | .clientInit _ => 1
  | .setPixelFormat _ => 20
  | .setEncodings encodings => 4 + 4 * encodings.length
  | .framebufferUpdate .. => 10
  | .keyEvent .. => 8
  | .pointerEvent .. => 6
  | .clientCutText block => 8 + block.length
  | .clientFence _ payload => 9 + payload.length
  | .keyEventExtended .. => 12

theorem ClientMessage.Wire.wireLen_call {m : ClientMessage} {head body : Bytes}
    (h : ClientMessage.Wire m head body) : m.call.wireLen = head.length + body.length := by
  cases h <;> simp [ClientMessage.call, Callback.wireLen, RFBServer.length_flatten_beInt32,
    -List.length_flatten]

namespace RFBServer

open ClientMessage (Wire)

variable {m : ClientMessage} {head body rest : Bytes} {s : RFBServer}

/-- The length of the header that a handler of a body has seen deleted. -/
def Handler.headerLen : Handler → ℕ
  | .qemuExtendedKeyEvent => 2
  | .clientCutText _ => 8
  | _ => 0

/-- The bytes the calls made and the header armed stand for. -/
def spent (s : RFBServer) : ℕ := (s.calls.map Callback.wireLen).sum + s.handler.headerLen

/-- The body of a message pays for the rest of the call its header has paid for. -/
theorem spent_handleMessage (offset : ℕ) (ptype : MsgC2S) (block : Bytes) (s : RFBServer) :
    (handleMessage offset ptype block s).1.spent + s.consumed ≤
      s.spent + typeLen ptype.value + (handleMessage offset ptype block s).1.consumed := by
  simp only [typeLen, MsgC2S.lookup_value]
  cases ptype <;> simp only [handleMessage]
  case setPixelFormat =>
    split
    · simp [spent, Callback.wireLen]
      omega
    · simp
  case setEncoding =>
    split
    · simp
    · next encodings hints =>
      rw [unpackInts] at hints
      split at hints
      · cases hints
        simp [spent, Callback.wireLen]
        omega
      · cases hints
  case framebufferUpdateRequest | keyEvent | pointerEvent =>
    simp [spent, Callback.wireLen]
    omega
  case clientCutText => simp [spent, Handler.headerLen]
  case clientFence =>
    simp [spent, Callback.wireLen]
    omega
  case qemuClientMessage =>
    split <;> simp [spent, Handler.headerLen]

theorem spent_handleProtocol (s : RFBServer) :
    s.handleProtocol.1.spent + s.consumed ≤ s.spent + s.handleProtocol.1.consumed := by
  rw [handleProtocol]
  split
  · exact le_rfl
  dsimp only
  split
  · simp [spent, Handler.headerLen]
  · next hlong =>
    split
    · next message hlookup =>
      have hvalue : typeLen (byteAt s.buffer 0) = typeLen message.value := by
        simp only [typeLen, hlookup, MsgC2S.lookup_value]
      have h := spent_handleMessage s.consumed message
        ((s.buffer.take (typeLen (byteAt s.buffer 0))).drop 1)
        (s.delete (typeLen (byteAt s.buffer 0)))
      rw [consumed_delete, ← hvalue, min_eq_left (by omega)] at h
      have hspent : (s.delete (typeLen (byteAt s.buffer 0))).spent = s.spent := rfl
      omega
    · simp only [spent, calls_delete, handler_delete, consumed_delete]
      omega

/-- A call of a handler makes no callback that its bytes do not pay for. -/
theorem spent_handle (hprotocol : s.handler.InProtocol) (hneed : s.handler.need ≤ s.buffer.length) :
    s.handle.1.spent + s.consumed ≤ s.spent + s.handle.1.consumed := by
  rw [handle]
  cases hhandler : s.handler <;> rw [hhandler] at hprotocol hneed <;>
    simp only [Handler.need] at hneed
  case protocol t => exact spent_handleProtocol s
  case qemuExtendedKeyEvent =>
    simp [handleQemuExtendedKeyEvent, spent, hhandler, Handler.headerLen, Callback.wireLen]
    omega
  case clientCutText length =>
    simp [handleClientCutText, spent, hhandler, Handler.headerLen, Callback.wireLen]
    omega
  all_goals exact hprotocol.elim

/-- Along the loop, calls are paid for in bytes of the buffer. -/
theorem Runs.spent_le {o : Outcome} (h : Runs s o) (hprotocol : s.handler.InProtocol) :
    o.1.spent ≤ s.spent + s.buffer.length := by
  have hboth : o.1.spent + s.consumed ≤ s.spent + o.1.consumed ∧ Deletes s o.1 := by
    induction h with
    | stop => exact ⟨le_rfl, .refl _⟩
    | raise hneed hhandle =>
      have hspent := spent_handle hprotocol hneed
      have hdeletes := (handled_handle hprotocol).toDeletes
      rw [hhandle] at hspent hdeletes
      exact ⟨hspent, hdeletes⟩
    | step hneed hhandle _ ih =>
      have hspent := spent_handle hprotocol hneed
      have hhandled := handled_handle hprotocol
      rw [hhandle] at hspent hhandled
      obtain ⟨hspent', hdeletes'⟩ := ih (hhandled.inProtocol hprotocol)
      have := hhandled.le
      have := hdeletes'.le
      exact ⟨by dsimp only at *; omega, hhandled.toDeletes.trans hdeletes'⟩
  have hge := hboth.2.ge
  have := hboth.1
  omega

theorem Takes.handled {c : Callback} {n : ℕ} {s' : RFBServer} (h : Takes c n s s') {cs : List Callback} :
    (s.dataReceived []).1.calls = s.calls ++ c :: cs ↔
      (s'.dataReceived []).1.calls = s'.calls ++ cs := by
  rw [h.advances.dataReceived_eq, h.calls, List.append_assoc, List.singleton_append]

/-- Data is received by appending it and running the loop. -/
theorem dataReceived_eq_nil (data : Bytes) (s : RFBServer) :
    s.dataReceived data = ({ s with buffer := s.buffer ++ data } : RFBServer).dataReceived [] := by
  apply RFBServer.dataReceived_eq
  have h := runs_dataReceived [] ({ s with buffer := s.buffer ++ data } : RFBServer)
  simpa using h

/-- The bytes of written messages. -/
theorem sum_wireLen {ms : List ClientMessage} {wires : List Bytes}
    (hwires : ClientMessage.Encoded ms wires) :
    ((ms.map ClientMessage.call).map Callback.wireLen).sum = wires.flatten.length := by
  induction hwires with
  | nil => rfl
  | cons hencode _ ih =>
    obtain ⟨head, body, h, rfl⟩ := ClientMessage.wire_of_encode hencode
    simp only [List.map_cons, List.sum_cons, List.flatten_cons, List.length_append, ih,
      h.wireLen_call]

/-- A QEMU event followed by other messages takes bytes that a later call would have to stand
for. -/
theorem not_calls_of_qemu {t : ℕ} (h : Wire m head body) (htype : m.type = .qemuClientMessage)
    (hhandler : s.handler = .protocol t) (ht : t ≤ s.buffer.length)
    {ms : List ClientMessage} {wires : List Bytes} (hms : ms ≠ [])
    (hwires : ClientMessage.Encoded ms wires)
    (hbuffer : s.buffer = head ++ (body ++ wires.flatten)) :
    (s.dataReceived []).1.calls ≠ s.calls ++ m.call :: ms.map ClientMessage.call := by
  obtain ⟨s', htakes, hhandler'⟩ := takes_hasHandler h (.inr htype) hhandler ht hbuffer
  intro hcalls
  rw [htakes.handled] at hcalls
  have hspent := (runs_dataReceived_nil s').spent_le (by rw [hhandler']; trivial)
  have hpaid : s'.spent + wires.flatten.length ≤ (s'.dataReceived []).1.spent := by
    simp only [spent, hcalls, List.map_append, List.sum_append, sum_wireLen hwires, hhandler',
      Handler.headerLen]
    omega
  have hlen : s'.buffer.length = wires.flatten.length - 2 := by
    rw [htakes.buffer, hbuffer, htype]
    simp [excess]
    omega
  have hpos : 0 < wires.flatten.length := by
    cases hwires with
    | nil => exact absurd rfl hms
    | cons hencode _ =>
      obtain ⟨head, body, h, rfl⟩ := ClientMessage.wire_of_encode hencode
      have := h.two_le_length_head
      rw [List.flatten_cons, List.length_append, List.length_append]
      omega
  omega

/-- A buffer that ends the loop at once. -/
theorem dataReceived_nil_of_short (h : s.buffer.length < s.handler.need) :
    s.dataReceived [] = (s, none) :=
  (runs_dataReceived_nil s).unique (.stop h)

/-- A buffer of written messages is parsed back, call by call, and is empty at the end, if and
only if no QEMU event is followed by another message. -/
theorem dataReceived_nil_messages_iff {ms : List ClientMessage} {wires : List Bytes}
    (hwires : ClientMessage.Encoded ms wires)
    (hhandler : s.handler = .protocol 1) (hbuffer : s.buffer = wires.flatten) :
    (s.dataReceived []).1.calls = s.calls ++ ms.map ClientMessage.call ∧
        (s.dataReceived []).1.buffer = [] ∧ (s.dataReceived []).2 = none ↔
      ∀ m ∈ ms.dropLast, m.type ≠ .qemuClientMessage := by
  induction hwires generalizing s with
  | nil =>
    have hstop : s.dataReceived [] = (s, none) :=
      dataReceived_nil_of_short (by simp [hhandler, hbuffer, Handler.need])
    have hempty : s.buffer = [] := hbuffer
    simp [hstop, hempty]
  | @cons m w ms wires hencode hwires ih =>
    obtain ⟨head, body, h, rfl⟩ := ClientMessage.wire_of_encode hencode
    have htwo := h.two_le_length_head
    rw [List.flatten_cons, List.append_assoc] at hbuffer
    have ht : 1 ≤ s.buffer.length := by
      rw [hbuffer, List.length_append]
      omega
    have hdrop : s.buffer.drop (head.length + body.length) = wires.flatten := by
      rw [hbuffer, ← List.append_assoc, ← List.length_append, List.drop_left]
    -- A QEMU event at the end is taken; with a message behind it, the twelve bytes deleted reach into that.
    by_cases hqemu : m.type = .qemuClientMessage
    · cases hwires with
      | nil =>
        obtain ⟨s', htakes, hhandler'⟩ := takes_hasHandler h (.inr hqemu) hhandler ht hbuffer
        have hempty : s'.buffer = [] := by
          rw [htakes.buffer, ← List.drop_drop, hdrop, List.flatten_nil, List.drop_nil]
        have hstop : s'.dataReceived [] = (s', none) :=
          dataReceived_nil_of_short (by simp [hhandler', hempty, Handler.need])
        rw [htakes.advances.dataReceived_eq, hstop, htakes.calls]
        simp [hempty]
      | cons hencode' hwires' =>
        have hne := not_calls_of_qemu h hqemu hhandler ht (List.cons_ne_nil _ _)
          (.cons hencode' hwires') hbuffer
        refine iff_of_false (fun hparsed => hne hparsed.1) (fun hnone => ?_)
        exact hnone m (by simp) hqemu
    · obtain ⟨s', htakes, hhandler'⟩ : ∃ s', Takes m.call (head.length + body.length) s s' ∧
          s'.handler = .protocol 1 := by
        by_cases hcut : m.type = .clientCutText
        · simpa [excess, hcut] using takes_hasHandler h (.inl hcut) hhandler ht hbuffer
        · exact takes_atOnce h (not_or.mpr ⟨hcut, hqemu⟩) hhandler ht hbuffer
      have hrest := ih hhandler' (htakes.buffer.trans hdrop)
      rw [List.map_cons, htakes.handled, htakes.advances.dataReceived_eq, hrest]
      cases ms with
      | nil => simp
      | cons m' ms => simp [hqemu]

/-- A parser that has just read ClientInit reads back messages delivered in one call: it makes
the call of each, with the values its fields encode, and ends with an empty buffer, if and only
if no QEMU event is followed by another message. -/
theorem dataReceived_messages_iff {ms : List ClientMessage} {wires : List Bytes}
    (hwires : ClientMessage.Encoded ms wires)
    (hhandler : s.handler = .protocol 1) (hbuffer : s.buffer = []) :
    (s.dataReceived wires.flatten).1.calls = s.calls ++ ms.map ClientMessage.call ∧
        (s.dataReceived wires.flatten).1.buffer = [] ∧
        (s.dataReceived wires.flatten).2 = none ↔
      ∀ m ∈ ms.dropLast, m.type ≠ .qemuClientMessage := by
  rw [dataReceived_eq_nil, hbuffer, List.nil_append]
  exact dataReceived_nil_messages_iff hwires hhandler rfl

/-- A parser of a 3.8 session without authentication that has just read ClientInit. -/
def admitted : RFBServer where
  passwordRequired := false
  handler := .protocol 1
  consumed := 14
  log := [(13, .clientInit 1)]

/-- A key event and, last of all, a QEMU event. -/
theorem dataReceived_messages_sample :
    (admitted.dataReceived [4, 1, 0, 0, 0, 0, 0, 97, 255, 0, 0, 1, 0, 0, 0, 97, 0, 0, 0, 30]).1.calls =
      [.clientInit 1, .keyEvent 97 1, .keyEventExtended 97 1 30] := by
  have hwires : ClientMessage.Encoded
      [.keyEvent 97 true, .qemuExtendedKeyEvent 1 97 30]
      [[4, 1, 0, 0, 0, 0, 0, 97], [255, 0, 0, 1, 0, 0, 0, 97, 0, 0, 0, 30]] :=
    .cons rfl (.cons rfl .nil)
  exact ((dataReceived_messages_iff (s := admitted) hwires rfl rfl).mpr
    (by simp [ClientMessage.type])).1

/-- A key event behind a QEMU event loses its first two bytes. -/
theorem not_parsed_behind_qemu :
    ¬ ∀ (ms : List ClientMessage) (wires : List Bytes),
      ClientMessage.Encoded ms wires →
        (admitted.dataReceived wires.flatten).1.calls =
            admitted.calls ++ ms.map ClientMessage.call ∧
          (admitted.dataReceived wires.flatten).1.buffer = [] ∧
          (admitted.dataReceived wires.flatten).2 = none := by
  intro h
  have hfail := h [.qemuExtendedKeyEvent 1 97 30, .keyEvent 97 true]
    [[255, 0, 0, 1, 0, 0, 0, 97, 0, 0, 0, 30], [4, 1, 0, 0, 0, 0, 0, 97]]
    (.cons rfl (.cons rfl .nil))
  exact absurd hfail (by decide)

end RFBServer
end VncDoTool
