import VncDoTool.Const
import VncDoTool.PixelFormat

/-!
# The client-side parser of the proxy

`RFBServer` of `loggingproxy.py`: it parses the bytes a client sends, the handshake first and
then its messages, and makes one callback for each.

* `RFBServer.handle`: one call of the armed handler.
* `RFBServer.dataReceived`: append the data and call the armed handler while the buffer holds
  what it asks for. `run_isSome` says the loop always ends, and `Runs` is the loop as a relation.
* `Handled`: what a handler behind ClientInit can do.
* `receive_induction`: the induction over chunks and handler calls.
-/

namespace VncDoTool

/-- `TYPE_LEN`: the length of the fixed part of a message; unknown types have none. -/
def typeLen (ptype : ℕ) : ℕ :=
  match MsgC2S.lookup ptype with
  | some .setPixelFormat => 20
  | some .setEncoding => 4
  | some .framebufferUpdateRequest => 10
  | some .keyEvent => 8
  | some .pointerEvent => 6
  | some .clientCutText => 8
  | some .qemuClientMessage => 2
  | some .clientFence => 9
  | none => 0

/-- The methods of the parser that a subclass overrides, with their arguments. -/
inductive Callback : Type
  | clientInit (shared : ℕ)
  | setPixelFormat (pixelFormat : PixelFormat)
  | setEncodings (encodings : List ℤ)
  | framebufferUpdate (x y w h incremental : ℕ)
  | keyEvent (key down : ℕ)
  | pointerEvent (x y buttonmask : ℕ)
  | clientCutText (block : Bytes)
  | clientFence (flags : ℕ) (payload : Bytes)
  | keyEventExtended (keysym down keycode : ℕ)
  deriving DecidableEq

/-- A callback for a message, as opposed to ClientInit. -/
def Callback.IsMessage : Callback → Prop
  | .clientInit _ => False
  | _ => True

/-- What a handler raises. -/
inductive ServerError : Type
  /-- `ProtocolError`, with the type or subtype nobody handles. -/
  | protocolError (code : ℕ)
  /-- `struct.error`: fewer bytes than the fields need. -/
  | struct
  deriving DecidableEq, Repr

namespace RFBServer

/-- `_handler`: a method, and the number of bytes it waits for. -/
inductive Handler : Type
  | version
  | security
  | vncAuthResponse
  | clientInit
  | protocol (nbytes : ℕ)
  | qemuExtendedKeyEvent
  | clientCutText (length : ℕ)
  deriving DecidableEq, Repr

/-- `_handler[1]`. -/
def Handler.need : Handler → ℕ
  | .version => 12
  | .security => 1
  | .vncAuthResponse => 16
  | .clientInit => 1
  | .protocol nbytes => nbytes
  | .qemuExtendedKeyEvent => 10
  | .clientCutText length => length

end RFBServer

/-- A parser. `consumed` counts the bytes deleted from the front of the buffer, and `log` holds
the callbacks made, each with the count when its handler was called. -/
structure RFBServer : Type where
  passwordRequired : Bool
  buffer : Bytes := []
  handler : RFBServer.Handler := .version
  /-- `transport.loseConnection()` has been called. -/
  losing : Bool := false
  consumed : ℕ := 0
  log : List (ℕ × Callback) := []
  deriving DecidableEq

namespace RFBServer

/-- `del self.buffer[:n]`. -/
def delete (n : ℕ) (s : RFBServer) : RFBServer :=
  { s with buffer := s.buffer.drop n, consumed := s.consumed + min n s.buffer.length }

/-- Make a callback from the handler called at offset `offset`. -/
def callback (offset : ℕ) (c : Callback) (s : RFBServer) : RFBServer :=
  { s with log := s.log ++ [(offset, c)] }

/-- Arm a handler. -/
def arm (handler : Handler) (s : RFBServer) : RFBServer := { s with handler := handler }

/-- The calls made, without their offsets. -/
def calls (s : RFBServer) : List Callback := s.log.map Prod.snd

/-- What a handler returns: the parser, and the exception that ended it. -/
abbrev Outcome : Type := RFBServer × Option ServerError

/-- `b"003"`, `b"005"`, `b"007"`, `b"008"`. -/
def digits (n : UInt8) : Bytes := [48, 48, 48 + n]

/-- `b"RFB 003."`. -/
def versionPrefix : Bytes := [82, 70, 66, 32, 48, 48, 51, 46]

/-- `_handle_version`. -/
def handleVersion (s : RFBServer) : RFBServer :=
  let msg := s.buffer.take 12
  let s := s.delete 12
  let s := if ¬ versionPrefix <+: msg ∧ msg.getLast? = some 10 then { s with losing := true } else s
  let version := (msg.drop 8).take 3
  if version = digits 3 ∨ version = digits 5 then
    s.arm (if s.passwordRequired then .vncAuthResponse else .clientInit)
  else if version = digits 7 ∨ version = digits 8 then s.arm .security
  else s

/-- `_handle_security`. -/
def handleSecurity (s : RFBServer) : RFBServer :=
  let sectype := byteAt s.buffer 0
  (s.delete 1).arm
    (if sectype = AuthTypes.vncAuthentication.value then .vncAuthResponse else .clientInit)

/-- `_handle_VNCAuthResponse`. -/
def handleVNCAuthResponse (s : RFBServer) : RFBServer := (s.delete 16).arm .clientInit

/-- `_handle_clientInit`. -/
def handleClientInit (s : RFBServer) : RFBServer :=
  (callback s.consumed (.clientInit (byteAt s.buffer 0)) (s.delete 1)).arm (.protocol 1)

/-- `_handle_qemuExtendedKeyEvent`: `!HII`, ten bytes, but it deletes twelve. -/
def handleQemuExtendedKeyEvent (s : RFBServer) : RFBServer :=
  (callback s.consumed
    (.keyEventExtended (u32At s.buffer 2) (u16At s.buffer 0) (u32At s.buffer 6))
    (s.delete 12)).arm (.protocol 1)

/-- `_handle_clientCutText`. -/
def handleClientCutText (length : ℕ) (s : RFBServer) : RFBServer :=
  (callback s.consumed (.clientCutText (s.buffer.take length)) (s.delete length)).arm (.protocol 1)

/-- `struct.unpack_from("!" + "i" * n, b)`. -/
def unpackInts (n : ℕ) (b : Bytes) : Option (List ℤ) :=
  if 4 * n ≤ b.length then some ((List.range n).map fun i => i32At b (4 * i)) else none

/-- The body of a message whose fixed part `block` has been deleted, in the branch of its type. -/
def handleMessage (offset : ℕ) (ptype : MsgC2S) (block : Bytes) (s : RFBServer) : Outcome :=
  match ptype with
  | .setPixelFormat =>
    if h : 16 ≤ (block.drop 3).length then
      (callback offset (.setPixelFormat (.fromBytes (.ofPrefix 16 (block.drop 3) h))) s, none)
    else (s, some .struct)
  | .setEncoding =>
    let nencodings := u16At block 1
    match unpackInts nencodings s.buffer with
    | none => (s, some .struct)
    | some encodings =>
      (callback offset (.setEncodings encodings) (s.delete (4 * nencodings)), none)
  | .framebufferUpdateRequest =>
    (callback offset (.framebufferUpdate (u16At block 1) (u16At block 3) (u16At block 5)
      (u16At block 7) (byteAt block 0)) s, none)
  | .keyEvent => (callback offset (.keyEvent (u32At block 3) (byteAt block 0)) s, none)
  | .pointerEvent =>
    (callback offset (.pointerEvent (u16At block 1) (u16At block 3) (byteAt block 0)) s, none)
  | .clientCutText => (s.arm (.clientCutText (u32At block 3)), none)
  | .clientFence =>
    let length := byteAt block 7
    (callback offset (.clientFence (u32At block 3) (s.buffer.take length)) (s.delete length), none)
  | .qemuClientMessage =>
    let subtype := byteAt block 0
    if subtype = QemuClientMessage.extendedKeyEvent then (s.arm .qemuExtendedKeyEvent, none)
    else (s, some (.protocolError subtype))

/-- `_handle_protocol`. -/
def handleProtocol (s : RFBServer) : Outcome :=
  if s.buffer = [] then (s, some .struct)
  else
    let ptype := byteAt s.buffer 0
    let nbytes := typeLen ptype
    if s.buffer.length < nbytes then (s.arm (.protocol nbytes), none)
    else
      let block := (s.buffer.take nbytes).drop 1
      let offset := s.consumed
      let s := s.delete nbytes
      match MsgC2S.lookup ptype with
      | some message => handleMessage offset message block s
      | none => (s, some (.protocolError ptype))

/-- `self._handler[0]()`. -/
def handle (s : RFBServer) : Outcome :=
  match s.handler with
  | .version => (s.handleVersion, none)
  | .security => (s.handleSecurity, none)
  | .vncAuthResponse => (s.handleVNCAuthResponse, none)
  | .clientInit => (s.handleClientInit, none)
  | .protocol _ => s.handleProtocol
  | .qemuExtendedKeyEvent => (s.handleQemuExtendedKeyEvent, none)
  | .clientCutText length => (s.handleClientCutText length, none)

/-- The loop of `dataReceived`, for at most `fuel` calls of a handler. -/
def run : ℕ → RFBServer → Option Outcome
  | 0, _ => none
  | fuel + 1, s =>
    if s.handler.need ≤ s.buffer.length then
      match s.handle with
      | (s, some e) => some (s, some e)
      | (s, none) => run fuel s
    else some (s, none)

/-! ## What the record updates change -/

section Updates

variable (s : RFBServer) (n offset : ℕ) (c : Callback) (h : Handler)

@[simp] theorem buffer_delete : (s.delete n).buffer = s.buffer.drop n := rfl
@[simp] theorem consumed_delete :
    (s.delete n).consumed = s.consumed + min n s.buffer.length := rfl
@[simp] theorem handler_delete : (s.delete n).handler = s.handler := rfl
@[simp] theorem log_delete : (s.delete n).log = s.log := rfl
@[simp] theorem passwordRequired_delete :
    (s.delete n).passwordRequired = s.passwordRequired := rfl

@[simp] theorem buffer_callback : (s.callback offset c).buffer = s.buffer := rfl
@[simp] theorem consumed_callback : (s.callback offset c).consumed = s.consumed := rfl
@[simp] theorem handler_callback : (s.callback offset c).handler = s.handler := rfl
@[simp] theorem log_callback : (s.callback offset c).log = s.log ++ [(offset, c)] := rfl
@[simp] theorem passwordRequired_callback :
    (s.callback offset c).passwordRequired = s.passwordRequired := rfl

@[simp] theorem buffer_arm : (s.arm h).buffer = s.buffer := rfl
@[simp] theorem consumed_arm : (s.arm h).consumed = s.consumed := rfl
@[simp] theorem handler_arm : (s.arm h).handler = h := rfl
@[simp] theorem log_arm : (s.arm h).log = s.log := rfl
@[simp] theorem calls_delete : (s.delete n).calls = s.calls := rfl
@[simp] theorem calls_callback : (s.callback offset c).calls = s.calls ++ [c] := by
  simp [calls]
@[simp] theorem calls_arm : (s.arm h).calls = s.calls := rfl

@[simp] theorem passwordRequired_arm : (s.arm h).passwordRequired = s.passwordRequired := rfl

end Updates

/-! ## What one call of a handler can do -/

/-- The handlers behind ClientInit. -/
def Handler.InProtocol : Handler → Prop
  | .protocol _ | .qemuExtendedKeyEvent | .clientCutText _ => True
  | _ => False

/-- What a call of a handler deletes: some bytes from the front of the buffer. -/
structure Deletes (s s' : RFBServer) : Prop where
  le : s.consumed ≤ s'.consumed
  ge : s'.consumed ≤ s.consumed + s.buffer.length
  buffer : s'.buffer = s.buffer.drop (s'.consumed - s.consumed)
  passwordRequired : s'.passwordRequired = s.passwordRequired

namespace Deletes

variable {s s' s'' : RFBServer}

theorem refl (s : RFBServer) : Deletes s s := ⟨le_rfl, by omega, by simp, rfl⟩

theorem delete (s : RFBServer) (n : ℕ) : Deletes s (s.delete n) := by
  refine ⟨by simp, by simp, ?_, rfl⟩
  simp only [buffer_delete, consumed_delete, Nat.add_sub_cancel_left]
  rcases le_total n s.buffer.length with h | h
  · rw [min_eq_left h]
  · rw [min_eq_right h, List.drop_eq_nil_of_le h, List.drop_length]

theorem callback (h : Deletes s s') (offset : ℕ) (c : Callback) :
    Deletes s (s'.callback offset c) := ⟨h.le, h.ge, h.buffer, h.passwordRequired⟩

theorem arm (h : Deletes s s') (handler : Handler) : Deletes s (s'.arm handler) :=
  ⟨h.le, h.ge, h.buffer, h.passwordRequired⟩

theorem trans (h : Deletes s s') (h' : Deletes s' s'') : Deletes s s'' := by
  obtain ⟨hle, hge, hbuffer, hpassword⟩ := h
  obtain ⟨hle', hge', hbuffer', hpassword'⟩ := h'
  have hlen : s'.buffer.length = s.buffer.length - (s'.consumed - s.consumed) := by
    rw [hbuffer, List.length_drop]
  refine ⟨hle.trans hle', by omega, ?_, hpassword'.trans hpassword⟩
  rw [hbuffer', hbuffer, List.drop_drop]
  congr 1
  omega

theorem length_le (h : Deletes s s') : s'.buffer.length ≤ s.buffer.length := by
  rw [h.buffer, List.length_drop]
  omega

end Deletes

/-- What a handler behind ClientInit does: it deletes from the front of the buffer, stays
behind ClientInit, and makes at most one callback, of a message. -/
structure Handled (offset : ℕ) (s s' : RFBServer) : Prop extends Deletes s s' where
  inProtocol : s.handler.InProtocol → s'.handler.InProtocol
  log : s'.log = s.log ∨ ∃ c, c.IsMessage ∧ s'.log = s.log ++ [(offset, c)]

namespace Handled

variable {offset : ℕ} {s s' : RFBServer} {c : Callback}

/-- A handler that makes its callback and stays armed. -/
theorem call (h : Deletes s s') (hlog : s'.log = s.log) (hhandler : s'.handler = s.handler)
    (hc : c.IsMessage) : Handled offset s (s'.callback offset c) :=
  { h.callback offset c with
    inProtocol := fun hs => by simpa [hhandler] using hs
    log := .inr ⟨c, hc, by simp [hlog]⟩ }

/-- A handler that only arms another. -/
theorem arm {handler : Handler} (h : Deletes s s') (hlog : s'.log = s.log)
    (hhandler : handler.InProtocol) : Handled offset s (s'.arm handler) :=
  { h.arm handler with
    inProtocol := fun _ => hhandler
    log := .inl hlog }

/-- A handler that does nothing more. -/
theorem stay (h : Deletes s s') (hlog : s'.log = s.log) (hhandler : s'.handler = s.handler) :
    Handled offset s s' :=
  { h with
    inProtocol := fun hs => by rwa [hhandler]
    log := .inl hlog }

end Handled

theorem handled_handleMessage (offset : ℕ) (ptype : MsgC2S) (block : Bytes) (s : RFBServer) :
    Handled offset s (handleMessage offset ptype block s).1 := by
  cases ptype <;> simp only [handleMessage]
  case setPixelFormat =>
    split
    · exact .call (.refl s) rfl rfl trivial
    · exact .stay (.refl s) rfl rfl
  case setEncoding =>
    split
    · exact .stay (.refl s) rfl rfl
    · exact .call (.delete s _) rfl rfl trivial
  case framebufferUpdateRequest => exact .call (.refl s) rfl rfl trivial
  case keyEvent => exact .call (.refl s) rfl rfl trivial
  case pointerEvent => exact .call (.refl s) rfl rfl trivial
  case clientCutText => exact .arm (.refl s) rfl trivial
  case clientFence => exact .call (.delete s _) rfl rfl trivial
  case qemuClientMessage =>
    split
    · exact .arm (.refl s) rfl trivial
    · exact .stay (.refl s) rfl rfl

theorem handled_handleProtocol (s : RFBServer) : Handled s.consumed s s.handleProtocol.1 := by
  rw [handleProtocol]
  split
  · exact .stay (.refl s) rfl rfl
  dsimp only
  split
  · exact .arm (.refl s) rfl trivial
  · have hdelete := Deletes.delete s (typeLen (byteAt s.buffer 0))
    split
    · next message _ =>
      have h := handled_handleMessage s.consumed message
        ((s.buffer.take (typeLen (byteAt s.buffer 0))).drop 1)
        (s.delete (typeLen (byteAt s.buffer 0)))
      exact { hdelete.trans h.toDeletes with inProtocol := h.inProtocol, log := h.log }
    · exact .stay hdelete rfl rfl

theorem handled_handle {s : RFBServer} (h : s.handler.InProtocol) :
    Handled s.consumed s s.handle.1 := by
  rw [handle]
  cases hhandler : s.handler <;> rw [hhandler] at h
  case protocol nbytes => exact handled_handleProtocol s
  case qemuExtendedKeyEvent =>
    exact { ((Deletes.delete s 12).callback _ _).arm _ with
      inProtocol := fun _ => trivial
      log := .inr ⟨.keyEventExtended _ _ _, trivial, rfl⟩ }
  case clientCutText length =>
    exact { ((Deletes.delete s length).callback _ _).arm _ with
      inProtocol := fun _ => trivial
      log := .inr ⟨.clientCutText _, trivial, rfl⟩ }
  all_goals exact h.elim

/-! ## The loop ends -/

/-- How many calls the loop may still make: every call but one for an empty cut text deletes a
byte or is the last. -/
def measure (s : RFBServer) : ℕ :=
  2 * s.buffer.length + match s.handler with
    | .clientCutText _ => 1
    | _ => 0

theorem measure_le (s : RFBServer) : s.measure ≤ 2 * s.buffer.length + 1 := by
  rw [measure]
  split <;> omega

theorem le_measure (s : RFBServer) : 2 * s.buffer.length ≤ s.measure := Nat.le_add_right ..

theorem two_le_typeLen {ptype : ℕ} {m : MsgC2S} (h : MsgC2S.lookup ptype = some m) :
    2 ≤ typeLen ptype := by
  rw [typeLen, h]
  cases m <;> simp

theorem measure_handleProtocol {s s' : RFBServer} (h : s.handleProtocol = (s', none)) :
    s'.measure < s.measure ∨ s'.buffer.length < s'.handler.need := by
  rw [handleProtocol] at h
  split at h
  · cases h
  dsimp only at h
  split at h
  · next hshort =>
    cases h
    exact .inr (by simpa [Handler.need] using hshort)
  · next hlen =>
    split at h
    · next message hlookup =>
      have hhandled := handled_handleMessage s.consumed message
        ((s.buffer.take (typeLen (byteAt s.buffer 0))).drop 1)
        (s.delete (typeLen (byteAt s.buffer 0)))
      rw [h] at hhandled
      have hlength := hhandled.length_le
      have htwo := two_le_typeLen hlookup
      have hle := s'.measure_le
      have hge := s.le_measure
      simp only [buffer_delete, List.length_drop] at hlength
      left
      omega
    · cases h

@[simp] theorem buffer_handleVersion (s : RFBServer) :
    s.handleVersion.buffer = s.buffer.drop 12 := by
  simp only [handleVersion]
  split_ifs <;> rfl

/-- Deleting a byte brings the end of the loop nearer. -/
theorem measure_lt_of_length_lt {s s' : RFBServer} (h : s'.buffer.length < s.buffer.length) :
    s'.measure < s.measure := by
  have hle := s'.measure_le
  have hge := s.le_measure
  omega

/-- Each call brings the end of the loop nearer, or is the last. -/
theorem measure_handle {s s' : RFBServer} (hneed : s.handler.need ≤ s.buffer.length)
    (h : s.handle = (s', none)) :
    s'.measure < s.measure ∨ s'.buffer.length < s'.handler.need := by
  rw [handle] at h
  cases hhandler : s.handler <;> rw [hhandler] at h hneed <;> simp only [Handler.need] at hneed
  case protocol nbytes => exact measure_handleProtocol h
  case clientCutText length =>
    cases h
    left
    simp only [measure, hhandler, handleClientCutText, handler_arm, buffer_arm, buffer_callback,
      buffer_delete, List.length_drop]
    omega
  all_goals
    cases h
    refine .inl (measure_lt_of_length_lt ?_)
    simp [handleSecurity, handleVNCAuthResponse, handleClientInit, handleQemuExtendedKeyEvent]
    omega

/-- The loop ends: enough fuel is twice the length of the buffer and three. -/
theorem run_isSome {fuel : ℕ} {s : RFBServer} (h : s.measure + 2 ≤ fuel) :
    (run fuel s).isSome := by
  induction fuel generalizing s with
  | zero => omega
  | succ fuel ih =>
    rw [run]
    split
    · next hneed =>
      cases hhandle : s.handle with
      | mk s' error =>
        cases error with
        | some e => rfl
        | none =>
          rcases measure_handle hneed hhandle with hlt | hstop
          · exact ih (by omega)
          · obtain ⟨fuel, rfl⟩ : ∃ n, fuel = n + 1 := ⟨fuel - 1, by omega⟩
            simp [run, Nat.not_le.mpr hstop]
    · rfl

/-- `dataReceived`: append, then loop. -/
def dataReceived (data : Bytes) (s : RFBServer) : Outcome :=
  let s := { s with buffer := s.buffer ++ data }
  (run (s.measure + 2) s).get (run_isSome (Nat.le_refl _))

/-- A run of the loop from a parser to its outcome. -/
inductive Runs : RFBServer → Outcome → Prop
  | stop {s : RFBServer} (h : s.buffer.length < s.handler.need) : Runs s (s, none)
  | raise {s s' : RFBServer} {e : ServerError} (h : s.handler.need ≤ s.buffer.length)
      (hhandle : s.handle = (s', some e)) : Runs s (s', some e)
  | step {s s' : RFBServer} {o : Outcome} (h : s.handler.need ≤ s.buffer.length)
      (hhandle : s.handle = (s', none)) (hruns : Runs s' o) : Runs s o

theorem runs_of_run {fuel : ℕ} {s : RFBServer} {o : Outcome} (h : run fuel s = some o) :
    Runs s o := by
  induction fuel generalizing s with
  | zero => cases h
  | succ fuel ih =>
    rw [run] at h
    split at h
    · next hneed =>
      cases hhandle : s.handle with
      | mk s' error =>
        rw [hhandle] at h
        cases error with
        | some e =>
          cases h
          exact .raise hneed hhandle
        | none => exact .step hneed hhandle (ih h)
    · next hneed =>
      cases h
      exact .stop (Nat.lt_of_not_le hneed)

/-- The loop has one outcome. -/
theorem Runs.unique {s : RFBServer} {o o' : Outcome} (h : Runs s o) (h' : Runs s o') : o = o' := by
  induction h with
  | stop hstop =>
    cases h' with
    | stop => rfl
    | raise hneed => omega
    | step hneed => omega
  | raise hneed hhandle =>
    cases h' with
    | stop hstop => omega
    | raise _ hhandle' =>
      rw [hhandle] at hhandle'
      exact hhandle'
    | step _ hhandle' =>
      rw [hhandle] at hhandle'
      cases hhandle'
  | step hneed hhandle _ ih =>
    cases h' with
    | stop hstop => omega
    | raise _ hhandle' =>
      rw [hhandle] at hhandle'
      cases hhandle'
    | step _ hhandle' hruns' =>
      rw [hhandle] at hhandle'
      cases hhandle'
      exact ih hruns'

theorem runs_dataReceived (data : Bytes) (s : RFBServer) :
    Runs { s with buffer := s.buffer ++ data } (s.dataReceived data) :=
  runs_of_run (Option.some_get _).symm

theorem dataReceived_eq {data : Bytes} {s : RFBServer} {o : Outcome}
    (h : Runs { s with buffer := s.buffer ++ data } o) : s.dataReceived data = o :=
  (runs_dataReceived data s).unique h

/-- Receive chunk after chunk. An exception ends the call it is raised in, and is reported; the
next chunk is received by the parser it left. -/
def receive : List Bytes → RFBServer → RFBServer × List ServerError
  | [], s => (s, [])
  | data :: chunks, s =>
    let o := s.dataReceived data
    let r := receive chunks o.1
    (r.1, o.2.toList ++ r.2)

/-- What holds at first, and of every byte string received so far is kept by appending and by
the handlers, holds after any chunks. -/
theorem receive_induction {P : Bytes → RFBServer → Prop}
    (happend : ∀ received data s, P received s →
      P (received ++ data) { s with buffer := s.buffer ++ data })
    (hhandle : ∀ received s, P received s → s.handler.need ≤ s.buffer.length →
      P received s.handle.1)
    (received : Bytes) {s : RFBServer} (h : P received s) (chunks : List Bytes) :
    P (received ++ chunks.flatten) (receive chunks s).1 := by
  have hruns : ∀ {received : Bytes} {s : RFBServer} {o : Outcome}, Runs s o → P received s →
      P received o.1 := by
    intro received s o hruns
    induction hruns with
    | stop => exact id
    | raise hneed he =>
      intro hs
      have := hhandle _ _ hs hneed
      rwa [he] at this
    | step hneed he _ ih =>
      intro hs
      have := hhandle _ _ hs hneed
      rw [he] at this
      exact ih this
  induction chunks generalizing received s with
  | nil => simpa [receive] using h
  | cons data chunks ih =>
    have hdata := hruns (runs_dataReceived data s) (happend received data s h)
    simpa [receive] using ih _ hdata

end RFBServer

end VncDoTool
