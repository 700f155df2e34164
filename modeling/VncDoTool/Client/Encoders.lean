import VncDoTool.Const
import VncDoTool.PixelFormat

/-!
# Client-to-server messages

The encoders of `RFBClient`, `rfb.py`: what each writes to the transport, or the exception it
raises. A `ClientMessage` is a call of one of them, or the QEMU extended key event other clients
send.

* `ClientMessage.encode`: the bytes of a message.
* `ClientMessage.Wire`: their layout, a header of a fixed length and a body, and
  `wire_of_encode`: every message that could be written has it.
-/

namespace VncDoTool

/-- What an encoder raises on a value it cannot write. -/
inductive EncodeError : Type
  /-- `struct.error`: a number that does not fit its field. -/
  | struct
  /-- `UnicodeEncodeError`: a character outside Latin-1. -/
  | unicode
  deriving DecidableEq, Repr

namespace RFBClient

/-- A packed field, or `struct.error`. -/
def packed (field : Option Bytes) : Except EncodeError Bytes :=
  match field with
  | some b => .ok b
  | none => .error .struct

/-- `setPixelFormat`: `!Bxxx16s`. -/
def setPixelFormat (pixelFormat : PixelFormat) : Except EncodeError Bytes := do
  let pixformat ← packed pixelFormat.toBytes
  pure ([UInt8.ofNat MsgC2S.setPixelFormat.value, 0, 0, 0] ++ pixformat)

/-- `setEncodings`: the header `!BxH`, then one `!i` for each encoding. -/
def setEncodings (encodings : List ℤ) : Except EncodeError Bytes := do
  let count ← packed (pack16 encodings.length)
  let body ← encodings.mapM fun encoding => packed (packInt32 encoding)
  pure ([UInt8.ofNat MsgC2S.setEncoding.value, 0] ++ count ++ body.flatten)

/-- `framebufferUpdateRequest`: `!BBHHHH`. A missing width or height reaches to the edge of the
screen. -/
def framebufferUpdateRequest (screen : ℤ × ℤ) (x y : ℤ) (width height : Option ℤ)
    (incremental : Bool) : Except EncodeError Bytes := do
  let width := width.getD (screen.1 - x)
  let height := height.getD (screen.2 - y)
  let x ← packed (pack16 x)
  let y ← packed (pack16 y)
  let width ← packed (pack16 width)
  let height ← packed (pack16 height)
  pure ([UInt8.ofNat MsgC2S.framebufferUpdateRequest.value, if incremental then 1 else 0] ++ x ++
    y ++ width ++ height)

/-- `keyEvent`: `!BBxxI`. -/
def keyEvent (key : ℤ) (down : Bool) : Except EncodeError Bytes := do
  let key ← packed (pack32 key)
  pure ([UInt8.ofNat MsgC2S.keyEvent.value, if down then 1 else 0, 0, 0] ++ key)

/-- `pointerEvent`: `!BBHH`. -/
def pointerEvent (x y buttonmask : ℤ) : Except EncodeError Bytes := do
  let buttonmask ← packed (pack8 buttonmask)
  let x ← packed (pack16 x)
  let y ← packed (pack16 y)
  pure ([UInt8.ofNat MsgC2S.pointerEvent.value] ++ buttonmask ++ x ++ y)

/-- `message.encode("iso-8859-1")`. -/
def encodeLatin1 (message : String) : Except EncodeError Bytes :=
  message.toList.mapM fun c =>
    if c.toNat < 256 then .ok (UInt8.ofNat c.toNat) else .error .unicode

/-- `clientCutText`: `!BxxxI` and the text. -/
def clientCutText (message : String) : Except EncodeError Bytes := do
  let data ← encodeLatin1 message
  let length ← packed (pack32 data.length)
  pure ([UInt8.ofNat MsgC2S.clientCutText.value, 0, 0, 0] ++ length ++ data)

/-- `clientFence`: `!BxxxIB` and the payload. -/
def clientFence (flags : ℤ) (payload : Bytes) : Except EncodeError Bytes := do
  let flags ← packed (pack32 flags)
  let length ← packed (pack8 payload.length)
  pure ([UInt8.ofNat MsgC2S.clientFence.value, 0, 0, 0] ++ flags ++ length ++ payload)

end RFBClient

/-- A message to the server: a call of an encoder with its arguments, or a QEMU extended key
event. -/
inductive ClientMessage : Type
  | setPixelFormat (pixelFormat : PixelFormat)
  | setEncodings (encodings : List ℤ)
  | framebufferUpdateRequest (screen : ℤ × ℤ) (x y : ℤ) (width height : Option ℤ)
      (incremental : Bool)
  | keyEvent (key : ℤ) (down : Bool)
  | pointerEvent (x y buttonmask : ℤ)
  | clientCutText (message : String)
  | clientFence (flags : ℤ) (payload : Bytes)
  | qemuExtendedKeyEvent (downFlag keysym keycode : ℤ)

namespace ClientMessage

/-- The bytes of a message. The QEMU event is laid out `!BBHII`. -/
def encode : ClientMessage → Except EncodeError Bytes
  | setPixelFormat pixelFormat => RFBClient.setPixelFormat pixelFormat
  | setEncodings encodings => RFBClient.setEncodings encodings
  | framebufferUpdateRequest screen x y width height incremental =>
    RFBClient.framebufferUpdateRequest screen x y width height incremental
  | keyEvent key down => RFBClient.keyEvent key down
  | pointerEvent x y buttonmask => RFBClient.pointerEvent x y buttonmask
  | clientCutText message => RFBClient.clientCutText message
  | clientFence flags payload => RFBClient.clientFence flags payload
  | qemuExtendedKeyEvent downFlag keysym keycode => do
    let downFlag ← RFBClient.packed (pack16 downFlag)
    let keysym ← RFBClient.packed (pack32 keysym)
    let keycode ← RFBClient.packed (pack32 keycode)
    pure ([UInt8.ofNat MsgC2S.qemuClientMessage.value,
      UInt8.ofNat QemuClientMessage.extendedKeyEvent] ++ downFlag ++ keysym ++ keycode)

/-- Messages, each with the bytes its encoder writes. -/
abbrev Encoded (ms : List ClientMessage) (wires : List Bytes) : Prop :=
  List.Forall₂ (fun m w => m.encode = .ok w) ms wires

/-- The number a message starts with. -/
def type : ClientMessage → MsgC2S
  | setPixelFormat .. => .setPixelFormat
  | setEncodings .. => .setEncoding
  | framebufferUpdateRequest .. => .framebufferUpdateRequest
  | keyEvent .. => .keyEvent
  | pointerEvent .. => .pointerEvent
  | clientCutText .. => .clientCutText
  | clientFence .. => .clientFence
  | qemuExtendedKeyEvent .. => .qemuClientMessage

/-! ## The layout of a message that could be written -/

/-- `Wire m head body`: the fields of `m` fit, and `m` is written as a header of the fixed length
of its type and a body. -/
inductive Wire : ClientMessage → Bytes → Bytes → Prop
  | setPixelFormat (block : Block 16) :
      Wire (.setPixelFormat (.fromBytes block)) ([0, 0, 0, 0] ++ block.bytes) []
  | setEncodings {encodings : List ℤ} (hcount : encodings.length < 65536)
      (hrange : ∀ e ∈ encodings, -2 ^ 31 ≤ e ∧ e < 2 ^ 31) :
      Wire (.setEncodings encodings) ([2, 0] ++ be16 encodings.length)
        (encodings.map beInt32).flatten
  | framebufferUpdateRequest {screen : ℤ × ℤ} {width height : Option ℤ} {x y w h : ℕ}
      (incremental : Bool) (hx : x < 65536) (hy : y < 65536) (hw : w < 65536) (hh : h < 65536)
      (hwidth : width.getD (screen.1 - x) = w) (hheight : height.getD (screen.2 - y) = h) :
      Wire (.framebufferUpdateRequest screen x y width height incremental)
        ([3, if incremental then 1 else 0] ++ be16 x ++ be16 y ++ be16 w ++ be16 h) []
  | keyEvent {key : ℕ} (hkey : key < 2 ^ 32) (down : Bool) :
      Wire (.keyEvent key down) ([4, if down then 1 else 0, 0, 0] ++ be32 key) []
  | pointerEvent {x y buttonmask : ℕ} (hx : x < 65536) (hy : y < 65536)
      (hbuttonmask : buttonmask < 256) :
      Wire (.pointerEvent x y buttonmask)
        ([5, UInt8.ofNat buttonmask] ++ be16 x ++ be16 y) []
  | clientCutText {message : String} (hlatin : ∀ c ∈ message.toList, c.toNat < 256)
      (hlength : message.toList.length < 2 ^ 32) :
      Wire (.clientCutText message) ([6, 0, 0, 0] ++ be32 message.toList.length)
        (message.toList.map fun c => UInt8.ofNat c.toNat)
  | clientFence {flags : ℕ} {payload : Bytes} (hflags : flags < 2 ^ 32)
      (hlength : payload.length < 256) :
      Wire (.clientFence flags payload)
        ([248, 0, 0, 0] ++ be32 flags ++ [UInt8.ofNat payload.length]) payload
  | qemuExtendedKeyEvent {downFlag keysym keycode : ℕ} (hdownFlag : downFlag < 65536)
      (hkeysym : keysym < 2 ^ 32) (hkeycode : keycode < 2 ^ 32) :
      Wire (.qemuExtendedKeyEvent downFlag keysym keycode) [255, 0]
        (be16 downFlag ++ be32 keysym ++ be32 keycode)

theorem packed_eq_ok {field : Option Bytes} {b : Bytes} :
    RFBClient.packed field = .ok b ↔ field = some b := by
  cases field <;> simp [RFBClient.packed]

theorem bind_eq_ok {α β : Type} {x : Except EncodeError α} {f : α → Except EncodeError β} {b : β} :
    (x >>= f) = .ok b ↔ ∃ a, x = .ok a ∧ f a = .ok b := by
  cases x <;> simp [bind, Except.bind]

/-- A text that could be encoded is Latin-1, one byte a character. -/
theorem encodeLatin1_eq_ok {message : String} {data : Bytes}
    (h : RFBClient.encodeLatin1 message = .ok data) :
    (∀ c ∈ message.toList, c.toNat < 256) ∧
      data = message.toList.map fun c => UInt8.ofNat c.toNat := by
  rw [RFBClient.encodeLatin1] at h
  revert h
  generalize message.toList = chars
  intro h
  induction chars generalizing data with
  | nil =>
    cases h
    simp
  | cons c chars ih =>
    rw [List.mapM_cons, bind_eq_ok] at h
    obtain ⟨b, hb, h⟩ := h
    obtain ⟨rest, hrest, h⟩ := bind_eq_ok.mp h
    obtain ⟨hlatin, rfl⟩ := ih hrest
    split at hb
    · next hc =>
      cases hb
      cases h
      exact ⟨by simpa using ⟨hc, hlatin⟩, rfl⟩
    · cases hb

/-- Encodings that could be packed are in range. -/
theorem mapM_packInt32_eq_ok {encodings : List ℤ} {body : List Bytes}
    (h : (encodings.mapM fun e => RFBClient.packed (packInt32 e)) = .ok body) :
    (∀ e ∈ encodings, -2 ^ 31 ≤ e ∧ e < 2 ^ 31) ∧ body = encodings.map beInt32 := by
  induction encodings generalizing body with
  | nil =>
    cases h
    simp
  | cons e encodings ih =>
    rw [List.mapM_cons, bind_eq_ok] at h
    obtain ⟨b, hb, h⟩ := h
    obtain ⟨rest, hrest, h⟩ := bind_eq_ok.mp h
    obtain ⟨hrange, rfl⟩ := ih hrest
    obtain ⟨hlo, hhi, rfl⟩ := packInt32_eq_some (packed_eq_ok.mp hb)
    cases h
    exact ⟨by simpa using ⟨⟨hlo, hhi⟩, hrange⟩, rfl⟩

/-- What an encoder writes has the layout of its message. -/
theorem wire_of_encode {m : ClientMessage} {w : Bytes} (h : m.encode = .ok w) :
    ∃ head body, Wire m head body ∧ w = head ++ body := by
  -- Each `pack` that succeeds bounds its argument and fixes its bytes.
  cases m with
  | setPixelFormat pixelFormat =>
    obtain ⟨b, hb, hw⟩ := bind_eq_ok.mp h
    obtain ⟨block, rfl, rfl⟩ := PixelFormat.fromBytes_toBytes (packed_eq_ok.mp hb)
    cases hw
    exact ⟨_, _, .setPixelFormat block, (List.append_nil _).symm⟩
  | setEncodings encodings =>
    obtain ⟨count, hcount, h⟩ := bind_eq_ok.mp h
    obtain ⟨body, hbody, h⟩ := bind_eq_ok.mp h
    obtain ⟨n, hn, hlt, rfl⟩ := pack16_eq_some (packed_eq_ok.mp hcount)
    obtain ⟨hrange, rfl⟩ := mapM_packInt32_eq_ok hbody
    obtain rfl : encodings.length = n := by exact_mod_cast hn
    cases h
    exact ⟨_, _, .setEncodings hlt hrange, rfl⟩
  | framebufferUpdateRequest screen x y width height incremental =>
    obtain ⟨bx, hbx, h⟩ := bind_eq_ok.mp h
    obtain ⟨b_y, hby, h⟩ := bind_eq_ok.mp h
    obtain ⟨bw, hbw, h⟩ := bind_eq_ok.mp h
    obtain ⟨bh, hbh, h⟩ := bind_eq_ok.mp h
    obtain ⟨x, rfl, hx, rfl⟩ := pack16_eq_some (packed_eq_ok.mp hbx)
    obtain ⟨y, rfl, hy, rfl⟩ := pack16_eq_some (packed_eq_ok.mp hby)
    obtain ⟨w, hwidth, hw, rfl⟩ := pack16_eq_some (packed_eq_ok.mp hbw)
    obtain ⟨h', hheight, hh, rfl⟩ := pack16_eq_some (packed_eq_ok.mp hbh)
    cases h
    exact ⟨_, _, .framebufferUpdateRequest incremental hx hy hw hh hwidth hheight,
      (List.append_nil _).symm⟩
  | keyEvent key down =>
    obtain ⟨b, hb, h⟩ := bind_eq_ok.mp h
    obtain ⟨key, rfl, hkey, rfl⟩ := pack32_eq_some (packed_eq_ok.mp hb)
    cases h
    exact ⟨_, _, .keyEvent hkey down, (List.append_nil _).symm⟩
  | pointerEvent x y buttonmask =>
    obtain ⟨bm, hbm, h⟩ := bind_eq_ok.mp h
    obtain ⟨bx, hbx, h⟩ := bind_eq_ok.mp h
    obtain ⟨b_y, hby, h⟩ := bind_eq_ok.mp h
    obtain ⟨buttonmask, rfl, hbuttonmask, rfl⟩ := pack8_eq_some (packed_eq_ok.mp hbm)
    obtain ⟨x, rfl, hx, rfl⟩ := pack16_eq_some (packed_eq_ok.mp hbx)
    obtain ⟨y, rfl, hy, rfl⟩ := pack16_eq_some (packed_eq_ok.mp hby)
    cases h
    exact ⟨_, _, .pointerEvent hx hy hbuttonmask, (List.append_nil _).symm⟩
  | clientCutText message =>
    obtain ⟨data, hdata, h⟩ := bind_eq_ok.mp h
    obtain ⟨b, hb, h⟩ := bind_eq_ok.mp h
    obtain ⟨hlatin, rfl⟩ := encodeLatin1_eq_ok hdata
    obtain ⟨n, hn, hlt, rfl⟩ := pack32_eq_some (packed_eq_ok.mp hb)
    obtain rfl : message.toList.length = n := by
      rw [List.length_map] at hn
      exact_mod_cast hn
    cases h
    exact ⟨_, _, .clientCutText hlatin hlt, rfl⟩
  | clientFence flags payload =>
    obtain ⟨bf, hbf, h⟩ := bind_eq_ok.mp h
    obtain ⟨bl, hbl, h⟩ := bind_eq_ok.mp h
    obtain ⟨flags, rfl, hflags, rfl⟩ := pack32_eq_some (packed_eq_ok.mp hbf)
    obtain ⟨n, hn, hlt, rfl⟩ := pack8_eq_some (packed_eq_ok.mp hbl)
    obtain rfl : payload.length = n := by exact_mod_cast hn
    cases h
    exact ⟨_, _, .clientFence hflags hlt, rfl⟩
  | qemuExtendedKeyEvent downFlag keysym keycode =>
    obtain ⟨bd, hbd, h⟩ := bind_eq_ok.mp h
    obtain ⟨bs, hbs, h⟩ := bind_eq_ok.mp h
    obtain ⟨bc, hbc, h⟩ := bind_eq_ok.mp h
    obtain ⟨downFlag, rfl, hdownFlag, rfl⟩ := pack16_eq_some (packed_eq_ok.mp hbd)
    obtain ⟨keysym, rfl, hkeysym, rfl⟩ := pack32_eq_some (packed_eq_ok.mp hbs)
    obtain ⟨keycode, rfl, hkeycode, rfl⟩ := pack32_eq_some (packed_eq_ok.mp hbc)
    cases h
    exact ⟨_, _, .qemuExtendedKeyEvent hdownFlag hkeysym hkeycode, rfl⟩

end ClientMessage

end VncDoTool
