import VncDoTool.Client.Encoders
import VncDoTool.Client.Security

/-!
# Server messages

The handlers of `messages/`: the generators that read the server-to-client messages other than
FramebufferUpdate, whose type byte has already been read.
-/

namespace VncDoTool

namespace RFBClient

variable {D S : Type}

/-- What an encoder made of its arguments, or the exception it raised. -/
def encoded {σ α : Type} : Except EncodeError α → Py σ α
  | .ok v => pure v
  | .error .struct => throw ⟨.structError, "argument out of range"⟩
  | .error .unicode => throw ⟨.unicodeEncodeError, "ordinal not in range(256)"⟩

/-- SetColourMapEntries, RFC 6143 §7.6.2. -/
def setColourMapEntriesHandler (env : Env D S) : Gen D S Unit := do
  let header ← Gen.read 5
  let payloadLen := 6 * u16At header.bytes 3
  requirePayload payloadLen
  let block ← Gen.read payloadLen
  let colors := (List.range (u16At header.bytes 3)).map fun i =>
    (u16At block.bytes (6 * i), u16At block.bytes (6 * i + 2), u16At block.bytes (6 * i + 4))
  Gen.lift (env.call (.setColorMap (u16At header.bytes 1) colors))

/-- Bell, RFC 6143 §7.6.3. -/
def bellHandler (env : Env D S) : Gen D S Unit := Gen.lift (env.call .bell)

/-- ServerCutText, RFC 6143 §7.6.4. -/
def serverCutTextHandler (env : Env D S) : Gen D S Unit := do
  let header ← Gen.read 7
  let length := u32At header.bytes 3
  requirePayload length
  let text ← Gen.read length
  Gen.lift (env.call (.copyText (PyText.decodeLatin1 text.bytes)))

/-- The flags of a fence that this client understands. -/
def knownFlags : ℕ := FenceFlags.blockBefore ||| FenceFlags.blockAfter ||| FenceFlags.syncNext

/-- The answer to a fence, if it asks for one. -/
def answerFence (flags : ℕ) (payload : Bytes) : Py (Attrs D S) Unit :=
  if flags &&& FenceFlags.request ≠ 0 then do
    -- Masking, not clearing REQUEST alone, tells the server which flags are understood.
    let fence ← encoded (clientFence (flags &&& knownFlags : ℕ) payload)
    Attrs.write .message fence
  else pure ()

/-- ServerFence. -/
def serverFenceHandler : Gen D S Unit := do
  let header ← Gen.read 8
  let flags := u32At header.bytes 3
  let length := byteAt header.bytes 7
  if length = 0 then Gen.lift (answerFence flags [])
  else
    let payload ← Gen.read length
    Gen.lift (answerFence flags payload.bytes)

/-- The handler of a server message, `messages.HANDLERS`. -/
def messageHandler (env : Env D S) (msgid : ℕ) : Option (Gen D S Unit) :=
  if msgid = MsgS2C.setColourMapEntries then some (setColourMapEntriesHandler env)
  else if msgid = MsgS2C.bell then some (bellHandler env)
  else if msgid = MsgS2C.serverCutText then some (serverCutTextHandler env)
  else if msgid = MsgS2C.serverFence then some serverFenceHandler
  else none

end RFBClient

end VncDoTool
