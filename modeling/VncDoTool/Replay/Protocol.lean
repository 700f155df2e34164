import VncDoTool.Capture.Waiting
import VncDoTool.Replay.Messages

/-!
# Replaying a capture

`ReplayProtocol` of `replay.py`: it plays a recorded server back at a client, with a scrubber to tell
how far the handshake of the two has come.

* `Replay.Capture`: what is played back.
* `ReplayProtocol`: the attributes, with what was written.
* `ReplayProtocol.advance` and `ReplayProtocol.dataReceived`; the loop of the former takes fuel.
* `ReplayProtocol.run`: a connection, chunk by chunk.

The stall warning, which only logs, is left out.
-/

namespace VncDoTool

/-- A capture, as far as a replay cares: the bytes of the server, and the version that was negotiated,
if it was recorded. -/
structure Replay.Capture : Type where
  s2c : Bytes
  negotiatedVersion : Option Ver := none

/-- A replay. -/
structure ReplayProtocol : Type where
  scrubber : HandshakeScrubber := HandshakeScrubber.init false
  /-- What the client sent and nothing has taken yet. -/
  buffer : Bytes := []
  pos : ℕ := 0
  exhausted : Bool := false
  awaitingRequest : Bool := false
  served : Bool := false
  versionChecked : Bool := false
  /-- The writes to the transport. -/
  written : List Bytes := []
  /-- The transport has been told to close. -/
  closed : Bool := false

namespace ReplayProtocol

open Replay

variable (capture : Capture)

/-- `transport.write`. -/
def write (data : Bytes) (r : ReplayProtocol) : ReplayProtocol :=
  { r with written := r.written ++ [data] }

/-- `_version_mismatch`: true, and the connection closed, for another version than the recorded
one. -/
def versionMismatch (r : ReplayProtocol) : Bool × ReplayProtocol :=
  match r.scrubber.fields.negotiatedVersion with
  | none => (false, r)
  | some negotiated =>
    if r.versionChecked then (false, r)
    else
      let r := { r with versionChecked := true }
      match capture.negotiatedVersion with
      | none => (false, r)
      | some archived =>
        if archived = negotiated then (false, r)
        else (true, { r with closed := true, exhausted := true })

/-- `_serve_session`: hold the framebuffer until the client asks for one. -/
def serveSession (r : ReplayProtocol) : ReplayProtocol :=
  let handshakeDone := r.scrubber.waiting.isNone
  let r :=
    if ¬r.awaitingRequest ∧ handshakeDone ∧ r.scrubber.fields.width.isSome then
      { r with awaitingRequest := true }
    else r
  let saw := sawUpdateRequest r.buffer
  let r' := if r.awaitingRequest then { r with buffer := saw.2 } else r
  if r.awaitingRequest ∧ ¬saw.1 then r'
  else
    let remainder := capture.s2c.drop r'.pos
    let r' := if remainder = [] then r' else { r'.write remainder with pos := capture.s2c.length }
    { r' with exhausted := true }

/-- What a round of the loop of `advance` comes to. -/
inductive Round : Type
  /-- The loop goes on. -/
  | again (r : ReplayProtocol)
  /-- The loop is left, and the session is served. -/
  | leave (r : ReplayProtocol)
  /-- `advance` returns. -/
  | stop (r : ReplayProtocol)

/-- A round of the loop of `advance`. -/
def round (r : ReplayProtocol) : Round :=
  match r.scrubber.waiting with
  | none => .leave r
  | some ⟨.s2c, nbytes⟩ =>
    let chunk := (capture.s2c.drop r.pos).take nbytes
    -- A truncated capture: the short remainder is left to the final send.
    if chunk.length < nbytes then .leave r
    else
      let r := r.write chunk
      .again { r with
        pos := r.pos + nbytes
        scrubber := (r.scrubber.feed .s2c chunk).2 }
  | some ⟨.c2s, nbytes⟩ =>
    if r.buffer.length < nbytes then .stop r
    else
      let chunk := r.buffer.take nbytes
      let r := { r with
        buffer := r.buffer.drop nbytes
        scrubber := (r.scrubber.feed .c2s chunk).2 }
      let mismatch := r.versionMismatch capture
      if mismatch.1 then .stop mismatch.2 else .again mismatch.2

/-- The loop of `advance`; there is no result for a loop that takes more rounds than there is fuel. -/
def advanceLoop : ℕ → ReplayProtocol → Option ReplayProtocol
  | 0, _ => none
  | fuel + 1, r =>
    match r.round capture with
    | .again r => advanceLoop fuel r
    | .leave r => some (r.serveSession capture)
    | .stop r => some r

/-- `advance`. -/
def advance (fuel : ℕ) (r : ReplayProtocol) : Option ReplayProtocol :=
  if r.exhausted then some r else advanceLoop capture fuel r

/-- `dataReceived`. -/
def dataReceived (fuel : ℕ) (r : ReplayProtocol) (data : Bytes) : Option ReplayProtocol :=
  let r := if data = [] then r else { r with served := true }
  if r.exhausted then some r else advance capture fuel { r with buffer := r.buffer ++ data }

/-- `connectionMade` and the chunks that the client sends after it. -/
def run (fuel : ℕ) (chunks : List Bytes) : Option ReplayProtocol := do
  let r ← advance capture fuel {}
  chunks.foldlM (dataReceived capture fuel) r

end ReplayProtocol

end VncDoTool
