import VncDoTool.Const
import VncDoTool.PyText
import VncDoTool.Lib.Coroutine

/-!
# The handshake scrubber

`HandshakeScrubber` of `capture.py`: it follows an RFB handshake across both directions of a
proxied stream and returns, for every chunk fed to one direction, the bytes a capture
records for it.

* `HandshakeScrubber.grammar` is the generator `_run`, cut into `offer`, `authenticate`,
  `securityResult` and `initialisation`, with `secure`, `session` and `admission` around them.
* `HandshakeScrubber.feed` and `HandshakeScrubber.flush` are `_feed` and `_flush`; the loop of
  `_feed` is `feedLoop`, a recursion on the suspended generator.
-/

namespace VncDoTool

/-- The two directions of a proxied connection. -/
inductive Tap : Type
  | s2c | c2s
  deriving DecidableEq, Repr

/-- What the grammar waits for next: a number of bytes in one direction. -/
structure Want : Type where
  tap : Tap
  nbytes : ℕ
  deriving DecidableEq, Repr

/-- AES-ECB over a fixed 64-byte username + 64-byte password struct. -/
def ardCredentialsLen : ℕ := 128

namespace HandshakeScrubber

/-- The attributes of a scrubber that the grammar reads and writes. -/
structure Fields : Type where
  preserveAuth : Bool
  protocolVersion : Option String := none
  negotiatedVersion : Option Ver := none
  securityTypes : List ℕ := []
  securityType : Option ℕ := none
  unstrippableAuth : Option String := none
  abortReason : Option String := none
  width : Option ℕ := none
  height : Option ℕ := none
  /-- Overrides what the current chunk records; `none` means verbatim. -/
  recording : Option Bytes := none
  /-- True across the auth exchange. -/
  inAuth : Bool := false
  deriving DecidableEq, Repr

/-- The answer to a want is exactly the bytes it names. -/
abbrev Answer (w : Want) : Type := Block w.nbytes

/-- A point of the grammar. -/
abbrev Step : Type := Coroutine.Step Want Answer Empty Fields Unit

/-- A piece of the grammar. -/
abbrev Grammar (α : Type) : Type := Coroutine Want Answer Empty Fields α

/-- `yield _Want(tap, nbytes)`. -/
def want (tap : Tap) (nbytes : ℕ) : Grammar (Block nbytes) :=
  (Coroutine.yield (Want.mk tap nbytes) : Grammar (Answer (Want.mk tap nbytes)))

/-- `_record`. -/
def record (data : Bytes) : Grammar Unit :=
  Coroutine.modify fun f => { f with recording := some data }

/-- `_give_up`. -/
def giveUp (why : String) : Grammar Unit :=
  Coroutine.modify fun f =>
    if f.preserveAuth then f
    else { f with abortReason := some (why ++
      "; vncdotool can no longer tell where this handshake's credentials end, so it cannot " ++
      "strip them. Re-run with --capture-raw-unsafe, using a disposable password you rotate " ++
      "afterwards, if you need this session captured.") }

/-- The version a reply names, `none` when either number does not parse. -/
def parseVersion (head : Bytes) : Option Ver :=
  match PyText.int ((head.drop 4).take 3), PyText.int ((head.drop 8).take 3) with
  | some major, some minor => some (major, minor)
  | _, _ => none

/-- What `unstrippable_auth` calls a security type. -/
def unstrippableName (sectype : ℕ) : String :=
  let name := ((AuthTypes.lookup sectype).map AuthTypes.name).getD "unknown"
  let shown := name.toLower.replace "_" "-"
  s!"{shown}({sectype})"

/-- The security type offer and choice: from 3.7 on the server lists types and the client
answers with one; before, the server dictates it. `none` is a refused connection. -/
def offer (negotiated : Ver) : Grammar (Option ℕ) :=
  if Ver.le (3, 7) negotiated then do
    let numTypes ← want .s2c 1
    if byteAt numTypes.bytes 0 = 0 then pure none
    else do
      -- the real count and list are re-emitted as one `none` offer by the step below
      record []
      let types ← want .s2c (byteAt numTypes.bytes 0)
      Coroutine.modify fun f => { f with securityTypes := types.bytes.map UInt8.toNat }
      record [1, UInt8.ofNat AuthTypes.none.value]
      let sectype ← want .c2s 1
      record [UInt8.ofNat AuthTypes.none.value]
      pure (some (byteAt sectype.bytes 0))
  else do
    let auth ← want .s2c 4
    if u32At auth.bytes 0 = AuthTypes.invalid.value then pure none
    else do
      record (be32 AuthTypes.none.value)
      Coroutine.modify fun f => { f with securityTypes := [u32At auth.bytes 0] }
      pure (some (u32At auth.bytes 0))

/-- The exchange of one security type; `false` for one whose exchange has no known end. -/
def authenticate (sectype : ℕ) : Grammar Bool :=
  if sectype = AuthTypes.vncAuthentication.value then do
    let _challenge ← want .s2c 16
    let _response ← want .c2s 16
    pure true
  else if sectype = AuthTypes.diffieHellman.value then do
    let head ← want .s2c 4
    let keyLen := u16At head.bytes 2
    let _modulus ← want .s2c keyLen
    let _serverKey ← want .s2c keyLen
    let _credentials ← want .c2s ardCredentialsLen
    let _clientKey ← want .c2s keyLen
    pure true
  else if sectype = AuthTypes.none.value ∨ sectype = AuthTypes.invalid.value then pure true
  else do
    Coroutine.modify fun f =>
      let f := { f with unstrippableAuth := some (unstrippableName sectype) }
      if f.preserveAuth then f
      else { f with abortReason := some ("the session negotiated " ++
        unstrippableName sectype ++
        ", whose exchange vncdotool cannot follow; it cannot tell where the credentials " ++
        "end, so it cannot strip them. Re-run with --capture-raw-unsafe, using a " ++
        "disposable password you rotate afterwards, if you need this exchange captured.") }
    pure false

/-- The SecurityResult, which follows in every case but one: before 3.8 the `none` type jumps
straight to ClientInit. `false` when authentication failed. -/
def securityResult (negotiated : Ver) (sectype : ℕ) : Grammar Bool :=
  if ¬ Ver.le (3, 8) negotiated ∧ sectype = AuthTypes.none.value then pure true
  else do
    let result ← want .s2c 4
    if u32At result.bytes 0 = 0 then do
      record (if Ver.le (3, 8) negotiated then be32 0 else [])
      pure true
    else do
      -- before 3.8 `none` has no SecurityResult slot to put a real failure in
      if Ver.le (3, 8) negotiated then pure false
      else do
        record []
        pure false

/-- ClientInit, ServerInit and the server name. -/
def initialisation : Grammar Unit := do
  let _shared ← want .c2s 1
  -- width(2) height(2) pixel-format(16) name-len(4)
  let serverInit ← want .s2c 24
  Coroutine.modify fun f =>
    { f with width := some (u16At serverInit.bytes 0), height := some (u16At serverInit.bytes 2) }
  if u32At serverInit.bytes 20 = 0 then pure ()
  else do
    let _name ← want .s2c (u32At serverInit.bytes 20)
    pure ()

/-- What follows a completed exchange. -/
def admission (negotiated : Ver) (sectype : ℕ) : Grammar Unit := do
  Coroutine.modify fun f => { f with inAuth := false }
  if ← securityResult negotiated sectype then initialisation
  else pure ()

/-- What follows the choice of a security type. -/
def session (negotiated : Ver) (sectype : ℕ) : Grammar Unit := do
  Coroutine.modify fun f => { f with securityType := some sectype, inAuth := true }
  if ← authenticate sectype then admission negotiated sectype
  else pure ()

/-- What follows the offer; a refused connection ends the grammar. -/
def chosen (negotiated : Ver) : Option ℕ → Grammar Unit
  | none => pure ()
  | some sectype => session negotiated sectype

/-- What follows the version exchange. -/
def secure (negotiated : Ver) : Grammar Unit := offer negotiated >>= chosen negotiated

/-- `_run`. It branches on the client's reply, not the server's greeting. -/
def grammar : Grammar Unit := do
  let serverHead ← want .s2c 12
  let version := PyText.rstripNewline (PyText.decodeAscii serverHead.bytes)
  Coroutine.modify fun f => { f with protocolVersion := some version }
  let clientHead ← want .c2s 12
  match parseVersion clientHead.bytes with
  | none => giveUp ("could not parse the client's version reply " ++ PyText.repr clientHead.bytes)
  | some negotiated => do
    Coroutine.modify fun f => { f with negotiatedVersion := some negotiated }
    secure negotiated

end HandshakeScrubber

/-- A scrubber: where its grammar stands, with its attributes, and what each tap still holds
back. -/
structure HandshakeScrubber : Type where
  step : HandshakeScrubber.Step
  pending : Tap → Bytes

namespace HandshakeScrubber

/-- `__init__`: the grammar runs to its first want. -/
def init (preserveAuth : Bool) : HandshakeScrubber where
  step := grammar.run { preserveAuth := preserveAuth }
  pending := fun _ => []

/-- The attributes of a scrubber. -/
def fields (s : HandshakeScrubber) : Fields := s.step.state

/-- `waiting`: the direction and byte count the grammar waits for, `none` once it has ended. -/
def waiting (s : HandshakeScrubber) : Option Want := s.step.request

/-- Whether the grammar waits on a tap, `_waiting_on(tap) is not None`. -/
def Watches (step : Step) (tap : Tap) : Prop := ∃ w, step.request = some w ∧ w.tap = tap

instance (step : Step) (tap : Tap) : Decidable (Watches step tap) :=
  match h : step.request with
  | none => isFalse fun ⟨_, hw, _⟩ => by simp [h] at hw
  | some w =>
    if hw : w.tap = tap then isTrue ⟨w, h, hw⟩
    else isFalse fun ⟨w', hw', ht⟩ => hw (by rw [h] at hw'; cases hw'; exact ht)

/-- What one chunk records, given the attributes before and after the grammar has seen it.
Inside the auth exchange a step that records nothing of its own drops its chunk. -/
def recorded (before after : Fields) (chunk : Bytes) : Bytes :=
  if before.preserveAuth then chunk
  else after.recording.getD (if before.inAuth then [] else chunk)

/-- The loop of `_feed`: resume the grammar as long as it waits on this tap and the buffer
holds enough. Returns the grammar, the buffer and the recorded bytes. -/
def feedLoop (tap : Tap) : Step → Bytes → Step × Bytes × Bytes
  | .yielded f w k, buf =>
    if h : w.tap = tap ∧ w.nbytes ≤ buf.length then
      let chunk := Block.ofPrefix w.nbytes buf h.2
      let next := k chunk { f with recording := none }
      let rest := feedLoop tap next (buf.drop w.nbytes)
      (rest.1, rest.2.1, recorded f next.state chunk.bytes ++ rest.2.2)
    else (.yielded f w k, buf, [])
  | step, buf => (step, buf, [])

/-- `_feed`: what this direction records for `data`, and the scrubber afterwards. -/
def feed (tap : Tap) (data : Bytes) (s : HandshakeScrubber) : Bytes × HandshakeScrubber :=
  if data = [] then ([], s)
  else if Watches s.step tap then
    let r := feedLoop tap s.step (s.pending tap ++ data)
    if Watches r.1 tap then (r.2.2, ⟨r.1, Function.update s.pending tap r.2.1⟩)
    else (r.2.2 ++ r.2.1, ⟨r.1, Function.update s.pending tap []⟩)
  else (s.pending tap ++ data, ⟨s.step, Function.update s.pending tap []⟩)

/-- `_flush`: the bytes left on a tap, dropped while a partial handshake is being rewritten. -/
def flush (tap : Tap) (s : HandshakeScrubber) : Bytes × HandshakeScrubber :=
  let midRewrite := s.step.request.isSome && !s.fields.preserveAuth
  (if midRewrite && s.pending tap ≠ [] then [] else s.pending tap,
    ⟨s.step, Function.update s.pending tap []⟩)

/-- Bytes arriving on the taps: which direction, and the chunk. -/
abbrev Event : Type := Tap × Bytes

/-- What a capture records of each direction: every output of `feed`, in order. -/
def feedAll : List Event → HandshakeScrubber → (Tap → Bytes) × HandshakeScrubber
  | [], s => (fun _ => [], s)
  | (tap, data) :: rest, s =>
    let r := feed tap data s
    let t := feedAll rest r.2
    (Function.update t.1 tap (r.1 ++ t.1 tap), t.2)

/-- A whole recording: the outputs of `feed` followed by those of `flush`. -/
def recording (events : List Event) (s : HandshakeScrubber) : Tap → Bytes :=
  let r := feedAll events s
  fun tap => r.1 tap ++ (flush tap r.2).1

end HandshakeScrubber

end VncDoTool
