import VncDoTool.Client.Messages

/-!
# The client's parser

The startup states, the message loop and the data redirector of `RFBClient`, `rfb.py`.

* `RFBClient.Expected`: the parked handler of `expect`, which fixes how many bytes it waits for.
* `RFBClient.pump`: one step of a suspended generator, `_pump`.
* `RFBClient.handle`: one call of the parked handler.
* `RFBClient.turn`, `RFBClient.handleExpected`: the loop of `_handleExpected`. It need not
  terminate, so it runs on fuel; `none` is a run that is not over yet.
* `RFBClient.dataReceived`, `RFBClient.receive`: one delivery, and a run of deliveries.

`_already_expecting` is true exactly inside the loop. There `expect` only parks; from
`_handleInitial` it parks and starts the loop, which is the last thing that call does.
-/

namespace VncDoTool

namespace RFBClient

variable {D S : Type}

/-- What `_pump` is driving a generator for: `_finishSecurity`, `_finishMessage` or
`_finishRectangle` is called on its result. -/
inductive Task : Type
  | security (secType : ℕ)
  | message (msgid : ℕ)
  | rectangle (rect : Rect)
  deriving DecidableEq, Repr

namespace Task

/-- What the generator of a task returns. -/
abbrev Result : Task → Type
  | security _ => Bool
  | message _ => Unit
  | rectangle _ => Outcome

/-- What the client calls the task in a message. -/
def describe : Task → String
  | security secType => s!"the {AuthTypes.describe secType} security type"
  | message msgid => s!"the {MsgS2C.describe msgid} message"
  | rectangle _ => "this rectangle"

/-- What the client says it could not do with the task. -/
def verb : Task → String
  | security _ => "negotiate"
  | _ => "decode"

/-- The exceptions `_pump` turns into an abort: `_SECURITY_ERRORS` and `_DECODE_ERRORS`. -/
def catches : Task → ErrorClass → Bool
  | security _, .securityError | security _, .structError => true
  | security _, _ => false
  | _, .decodeError | _, .structError | _, .memoryError | _, .zlibError => true
  | _, _ => false

end Task

/-- The parked handler. -/
inductive Expected (D S : Type) : Type
  | auth | numberSecurityTypes | securityTypes (count : ℕ) | connFailed | connMessage (waitfor : ℕ)
  | serverInit | serverName (namelen : ℕ) | connection | framebufferUpdate | rectangle
  /-- `_pump`, with the generator suspended at a `yield`. -/
  | pump (task : Task) (size : ℤ)
      (resume : Block size.toNat → Attrs D S → GenStep D S task.Result)
  /-- `_pump`, with a generator that is finished: nothing was parked in its place. -/
  | ended (task : Task) (size : ℕ)

/-- `_expected_len`. -/
@[reducible] def Expected.len : Expected D S → ℕ
  | auth => 4
  | numberSecurityTypes => 1
  | securityTypes count => count
  | connFailed => 4
  | connMessage waitfor => waitfor
  | serverInit => 24
  | serverName namelen => namelen
  | connection => 1
  | framebufferUpdate => 3
  | rectangle => 12
  | pump _ size _ => size.toNat
  | ended _ size => size

/-- `_handler`: `_handleInitial`, or `_handleExpected` with what `expect` parked. -/
inductive Phase (D S : Type) : Type
  | initial
  | expecting (expected : Expected D S)

end RFBClient

/-- A client: its attributes, the bytes not yet handled, and where its parser stands. -/
structure RFBClient (D S : Type) : Type where
  attrs : RFBClient.Attrs D S
  packet : Bytes := []
  phase : RFBClient.Phase D S := .initial
  aborted : Bool := false

namespace RFBClient

variable {D S : Type}

/-- A client as `__init__` leaves it. -/
def fresh (factory : Factory) (decoding : D) (own : S) : RFBClient D S where
  attrs := { factory, decoding, own }

/-- Code over the attributes alone. -/
def onAttrs {α : Type} (m : Py (Attrs D S) α) : Py (RFBClient D S) α := fun c =>
  match m c.attrs with
  | .ok v a => .ok v { c with attrs := a }
  | .error e a => .error e { c with attrs := a }

/-- `expect`, inside the loop. -/
def expect (expected : Expected D S) : Py (RFBClient D S) Unit :=
  modify fun c => { c with phase := .expecting expected }

/-- `abortConnection`: report a protocol failure and stop parsing for good. -/
def abortConnection (env : Env D S) (reason : String) : Py (RFBClient D S) Unit := do
  modify fun c => { c with aborted := true, packet := [] }
  onAttrs (env.call (.vncProtocolError reason))
  onAttrs Attrs.loseConnection

/-! ## The pump -/

/-- Where a generator stands once its questions about `_packet` are answered. -/
inductive Pause (D S α : Type) : Type
  | done (a : Attrs D S) (v : α)
  | failed (a : Attrs D S) (e : PyErr)
  | wants (a : Attrs D S) (size : ℤ) (resume : Block size.toNat → Attrs D S → GenStep D S α)

/-- Answer the questions about `_packet`. -/
def drive {α : Type} (waiting : Bool) : GenStep D S α → Pause D S α
  | .done a v => .done a v
  | .failed a e => .failed a e
  | .yielded a (.bytes size) resume => .wants a size resume
  | .yielded a .packet resume => drive waiting (resume waiting a)

/-- `_doClientInitialization`. -/
def doClientInitialization : Py (RFBClient D S) Unit := do
  let c ← get
  onAttrs (Attrs.write .clientInit [if c.attrs.factory.shared then 1 else 0])
  expect .serverInit

/-- `_doConnection`. -/
def doConnection (env : Env D S) : Py (RFBClient D S) Unit := do
  let c ← get
  if c.attrs.rectangles ≠ 0 then expect .rectangle
  else
    onAttrs (env.call (.commitUpdate c.attrs.rectanglePos))
    expect .connection

/-- Record a rectangle as a screen change. -/
def record (rect : Rect) : Py (RFBClient D S) Unit :=
  onAttrs (modify fun a => { a with rectanglePos := a.rectanglePos ++ [rect] })

/-- The last lines of `_finishRectangle`. -/
def settleRectangle (env : Env D S) (rect : Rect) (changed : Bool) : Py (RFBClient D S) Unit := do
  if changed then record rect
  doConnection env

/-- `_finishRectangle`. -/
def finishRectangle (env : Env D S) (rect : Rect) (outcome : Outcome) : Py (RFBClient D S) Unit :=
  match outcome.paste with
  | none => settleRectangle env rect outcome.changed
  | some (pixels, outputFormat) =>
    let expected := rect.width * rect.height * outputFormat.bypp
    if pixels.length ≠ expected then
      abortConnection env (s!"decoder produced {pixels.length} bytes for a " ++
        s!"{rect.width}x{rect.height} rectangle at {outputFormat.bypp} " ++
        s!"bytes per pixel, which needs {expected}")
    else do
      onAttrs (env.call (.updateRectangle rect pixels outputFormat))
      settleRectangle env rect outcome.changed

/-- `on_done`, called with what the generator returned. -/
def finish (env : Env D S) : (task : Task) → task.Result → Py (RFBClient D S) Unit
  | .security _, proceed => if proceed then doClientInitialization else pure ()
  | .message _, () => expect .connection
  | .rectangle rect, outcome => finishRectangle env rect outcome

/-- `on_done(None)`: what a finished generator that is sent another block comes to. -/
def finishAgain : Task → Py (RFBClient D S) Unit
  | .security _ => pure ()
  | .message _ => expect .connection
  | .rectangle _ => throw ⟨.attributeError, "NoneType object has no attribute paste"⟩

/-- `_pump`, with the generator just run to where it stands. -/
def pump (env : Env D S) (task : Task) (x : GenStep D S task.Result) : Py (RFBClient D S) Unit := do
  let c ← get
  match drive (!c.packet.isEmpty) x with
  | .done a v =>
    set { c with attrs := a }
    finish env task v
  | .failed a e =>
    set { c with attrs := a }
    if task.catches e.cls then
      abortConnection env s!"cannot {task.verb} {task.describe}: {e.message}"
    else throw e
  | .wants a size resume =>
    set { c with attrs := a }
    if size < 0 then abortConnection env s!"decoder asked for {size} bytes"
    else expect (.pump task size resume)

/-! ## Connection startup -/

/-- `SUPPORTED_SERVER_VERSIONS`, newest first. -/
def supportedServerVersions : List Ver :=
  [(5, 0), (4, 1), (4, 0), (3, 889), (3, 8), (3, 7), (3, 3)]

/-- The version to speak with a server: the newest supported one that is no newer than the server's,
and 3.8 at most. `none` where no supported version is that old. -/
def negotiate (versionServer : Ver) : Option Ver :=
  (supportedServerVersions.find? fun v => v.le versionServer).map fun version =>
    if ¬version.le (3, 8) then (3, 8) else version

/-- `b"RFB 000.000\n"`. -/
def header : Bytes := [82, 70, 66, 32, 48, 48, 48, 46, 48, 48, 48, 10]

/-- `translate(_HEADER_TRANSLATE)`: every digit becomes a zero. -/
def normalise (b : Bytes) : Bytes := b.map fun x => if PyText.isDigit x then 48 else x

/-- `int` of a run of decimal digits. -/
def decimal (b : Bytes) : ℤ := b.foldl (fun n x => 10 * n + (x.toNat - 48 : ℤ)) 0

/-- The version a header announces. -/
def announced (head : Bytes) : Ver := (decimal ((head.drop 4).take 3), decimal ((head.drop 8).take 3))

/-- `%03d` of a number below 1000. -/
def threeDigits (n : ℤ) : Bytes :=
  [UInt8.ofNat (48 + n.toNat / 100), UInt8.ofNat (48 + n.toNat / 10 % 10),
    UInt8.ofNat (48 + n.toNat % 10)]

/-- `b"RFB %03d.%03d\n" % version`. -/
def versionMessage (version : Ver) : Bytes :=
  [82, 70, 66, 32] ++ threeDigits version.1 ++ [46] ++ threeDigits version.2 ++ [10]

/-- Answer a complete version header. -/
def answerHeader (head : Bytes) : Py (RFBClient D S) Unit := do
  let versionServer := announced head
  match negotiate versionServer with
  | none => throw ⟨.valueError, "max() arg is an empty sequence"⟩
  | some version =>
    modify fun c => { c with packet := c.packet.drop 12 }
    onAttrs (Attrs.write .protocolVersion (versionMessage version))
    onAttrs (modify fun a => { a with version := version, versionServer := versionServer })
    if ¬Ver.le (3, 7) version then expect .auth else expect .numberSecurityTypes

/-- `_handleInitial`, up to the loop it starts. -/
def handleInitial (env : Env D S) : Py (RFBClient D S) Unit := do
  let c ← get
  let head := c.packet.take 12
  if normalise head = header then answerHeader head
  else if ¬normalise head <+: header then
    abortConnection env s!"invalid initial server response bytearray({PyText.repr head})"
  else pure ()

/-- `_supportedAuths`. -/
def supportedAuthsText : String := String.intercalate ", " (supportedAuths.map AuthTypes.describe)

/-- `_offeredAuths`. -/
def offeredAuthsText (types : List ℕ) : String := String.intercalate ", " (types.map AuthTypes.describe)

/-- `_startSecurity`. -/
def startSecurity (env : Env D S) (secType : ℕ) : Py (RFBClient D S) Unit := do
  match securityHandler env secType with
  | none =>
    abortConnection env (s!"the server chose the {AuthTypes.describe secType} security type; " ++
      s!"vncdotool supports {supportedAuthsText}")
  | some handler =>
    let c ← get
    pump env (.security secType) (handler.run c.attrs)

/-- `_handleNumberSecurityTypes`. -/
def handleNumberSecurityTypes (block : Block 1) : Py (RFBClient D S) Unit :=
  let count := byteAt block.bytes 0
  if count ≠ 0 then expect (.securityTypes count) else expect .connFailed

/-- `_handleSecurityTypes`. -/
def handleSecurityTypes (env : Env D S) {count : ℕ} (block : Block count) : Py (RFBClient D S) Unit :=
  let types := block.bytes.map UInt8.toNat
  match (types.filter (· ∈ supportedAuths)).max? with
  | some secType => do
    onAttrs (Attrs.write .securityType [UInt8.ofNat secType])
    startSecurity env secType
  | none =>
    abortConnection env (s!"no security type in common: the server offers " ++
      s!"{offeredAuthsText types}; vncdotool supports " ++ s!"{supportedAuthsText}")

/-- `_handleAuth`. Before 3.7 the server dictates the security type, so nothing is written to
choose it. -/
def handleAuth (env : Env D S) (block : Block 4) : Py (RFBClient D S) Unit :=
  let auth := u32At block.bytes 0
  if auth = AuthTypes.invalid.value then expect .connFailed
  else if (securityHandler env auth).isSome then startSecurity env auth
  else
    abortConnection env (s!"the server requires the {AuthTypes.describe auth} security type; " ++
      s!"vncdotool supports {supportedAuthsText}")

/-- `_handleConnFailed`. -/
def handleConnFailed (env : Env D S) (block : Block 4) : Py (RFBClient D S) Unit :=
  let waitfor := u32At block.bytes 0
  if waitfor > maxMessagePayload then
    abortConnection env s!"cannot read the connection-failed reason: {payloadMessage waitfor}"
  else expect (.connMessage waitfor)

/-- `_handleConnMessage`. -/
def handleConnMessage (env : Env D S) {waitfor : ℕ} (block : Block waitfor) : Py (RFBClient D S) Unit :=
  abortConnection env s!"the server refused the connection: {PyText.decodeUtf8 block.bytes}"

theorem length_pixformat (block : Block 24) : ((block.bytes.drop 4).take 16).length = 16 := by
  simp

/-- `_handleServerInit`: the struct `!HH16sI`. -/
def handleServerInit (block : Block 24) : Py (RFBClient D S) Unit := do
  onAttrs (modify fun a => { a with
    width := u16At block.bytes 0
    height := u16At block.bytes 2
    pixelFormat := PixelFormat.fromBytes (Block.of _ (length_pixformat block)) })
  expect (.serverName (u32At block.bytes 20))

/-- `_handleServerName`. -/
def handleServerName (env : Env D S) {namelen : ℕ} (block : Block namelen) :
    Py (RFBClient D S) Unit := do
  onAttrs (modify fun a => { a with name := block.bytes })
  onAttrs (env.call .vncConnectionMade)
  expect .connection

/-! ## Server messages -/

/-- `_handleConnection`. -/
def handleConnection (env : Env D S) (block : Block 1) : Py (RFBClient D S) Unit :=
  let msgid := byteAt block.bytes 0
  if msgid = MsgS2C.framebufferUpdate then expect .framebufferUpdate
  else
    match messageHandler env msgid with
    | none =>
      abortConnection env (s!"the server sent the {MsgS2C.describe msgid} message, " ++
        "which vncdotool does not implement")
    | some handler => do
      let c ← get
      pump env (.message msgid) (handler.run c.attrs)

/-- `_handleFramebufferUpdate`: the struct `!xH`. -/
def handleFramebufferUpdate (env : Env D S) (block : Block 3) : Py (RFBClient D S) Unit := do
  onAttrs (modify fun a => { a with rectangles := u16At block.bytes 1, rectanglePos := [] })
  onAttrs (env.call .beginUpdate)
  doConnection env

/-- `_pumpRectangle`, with the decoder of the encoding looked up. -/
def pumpRectangle (env : Env D S) (rect : Rect) (encoding : ℤ) : Py (RFBClient D S) Unit := do
  match env.decoders encoding with
  | some decoder =>
    let c ← get
    pump env (.rectangle rect) ((decoder.decode rect c.attrs.pixelFormat).run c.attrs)
  | none =>
    abortConnection env (s!"the server sent a rectangle in the " ++
      s!"{Encoding.describe encoding} encoding, which vncdotool " ++ "cannot decode")

/-- `_handleRectangle`: the struct `!HHHHi`. -/
def handleRectangle (env : Env D S) (block : Block 12) : Py (RFBClient D S) Unit := do
  let rect : Rect := ⟨u16At block.bytes 0, u16At block.bytes 2, u16At block.bytes 4, u16At block.bytes 6⟩
  let encoding := i32At block.bytes 8
  if encoding = Encoding.pseudoLastRect then
    onAttrs (modify fun a => { a with rectangles := 0 })
  let c ← get
  if c.attrs.rectangles ≠ 0 then
    onAttrs (modify fun a => { a with rectangles := a.rectangles - 1 })
    pumpRectangle env rect encoding
  else doConnection env

/-! ## The data redirector -/

/-- Call the parked handler with the bytes it waited for. -/
def handle (env : Env D S) : (e : Expected D S) → Block e.len → Py (RFBClient D S) Unit
  | .auth, block => handleAuth env block
  | .numberSecurityTypes, block => handleNumberSecurityTypes block
  | .securityTypes _, block => handleSecurityTypes env block
  | .connFailed, block => handleConnFailed env block
  | .connMessage _, block => handleConnMessage env block
  | .serverInit, block => handleServerInit block
  | .serverName _, block => handleServerName env block
  | .connection, block => handleConnection env block
  | .framebufferUpdate, block => handleFramebufferUpdate env block
  | .rectangle, block => handleRectangle env block
  | .pump task size resume, block => do
    -- From here on the parked generator is the one running: should it end and nothing be parked
    -- in its place, the next block meets a finished generator.
    expect (.ended task size.toNat)
    let c ← get
    pump env task (resume block c.attrs)
  | .ended task _, _ => finishAgain task

/-- The condition of the loop in `_handleExpected`. -/
def ready (c : RFBClient D S) : Bool :=
  match c.phase with
  | .initial => false
  | .expecting e => e.len ≤ c.packet.length && !c.aborted

/-- One turn of the loop: the next block is taken off the buffer and handled. -/
def turn (env : Env D S) : Py (RFBClient D S) Unit := do
  let c ← get
  match c.phase with
  | .initial => pure ()
  | .expecting e =>
    if h : e.len ≤ c.packet.length then
      set { c with packet := c.packet.drop e.len }
      handle env e (Block.ofPrefix e.len c.packet h)
    else pure ()

/-- What a delivery comes to: it returns or raises, and leaves the client behind. -/
abbrev Delivery (D S : Type) : Type := EStateM.Result PyErr (RFBClient D S) Unit

/-- The client a delivery leaves behind. -/
def client : Delivery D S → RFBClient D S
  | .ok _ c => c
  | .error _ c => c

/-- `_handleExpected`, at most `fuel` turns. -/
def handleExpected (env : Env D S) : (fuel : ℕ) → RFBClient D S → Option (Delivery D S)
  | fuel, c =>
    if ready c then
      match fuel with
      | 0 => none
      | fuel + 1 =>
        match (turn env).run c with
        | .ok _ c' => handleExpected env fuel c'
        | .error e c' => some (.error e c')
    else some (.ok () c)

/-- What a delivery does before the loop: the bytes are buffered, and `_handleInitial` looks at
them if the version header is not complete yet. -/
def deliver (env : Env D S) (data : Bytes) : Py (RFBClient D S) Unit := do
  modify fun c => { c with
    attrs := { c.attrs with tlsHandshakePending := false }
    packet := c.packet ++ data }
  let c ← get
  match c.phase with
  | .initial => handleInitial env
  | .expecting _ => pure ()

/-- `dataReceived`, at most `fuel` turns of the loop. -/
def dataReceived (env : Env D S) (fuel : ℕ) (c : RFBClient D S) (data : Bytes) : Option (Delivery D S) :=
  if c.aborted then some (.ok () c)
  else
    match (deliver env data).run c with
    | .ok _ c' => handleExpected env fuel c'
    | .error e c' => some (.error e c')

/-- `connectionLost`. -/
def connectionLost (env : Env D S) (reason : String) : Py (RFBClient D S) Unit := do
  let c ← get
  if c.attrs.tlsHandshakePending ∧ ¬c.aborted then
    onAttrs (modify fun a => { a with tlsHandshakePending := false })
    onAttrs (env.call (.vncProtocolError
      (s!"TLS handshake for {VeNCryptSubtypes.describe c.attrs.vencryptSubtype.value} failed " ++
        s!"({reason}); an untrusted certificate " ++
        s!"needs --tls-ca-cert or {VeNCrypt.insecureFlag}")))
  else pure ()

end RFBClient

end VncDoTool
