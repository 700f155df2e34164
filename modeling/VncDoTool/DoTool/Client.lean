import VncDoTool.Client.Dispatch
import VncDoTool.Client.Encoders
import VncDoTool.Decoders.Table
import VncDoTool.DoTool.Canvas

/-!
# The client of the tool

`VNCDoToolClient` of `client.py`: what it adds to `RFBClient`, and the methods it overrides.

* `VNCDoToolClient.Fields`: its attributes.
* `VNCDoToolClient.Hooks`: the factory it reports to, and the code that waits for a refresh.
* `VNCDoToolClient.callback`: the methods; `VNCDoToolClient.env`: the client completed with them.
* `VNCDoToolClient.Application`, `VNCDoToolClient.factoryHooks`: `VNCDoToolFactory`, whose Deferred
  is fired when the connection is made or has failed.
-/

namespace VncDoTool

/-- `CursorMode`: what a capture does about the mouse pointer. -/
inductive CursorMode : Type
  | omit | server | local
  deriving DecidableEq, Repr

namespace VNCDoToolClient

open RFBClient

/-- The options of the factory that the client reads. -/
structure Options : Type where
  cursor : CursorMode := .omit
  pseudodesktop : Bool := true
  qemuExtendedKey : Bool := true
  lastRect : Bool := true
  fence : Bool := false
  deriving DecidableEq, Repr

/-- A call of the factory about how the connection came out. -/
inductive Resolution : Type
  | connectionMade
  /-- `AuthenticationError`. -/
  | authenticationError (reason : String)
  /-- `ProtocolError`. -/
  | protocolError (reason : String)
  deriving DecidableEq, Repr

/-- The pointer to draw, with its mask and its hot spot. -/
structure Cursor : Type where
  image : Canvas
  mask : Bytes
  focus : ℕ × ℕ

/-- What `VNCDoToolClient` adds to the attributes of a client. -/
structure Fields : Type where
  options : Options := {}
  requestedPixelFormat : Option PixelFormat := none
  requestedEncodings : Option (List ℤ) := none
  requestedJpegQuality : Option ℕ := none
  /-- The calls of `callback` and `errback` on the factory's Deferred, in order. Twisted lets the
  first through and raises on the others. -/
  resolutions : List Resolution := []
  x : ℕ := 0
  y : ℕ := 0
  screen : Option Canvas := none
  /-- `_image_mode`. -/
  imageMode : RawMode := .rgbx
  /-- `_raw_mode_format` and `_raw_mode`. -/
  rawModeFormat : Option PixelFormat := none
  rawMode : Option RawMode := none
  fullscreen : FullScreenReceived := .satisfied
  /-- Whether a refresh waits in `deferred`. -/
  deferred : Bool := false
  /-- What `commitUpdate` has warned of. -/
  warnings : List String := []
  cursor : Option Cursor := none

section

variable {codecs : Codecs}

/-- The attributes of such a client. -/
abbrev State (codecs : Codecs) : Type := Attrs (Decoding codecs) Fields

/-- What the client tells its surroundings. -/
structure Hooks (codecs : Codecs) : Type where
  /-- `factory.clientConnectionMade` and `factory.clientConnectionFailed`. -/
  report : Resolution → Py (State codecs) Unit
  /-- The callbacks of a refresh that is complete. A Deferred keeps what they raise. -/
  refreshed : State codecs → State codecs

/-- Change what `VNCDoToolClient` adds. -/
def setFields (f : Fields → Fields) : Py (State codecs) Unit := modify fun a => { a with own := f a.own }

/-! ## Messages -/

/-- `setPixelFormat`. -/
def setPixelFormat (pixelFormat : PixelFormat) : Py (State codecs) Unit := do
  let message ← encoded (RFBClient.setPixelFormat pixelFormat)
  Attrs.write .message message
  modify fun a => { a with pixelFormat := pixelFormat }

/-- `setEncodings`. -/
def setEncodings (encodings : List ℤ) : Py (State codecs) Unit := do
  let message ← encoded (RFBClient.setEncodings encodings)
  Attrs.write .message message
  modify fun a => { a with decoding := Decoders.encodingsOffered encodings a.decoding }

/-- `framebufferUpdateRequest()`: the whole screen. -/
def framebufferUpdateRequest : Py (State codecs) Unit := do
  let a ← get
  let message ← encoded (RFBClient.framebufferUpdateRequest (a.width, a.height) 0 0 none none false)
  Attrs.write .message message

/-! ## Refreshes -/

/-- `_requestRefresh`. -/
def requestRefresh (incremental : Bool) : Py (State codecs) Unit := do
  let a ← get
  setFields fun s => { s with
    fullscreen := if incremental then .satisfied else .awaiting a.width a.height }
  let message ← encoded
    (RFBClient.framebufferUpdateRequest (a.width, a.height) 0 0 none none incremental)
  Attrs.write .message message

/-- `refreshScreen`: its Deferred takes the place of any that waits. -/
def refreshScreen (incremental : Bool) : Py (State codecs) Unit := do
  setFields fun s => { s with deferred := true }
  requestRefresh incremental

/-! ## The methods it overrides -/

variable (hooks : Hooks codecs)

/-- `vncProtocolError`, called from inside another method. -/
def callProtocolError (reason : String) : Py (State codecs) Unit := do
  Attrs.emit (.called (.vncProtocolError reason))
  hooks.report (.protocolError reason)

/-- Ask for a pixel format that was requested or stands in for the server's. -/
def requestPixelFormat (pixelFormat : PixelFormat) : Py (State codecs) Unit :=
  match pixelFormat.rawMode with
  | .error exc => do
    -- The method returns here, and `vncConnectionMade` goes on.
    callProtocolError hooks s!"cannot decode the requested pixel format: {exc}"
    Attrs.loseConnection
  | .ok imageMode => do
    setPixelFormat pixelFormat
    setFields fun s => { s with imageMode := imageMode }

/-- `setImageMode`. -/
def setImageMode : Py (State codecs) Unit := do
  let a ← get
  match a.own.requestedPixelFormat with
  | some pixelFormat => requestPixelFormat hooks pixelFormat
  | none =>
    match a.pixelFormat.rawMode with
    | .ok imageMode => setFields fun s => { s with imageMode := imageMode }
    | .error _ => requestPixelFormat hooks PixelFormat.rgbx8888

/-- `vncRequestPassword`. -/
def vncRequestPassword (library : Library) : Py (State codecs) Unit := do
  let a ← get
  match a.factory.password with
  | none =>
    Attrs.loseConnection
    hooks.report (.authenticationError "password required, but none provided")
  | some password => sendPassword library password

/-- The text of a reason. -/
def describe : AuthFailure → String
  | .text reason => reason
  | .bytes reason => PyText.decodeUtf8 reason

/-- `DEFAULT_ENCODINGS`. -/
def defaultEncodings : List ℤ := [Encoding.tight, Encoding.hextile, Encoding.raw]

/-- The quality level a client asks for, `JPEG_QUALITY_ENCODINGS[quality]`. -/
def qualityEncoding (quality : ℕ) : Except PyErr ℤ :=
  match Decoders.jpegQualityEncodings[quality]? with
  | some encoding => .ok encoding
  | none => .error ⟨.indexError, "tuple index out of range"⟩

/-- The encodings the client offers, but for the quality level. -/
def offeredEncodings (s : Fields) : List ℤ :=
  let requested := s.requestedEncodings.getD []
  (if requested.isEmpty then defaultEncodings else requested) ++
    -- A server that paints the pointer into the framebuffer stops once a client asks for Cursor.
    (if s.options.cursor ≠ .server then [Encoding.pseudoCursor, Encoding.pseudoPointerPos] else []) ++
    (if s.options.pseudodesktop then [Encoding.pseudoDesktopSize] else []) ++
    (if s.options.lastRect then [Encoding.pseudoLastRect] else []) ++
    (if s.options.qemuExtendedKey then [Encoding.pseudoQemuExtendedKeyEvent] else []) ++
    (if s.options.fence then [Encoding.pseudoFence] else [])

/-- `vncConnectionMade`. -/
def vncConnectionMade : Py (State codecs) Unit := do
  setImageMode hooks
  let a ← get
  let quality ← match a.own.requestedJpegQuality with
    | none => pure []
    | some quality => do
      let encoding ← RFBClient.ofExcept (qualityEncoding quality)
      pure [encoding]
  setEncodings (offeredEncodings a.own ++ quality)
  hooks.report .connectionMade

/-- `commitUpdate`. -/
def commitUpdate (rectangles : List Rect) : Py (State codecs) Unit := do
  let a ← get
  if a.own.deferred then
    if rectangles.isEmpty ∨ a.own.screen.isNone then framebufferUpdateRequest
    else if ¬a.own.fullscreen.complete ∧ a.own.fullscreen.retries < FullScreenReceived.maxRetries then
      setFields fun s =>
        { s with fullscreen := { s.fullscreen with retries := s.fullscreen.retries + 1 } }
      framebufferUpdateRequest
    else
      -- The warning is given where the server has been asked often enough.
      setFields fun s => { s with
        warnings := if s.fullscreen.complete then s.warnings
          else s.warnings ++ [s.fullscreen.describe]
        fullscreen := .satisfied
        deferred := false }
      modify hooks.refreshed
  else pure ()

/-- `_rawModeFor`: formats are compared by value here, and by identity in the source. -/
def rawModeFor (pixelFormat : PixelFormat) : Py (State codecs) (Option RawMode) := do
  let a ← get
  if a.own.rawModeFormat ≠ some pixelFormat then
    setFields fun s => { s with rawModeFormat := some pixelFormat }
    match pixelFormat.rawMode with
    | .error exc => throw ⟨.unsupportedPixelFormat, exc⟩
    | .ok mode =>
      setFields fun s => { s with rawMode := some mode }
      pure (some mode)
  else pure a.own.rawMode

/-- The screen once an update is pasted onto it: it grows to hold what lies past its edges. -/
def grown (size : ℕ × ℕ) (screen : Option Canvas) (rect : Rect) (update : Canvas) : Canvas :=
  match screen with
  | none => (Canvas.new size.1 size.2).paste update rect.x rect.y
  | some screen =>
    if screen.width < rect.x + rect.width ∨ screen.height < rect.y + rect.height then
      ((Canvas.new (max (rect.x + rect.width) screen.width) (max (rect.y + rect.height) screen.height)
        ).paste screen 0 0).paste update rect.x rect.y
    else screen.paste update rect.x rect.y

/-- `updateRectangle`. -/
def updateRectangle (imaging : Imaging) (rect : Rect) (data : Bytes) (pixelFormat : PixelFormat) :
    Py (State codecs) Unit := do
  if data.isEmpty then pure ()
  else
    let mode ← rawModeFor pixelFormat
    let update ← RFBClient.ofExcept (imaging.frombytes rect.width rect.height data mode)
    modify fun a => { a with own := { a.own with
      screen := some (grown (a.width, a.height) a.own.screen rect update)
      fullscreen := a.own.fullscreen.paintRect rect } }

/-- `copyRectangle`. -/
def copyRectangle (srcx srcy : ℕ) (rect : Rect) : Py (State codecs) Unit := do
  let a ← get
  match a.own.screen with
  | none => pure ()
  | some screen =>
    let region := screen.crop srcx srcy rect.width rect.height
    setFields fun s => { s with
      screen := some (screen.paste region rect.x rect.y)
      fullscreen := s.fullscreen.paintRect rect }

/-- `updateCursor`. -/
def updateCursor (imaging : Imaging) (rect : Rect) (image mask : Bytes) : Py (State codecs) Unit := do
  let a ← get
  if a.own.options.cursor ≠ .local then pure ()
  else if rect.width = 0 ∨ rect.height = 0 then setFields fun s => { s with cursor := none }
  else
    let cursor ← RFBClient.ofExcept
      (imaging.frombytes rect.width rect.height image (some a.own.imageMode))
    setFields fun s => { s with cursor := some ⟨cursor, mask, (rect.x, rect.y)⟩ }

/-- `MAX_DESKTOP_SIZE`. -/
def maxDesktopSize : ℕ := 0x10000

/-- `updateDesktopSize`. -/
def updateDesktopSize (width height : ℕ) : Py (State codecs) Unit :=
  if ¬(width < maxDesktopSize ∧ height < maxDesktopSize) then
    throw ⟨.valueError, s!"({width}, {height})"⟩
  else
    modify fun a => { a with
      width := width
      height := height
      own := { a.own with
        screen := some (match a.own.screen with
          | none => Canvas.new width height
          | some screen => (Canvas.new width height).paste screen 0 0)
        fullscreen :=
          if a.own.fullscreen.pending then .awaiting width height else a.own.fullscreen } }

/-- The methods of `VNCDoToolClient`. -/
def callback (library : Library) (imaging : Imaging) : RFBClient.Callback → Py (State codecs) Unit
  | .vncConnectionMade => vncConnectionMade hooks
  | .vncRequestPassword => vncRequestPassword hooks library
  | .vncAuthFailed reason => hooks.report (.authenticationError (describe reason))
  | .vncProtocolError reason => hooks.report (.protocolError reason)
  | .beginUpdate => pure ()
  | .commitUpdate rectangles => commitUpdate hooks rectangles
  | .updateRectangle rect data pixelFormat => updateRectangle imaging rect data pixelFormat
  | .copyRectangle srcx srcy rect => copyRectangle srcx srcy rect
  | .updateCursor rect image mask => updateCursor imaging rect image mask
  | .updatePointerPos x y => setFields fun s => { s with x := x, y := y }
  | .updateDesktopSize width height => updateDesktopSize width height
  | .setColorMap _ _ => pure ()
  | .bell => pure ()
  | .copyText _ => pure ()

/-- The client completed with these methods. -/
def env (library : Library) (imaging : Imaging) : Env (Decoding codecs) Fields where
  callback := callback hooks library imaging
  decoders := Decoders.forConnection (callback hooks library imaging)
  library := library

/-- A client as the factory builds it. -/
def build (factory : Factory) (options : Options) (pixelFormat : Option PixelFormat)
    (encodings : Option (List ℤ)) (jpegQuality : Option ℕ) : RFBClient (Decoding codecs) Fields :=
  fresh factory {} {
    options := options
    requestedPixelFormat := pixelFormat
    requestedEncodings := encodings
    requestedJpegQuality := jpegQuality }

/-! ## The factory of the tool -/

/-- What an application can show: it calls the methods of the client. -/
def Event.requests : Event → Bool
  | .wrote .message _ => true
  | .loseConnection => true
  | _ => false

/-- What the code of an application may do to a client: send messages, close the connection, and
change what it asks of the client. -/
def Attends (a a' : State codecs) : Prop :=
  ∃ own decoding pixelFormat es, a' = { a with
    own := own
    decoding := decoding
    pixelFormat := pixelFormat
    log := a.log ++ es } ∧
      own.resolutions = a.own.resolutions ∧ ∀ e ∈ es, Event.requests e = true

/-- The code that waits for the connection and for refreshes. -/
structure Application (codecs : Codecs) : Type where
  /-- The callbacks and errbacks of the factory's Deferred. A Deferred keeps what they raise. -/
  resolved : Resolution → State codecs → State codecs
  refreshed : State codecs → State codecs
  attends_resolved : ∀ resolution a, Attends a (resolved resolution a)
  attends_refreshed : ∀ a, Attends a (refreshed a)

/-- Fire the factory's Deferred: Twisted raises where that was done before. -/
def fire (application : Application codecs) (resolution : Resolution) : Py (State codecs) Unit := do
  let a ← get
  setFields fun s => { s with resolutions := s.resolutions ++ [resolution] }
  if a.own.resolutions = [] then modify (application.resolved resolution)
  else throw ⟨.alreadyCalledError, ""⟩

/-- `VNCDoToolFactory`. -/
def factoryHooks (application : Application codecs) : Hooks codecs where
  report := fire application
  refreshed := application.refreshed

/-- An application that leaves the client alone. -/
def idleApplication : Application codecs where
  resolved _ a := a
  refreshed a := a
  attends_resolved _ a := ⟨a.own, a.decoding, a.pixelFormat, [], by simp, rfl, by simp⟩
  attends_refreshed a := ⟨a.own, a.decoding, a.pixelFormat, [], by simp, rfl, by simp⟩

end

end VNCDoToolClient

end VncDoTool
