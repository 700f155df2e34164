import VncDoTool.Client.Connected
import VncDoTool.Client.Effects
import VncDoTool.DoTool.Client
import VncDoTool.Proxy.Server

/-!
# The observer of a logged session

`VNCLoggingClient` of `loggingproxy.py` decodes what the server of a logged session sends. It is told of
what the real client asks for, and what it writes itself goes nowhere.

* `VNCLoggingClient`, `VNCLoggingClientProxy`, `LoggingSession`: the observer, the proxy's side towards
  the server that feeds it, and the whole, with what the parser of the client's bytes tells it.
* `RFBServer.Loops`: the loop of that parser, whose methods may raise.
* `LoggingSession.Reaches`: what a session comes to, however the bytes of both sides are cut.
* `VNCLoggingClient.Tracks`: what every step keeps.
* `LoggingSession.observer_format`: the pixel format that the observer decodes with.
-/

namespace VncDoTool

/-- An observer. -/
abbrev VNCLoggingClient (codecs : Codecs) : Type := RFBClient (Decoding codecs) VNCDoToolClient.Fields

namespace VNCLoggingClient

open RFBClient VNCDoToolClient

variable {codecs : Codecs} (library : Library) (imaging : Imaging)

/-- The observer's factory only logs what it is told. -/
def hooks : Hooks codecs where
  report _ := pure ()
  refreshed a := a

/-- The methods of an observer; `VNCLoggingClient.stopped` is what it overrides. -/
def env : Env (Decoding codecs) Fields := VNCDoToolClient.env hooks library imaging

/-- The `vncProtocolError` of an observer stops its parser. -/
def stopped (c : VNCLoggingClient codecs) : VNCLoggingClient codecs :=
  { c with aborted := c.aborted || c.attrs.log.any Event.complains }

/-- `dataReceived`, up to the loop. -/
def delivered (data : Bytes) (c : VNCLoggingClient codecs) : VNCLoggingClient codecs :=
  client ((deliver (env library imaging) data).run c)

/-- A turn of the loop; what a method raises is caught by the proxy, and the loop is over. -/
def next (c : VNCLoggingClient codecs) : VNCLoggingClient codecs :=
  stopped (client ((turn (env library imaging)).run c))

/-- `startLogging`: an observer waits for ServerInit. -/
def startLogging : VNCLoggingClient codecs :=
  { build { shared := true } {} none none none with phase := .expecting .serverInit }

/-- `handle_setPixelFormat`, on the attributes of the observer. -/
def request (pixelFormat : PixelFormat) : Py (State codecs) Unit := do
  setFields fun s => { s with requestedPixelFormat := some pixelFormat }
  setImageMode hooks

/-- `handle_setPixelFormat`: the real client asks for a format. -/
def handleSetPixelFormat (pixelFormat : PixelFormat) (c : VNCLoggingClient codecs) :
    VNCLoggingClient codecs := stopped (client ((onAttrs (request pixelFormat)).run c))

/-- `handle_setEncodings`: the real client offers encodings, some of which may have no name. -/
def handleSetEncodings (encodings : List ℤ) (c : VNCLoggingClient codecs) : VNCLoggingClient codecs :=
  let named := encodings.filter fun encoding => (Encoding.names.lookup encoding).isSome
  { c with attrs := { c.attrs with decoding := Decoders.encodingsOffered named c.attrs.decoding } }

end VNCLoggingClient

/-- The proxy's side towards the server: the observer, once there is one, and what it has been handed. -/
structure VNCLoggingClientProxy (codecs : Codecs) : Type where
  vnclog : Option (VNCLoggingClient codecs) := none
  observed : Bytes := []

/-- What the parser of the client's bytes calls has the observer do: ClientInit starts one. -/
def VNCLoggingClientProxy.told {codecs : Codecs} (p : VNCLoggingClientProxy codecs) :
    Callback → VNCLoggingClientProxy codecs
  | .clientInit _ => { vnclog := some VNCLoggingClient.startLogging }
  | .setPixelFormat pixelFormat =>
    { p with vnclog := p.vnclog.map (VNCLoggingClient.handleSetPixelFormat pixelFormat) }
  | .setEncodings encodings =>
    { p with vnclog := p.vnclog.map (VNCLoggingClient.handleSetEncodings encodings) }
  | _ => p

/-! ## The parser of the proxy -/

/-- A call whose method records a line of a script. -/
def Callback.recorded : Callback → Bool
  | .keyEvent .. | .pointerEvent .. | .keyEventExtended .. => true
  | _ => false

/-- `chr` raises for the keysym of the call. -/
def Callback.beyondChr : Callback → Bool
  | .keyEvent key _ | .keyEventExtended key _ _ => decide (0x10FFFF < key)
  | _ => false

theorem Callback.recorded_of_beyondChr {call : Callback} (h : call.beyondChr = true) :
    call.recorded = true := by
  cases call with
  | keyEvent key down => rfl
  | keyEventExtended keysym down keycode => rfl
  | _ => exact absurd h Bool.false_ne_true

namespace RFBServer

/-- The loop of `dataReceived` in the proxy, where a method may raise: that for a key does where `chr`
does, and any that records may, where the line cannot be written. The loop is over then. The message
is deleted, and the handler that was called stays armed; the proxy catches the exception. -/
inductive Loops : RFBServer → RFBServer → Prop
  | stop {s : RFBServer} (h : s.buffer.length < s.handler.need) : Loops s s
  /-- The handler itself raises. -/
  | raise {s s' : RFBServer} {e : ServerError} (h : s.handler.need ≤ s.buffer.length)
      (hhandle : s.handle = (s', some e)) : Loops s s'
  /-- Its call does. -/
  | fail {s s' : RFBServer} {call : Callback} (h : s.handler.need ≤ s.buffer.length)
      (hhandle : s.handle = (s', none)) (hcalls : s'.calls = s.calls ++ [call])
      (hrecorded : call.recorded = true) : Loops s (s'.arm s.handler)
  | step {s s' s'' : RFBServer} (h : s.handler.need ≤ s.buffer.length)
      (hhandle : s.handle = (s', none))
      (hcall : ∀ call, s'.calls = s.calls ++ [call] → call.beyondChr = false)
      (hloops : Loops s' s'') : Loops s s''

/-- Whatever raises, the loop ends. -/
theorem exists_loops (s : RFBServer) : ∃ s', Loops s s' := by
  generalize hmeasure : s.measure = n
  induction n using Nat.strong_induction_on generalizing s with
  | _ n ih =>
    by_cases hneed : s.handler.need ≤ s.buffer.length
    · cases hhandle : s.handle with
      | mk s' error =>
        cases error with
        | some e => exact ⟨s', .raise hneed hhandle⟩
        | none =>
          by_cases hfails : ∃ call, s'.calls = s.calls ++ [call] ∧ call.beyondChr = true
          · obtain ⟨call, hcalls, hbeyond⟩ := hfails
            exact ⟨_, .fail hneed hhandle hcalls (Callback.recorded_of_beyondChr hbeyond)⟩
          · have hcall : ∀ call, s'.calls = s.calls ++ [call] → call.beyondChr = false :=
              fun call hcalls => Bool.eq_false_iff.mpr fun hbeyond => hfails ⟨call, hcalls, hbeyond⟩
            obtain hlt | hstop := measure_handle hneed hhandle
            · obtain ⟨s'', hloops⟩ := ih _ (hmeasure ▸ hlt) s' rfl
              exact ⟨s'', .step hneed hhandle hcall hloops⟩
            · exact ⟨s', .step hneed hhandle hcall (.stop hstop)⟩
    · exact ⟨s, .stop (Nat.not_le.mp hneed)⟩

end RFBServer

/-- A logged session, but for what is forwarded and recorded. -/
structure LoggingSession (codecs : Codecs) : Type where
  server : RFBServer
  peer : VNCLoggingClientProxy codecs := {}

namespace LoggingSession

variable {codecs : Codecs} (library : RFBClient.Library) (imaging : Imaging)

/-- The parser of the client's bytes has come so far: the observer is told of its calls in order. -/
def parsed (server : RFBServer) (s : LoggingSession codecs) : LoggingSession codecs where
  server := server
  peer := (server.calls.drop s.server.calls.length).foldl VNCLoggingClientProxy.told s.peer

/-- What a session comes to. -/
inductive Reaches (passwordRequired : Bool) : LoggingSession codecs → Prop
  | start : Reaches passwordRequired { server := { passwordRequired := passwordRequired } }
  /-- Bytes of the client, which the proxy's parser buffers and reads. -/
  | client {s : LoggingSession codecs} {server : RFBServer} (h : Reaches passwordRequired s)
      (data : Bytes)
      (hloops : RFBServer.Loops { s.server with buffer := s.server.buffer ++ data } server) :
      Reaches passwordRequired (s.parsed server)
  /-- Bytes of the server, which an observer that has stopped drops. -/
  | server {s : LoggingSession codecs} {c : VNCLoggingClient codecs} (h : Reaches passwordRequired s)
      (hvnclog : s.peer.vnclog = some c) (hlive : c.aborted = false) (data : Bytes) :
      Reaches passwordRequired { s with peer := {
        vnclog := some (VNCLoggingClient.delivered library imaging data c)
        observed := s.peer.observed ++ data } }
  | turned {s : LoggingSession codecs} {c : VNCLoggingClient codecs} (h : Reaches passwordRequired s)
      (hvnclog : s.peer.vnclog = some c) (hready : RFBClient.ready c = true) :
      Reaches passwordRequired { s with peer := { s.peer with
        vnclog := some (VNCLoggingClient.next library imaging c) } }

end LoggingSession

/-! ## What the parser calls -/

/-- A pixel format as it comes over the wire. -/
def PixelFormat.OnWire (pf : PixelFormat) : Prop := ∃ block : Block 16, PixelFormat.fromBytes block = pf

/-- Such a format can be written again. -/
theorem PixelFormat.OnWire.toBytes {pf : PixelFormat} (h : pf.OnWire) : ∃ b, pf.toBytes = some b := by
  obtain ⟨block, rfl⟩ := h
  unfold PixelFormat.toBytes PixelFormat.fromBytes
  simp only [pack8_natCast (byteAt_lt _ _), pack16_natCast (u16At_lt _ _)]
  exact ⟨_, rfl⟩

/-- The pixel formats read behind ClientInit, once a call more was made. -/
def Callback.adds (formats : List PixelFormat) : Callback → List PixelFormat
  | .clientInit _ => []
  | .setPixelFormat pixelFormat => formats ++ [pixelFormat]
  | _ => formats

/-- The pixel formats that the parser has read behind ClientInit, in order: what the real client has asked
for, where the parser reads all that it sends. -/
def RFBServer.formats (s : RFBServer) : List PixelFormat := s.calls.foldl Callback.adds []

/-- A call whose pixel format, if it has one, comes over the wire. -/
def Callback.OnWire : Callback → Prop
  | .setPixelFormat pixelFormat => pixelFormat.OnWire
  | _ => True

namespace RFBServer

/-- More calls, with what comes over the wire. -/
def Calls (s s' : RFBServer) : Prop := ∃ new, s'.calls = s.calls ++ new ∧ ∀ c ∈ new, c.OnWire

theorem Calls.none {s s' : RFBServer} (h : s'.calls = s.calls) : Calls s s' :=
  ⟨[], by rw [h, List.append_nil], by simp⟩

theorem Calls.one {s s' : RFBServer} (c : Callback) (hc : c.OnWire) (h : s'.calls = s.calls ++ [c]) :
    Calls s s' := ⟨[c], h, by simpa using hc⟩

theorem Calls.trans {s s' s'' : RFBServer} (h : Calls s s') (h' : Calls s' s'') : Calls s s'' := by
  obtain ⟨new, hcalls, hnew⟩ := h
  obtain ⟨new', hcalls', hnew'⟩ := h'
  refine ⟨new ++ new', by rw [hcalls', hcalls, List.append_assoc], fun c hc => ?_⟩
  rcases List.mem_append.mp hc with hc | hc
  · exact hnew c hc
  · exact hnew' c hc

theorem calls_handleMessage (offset : ℕ) (ptype : MsgC2S) (block : Bytes) (s : RFBServer) :
    Calls s (handleMessage offset ptype block s).1 := by
  cases ptype <;> simp only [handleMessage]
  case setPixelFormat =>
    split
    · exact .one (.setPixelFormat _) ⟨_, rfl⟩ (calls_callback _ _ _)
    · exact .none rfl
  case setEncoding =>
    split
    · exact .none rfl
    · exact .one (.setEncodings _) trivial (calls_callback _ _ _)
  case framebufferUpdateRequest => exact .one (.framebufferUpdate ..) trivial (calls_callback _ _ _)
  case keyEvent => exact .one (.keyEvent ..) trivial (calls_callback _ _ _)
  case pointerEvent => exact .one (.pointerEvent ..) trivial (calls_callback _ _ _)
  case clientCutText => exact .none rfl
  case clientFence => exact .one (.clientFence ..) trivial (calls_callback _ _ _)
  case qemuClientMessage =>
    split
    · exact .none rfl
    · exact .none rfl

theorem calls_handleProtocol (s : RFBServer) : Calls s s.handleProtocol.1 := by
  rw [handleProtocol]
  split
  · exact .none rfl
  dsimp only
  split
  · exact .none rfl
  split
  · exact calls_handleMessage _ _ _ (s.delete _)
  · exact .none rfl

theorem calls_handle (s : RFBServer) : Calls s s.handle.1 := by
  rw [handle]
  cases s.handler with
  | version =>
    refine .none ?_
    simp only [handleVersion]
    split_ifs <;> rfl
  | security => exact .none rfl
  | vncAuthResponse => exact .none rfl
  | clientInit => exact .one (.clientInit _) trivial (calls_callback _ _ _)
  | protocol nbytes => exact calls_handleProtocol s
  | qemuExtendedKeyEvent => exact .one (.keyEventExtended ..) trivial (calls_callback _ _ _)
  | clientCutText length => exact .one (.clientCutText _) trivial (calls_callback _ _ _)

/-- A run of the proxy's loop. -/
theorem calls_loops {s s' : RFBServer} (h : Loops s s') : Calls s s' := by
  induction h with
  | stop _ => exact .none rfl
  | @raise s s' e _ hhandle =>
    have hcalls := calls_handle s
    rwa [hhandle] at hcalls
  | @fail s s' call _ hhandle _ _ =>
    have hcalls := calls_handle s
    rw [hhandle] at hcalls
    exact hcalls.trans (.none rfl)
  | @step s s' s'' _ hhandle _ _ ih =>
    have hcalls := calls_handle s
    rw [hhandle] at hcalls
    exact hcalls.trans ih

/-- Where no call raises, it is the loop of the parser itself. -/
theorem loops_of_runs {s : RFBServer} {o : Outcome} (h : Runs s o)
    (hcalls : ∀ call ∈ o.1.calls, call.beyondChr = false) : Loops s o.1 := by
  induction h with
  | stop hstop => exact .stop hstop
  | raise hneed hhandle => exact .raise hneed hhandle
  | @step s s' o hneed hhandle hruns ih =>
    have hloops := ih hcalls
    obtain ⟨new, hnew, -⟩ := calls_loops hloops
    refine .step hneed hhandle (fun call hcall => hcalls call ?_) hloops
    rw [hnew, hcall]
    exact List.mem_append_left _ (List.mem_append_right _ (List.mem_singleton_self call))

end RFBServer

end VncDoTool
