import Mathlib.Logic.Function.Basic
import VncDoTool.Lib.Machine
import VncDoTool.Capture.Scrubber
import VncDoTool.Proxy.Recorder

/-!
# The sessions of a proxy

Any number of clients share one `VNCLoggingServerFactory` of `loggingproxy.py`: who may start a
session, where its events are recorded, and when its capture is written.

* `VNCLoggingServerFactory`, `VNCLoggingServerProxy`: the attributes they share, and those of each
  client.
* `ProxyEvent`: what the reactor calls; `Proxies.step`: what becomes of it.
* `Proxies.Possible`: when the reactor can call it.
-/

namespace VncDoTool

/-- What the command line sets of a factory. -/
structure ProxyOptions : Type where
  oneShot : Bool := false
  /-- Whether there is a `capture_path`. -/
  capturing : Bool := false
  capturePreserveAuth : Bool := false
  /-- Whether `output` is a directory. Otherwise it is a stream, which is file `0`. -/
  directory : Bool := false

/-- A file that sessions are recorded in, or a buffer. -/
structure SessionFile : Type where
  lines : List (List Char) := []
  closed : Bool := false

/-- `CaptureWriter`: the scrubber, and what it let through. -/
structure CaptureWriter : Type where
  scrubber : HandshakeScrubber
  s2c : Bytes := []
  c2s : Bytes := []

namespace CaptureWriter

/-- Add to the stream of a tap. -/
def append (tap : Tap) (w : CaptureWriter) (data : Bytes) : CaptureWriter :=
  match tap with
  | .s2c => { w with s2c := w.s2c ++ data }
  | .c2s => { w with c2s := w.c2s ++ data }

/-- `feed_s2c` and `feed_c2s`. -/
def feed (tap : Tap) (data : Bytes) (w : CaptureWriter) : CaptureWriter :=
  let r := w.scrubber.feed tap data
  { w with scrubber := r.2 }.append tap r.1

/-- `flush`. -/
def flush (w : CaptureWriter) : CaptureWriter :=
  let server := w.scrubber.flush .s2c
  let w := { w with scrubber := server.2 }.append .s2c server.1
  let client := w.scrubber.flush .c2s
  { w with scrubber := client.2 }.append .c2s client.1

/-- `abort_reason`. -/
def abortReason (w : CaptureWriter) : Option String := w.scrubber.fields.abortReason

end CaptureWriter

/-- An archive that was written, and for whom. -/
structure Archive : Type where
  client : ℕ
  capture : CaptureWriter
  sessionVdo : List (List Char)

/-- The attributes of a factory, the files, and what its clients brought about. -/
structure VNCLoggingServerFactory : Type where
  sessionTaken : Bool := false
  captureFailed : Bool := false
  out : Option ℕ := none
  captureVdo : Option ℕ := none
  /-- Every file there is. -/
  files : List SessionFile := [{}]
  archives : List Archive := []
  /-- Who called `sessionFinished`. -/
  finished : List ℕ := []

/-- The attributes of a client's protocol. -/
structure VNCLoggingServerProxy : Type where
  refused : Bool := false
  tookSession : Bool := false
  sawBytes : Bool := false
  /-- The file that `recorder` writes to. -/
  recorder : Option ℕ := none
  capture : Option CaptureWriter := none
  mouse : Option (ℕ × ℕ) := none
  /-- Whether `connectionLost` has been called. -/
  lost : Bool := false

namespace VNCLoggingServerFactory

variable (o : ProxyOptions) (f : VNCLoggingServerFactory)

/-- `getRecorder`: the file it writes to. Opening one succeeds, under a name of its own. -/
def getRecorder : ℕ × VNCLoggingServerFactory :=
  if o.capturing then
    (f.files.length, { f with captureVdo := some f.files.length, files := f.files ++ [{}] })
  else if o.directory then
    (f.files.length, { f with out := some f.files.length, files := f.files ++ [{}] })
  else (0, f)

/-- `getRecordedSession`. -/
def getRecordedSession : List (List Char) :=
  match f.captureVdo with
  | some file => (f.files[file]?.getD {}).lines
  | none => []

/-- `close`. -/
def close (file : ℕ) : VNCLoggingServerFactory :=
  { f with files := f.files.modify file fun content => { content with closed := true } }

/-- `clientConnectionLost`. -/
def clientConnectionLost : VNCLoggingServerFactory :=
  match f.out with
  | some file => { f.close file with out := none, captureVdo := none }
  | none => { f with captureVdo := none }

/-- Whether a file can be written to. -/
def IsOpen (file : ℕ) : Prop := ∃ content, f.files[file]? = some content ∧ content.closed = false

instance (file : ℕ) : Decidable (f.IsOpen file) :=
  match h : f.files[file]? with
  | none => isFalse fun ⟨_, hc, _⟩ => by simp [h] at hc
  | some content =>
    if hc : content.closed = false then isTrue ⟨content, h, hc⟩
    else isFalse fun ⟨_, hc', hopen⟩ => by
      rw [h, Option.some.injEq] at hc'
      exact hc (hc' ▸ hopen)

/-- `write`, which raises for a file that is closed. -/
def write (file : ℕ) (line : List Char) : VNCLoggingServerFactory :=
  if f.IsOpen file then
    { f with
      files := f.files.modify file fun content => { content with lines := content.lines ++ [line] } }
  else f

end VNCLoggingServerFactory

namespace VNCLoggingServerProxy

variable (o : ProxyOptions) (p : VNCLoggingServerProxy) (f : VNCLoggingServerFactory)

/-- `connectionMade`. -/
def connectionMade : VNCLoggingServerProxy × VNCLoggingServerFactory :=
  if o.oneShot ∧ f.sessionTaken then ({ refused := true }, f)
  else
    let r := f.getRecorder o
    ({ recorder := some r.1
       tookSession := o.oneShot
       capture :=
        if o.capturing then some { scrubber := .init o.capturePreserveAuth } else none },
      if o.oneShot then { r.2 with sessionTaken := true } else r.2)

/-- `_abortCapture`. -/
def abortCapture : VNCLoggingServerProxy × VNCLoggingServerFactory :=
  ({ p with capture := none }, { f with captureFailed := true })

/-- Note bytes of a direction, and feed them to the capture. What the parsers make of them are calls
of their own, and what is forwarded concerns nobody here. -/
def carry (tap : Tap) (data : Bytes) : VNCLoggingServerProxy × VNCLoggingServerFactory :=
  let p := if data ≠ [] then { p with sawBytes := true } else p
  match p.capture with
  | none => (p, f)
  | some capture =>
    let capture := capture.feed tap data
    if capture.abortReason.isSome then p.abortCapture f
    else ({ p with capture := some capture }, f)

/-- `dataReceived`. -/
def dataReceived (data : Bytes) : VNCLoggingServerProxy × VNCLoggingServerFactory :=
  if p.refused then (p, f) else p.carry f .c2s data

/-- `VNCLoggingClientProxy.dataReceived`, on the other side. -/
def peerDataReceived (data : Bytes) : VNCLoggingServerProxy × VNCLoggingServerFactory :=
  p.carry f .s2c data

/-- `self.recorder`. -/
def record (line : List Char) : VNCLoggingServerFactory :=
  match p.recorder with
  | some file => f.write file line
  | none => f

/-- `handle_keyEvent`. -/
def handleKeyEvent (elapsed : Seconds) (key down : ℕ) :
    VNCLoggingServerProxy × VNCLoggingServerFactory :=
  match Recorder.keyLine elapsed key down with
  | some line => (p, p.record f line)
  | none => (p, f)

/-- `handle_pointerEvent`. -/
def handlePointerEvent (elapsed : Seconds) (x y buttonmask : ℕ) :
    VNCLoggingServerProxy × VNCLoggingServerFactory :=
  ({ p with mouse := some (x, y) },
    p.record f (Recorder.pointerLine elapsed p.mouse x y buttonmask))

/-- `_writeCapture`, and the handler around it. -/
def writeCapture (client : ℕ) (writable : Bool) : VNCLoggingServerProxy × VNCLoggingServerFactory :=
  match p.capture with
  | none => (p, f)
  | some capture =>
    if writable then
      ({ p with capture := none },
        { f with archives := f.archives ++ [⟨client, capture.flush, f.getRecordedSession⟩] })
    else ({ p with capture := some capture.flush }, { f with captureFailed := true })

/-- `connectionLost`. -/
def connectionLost (client : ℕ) (writable : Bool) :
    VNCLoggingServerProxy × VNCLoggingServerFactory :=
  if p.refused then ({ p with lost := true }, f)
  else if p.sawBytes then
    let r := p.writeCapture f client writable
    let f := if o.oneShot then { r.2 with finished := r.2.finished ++ [client] } else r.2
    ({ r.1 with lost := true }, f.clientConnectionLost)
  else
    let f := if p.tookSession then { f with sessionTaken := false } else f
    ({ p with capture := none, lost := true }, f.clientConnectionLost)

end VNCLoggingServerProxy

/-- What the reactor, or a parser it fed, calls of a client. -/
inductive ProxyCall : Type
  | connectionMade
  | dataReceived (data : Bytes)
  | peerDataReceived (data : Bytes)
  | keyEvent (elapsed : Seconds) (key down : ℕ)
  | pointerEvent (elapsed : Seconds) (x y buttonmask : ℕ)
  /-- Whether an archive can be written is for the machine to say. -/
  | connectionLost (writable : Bool)

/-- A call of one of the clients. -/
structure ProxyEvent : Type where
  client : ℕ
  call : ProxyCall

/-- A factory and its clients, refused ones and those of the past included. -/
structure Proxies : Type where
  factory : VNCLoggingServerFactory := {}
  clients : ℕ → Option VNCLoggingServerProxy := fun _ => none

namespace Proxies

variable (o : ProxyOptions) (s : Proxies) (e : ProxyEvent)

/-- What a call makes of a client and its factory. -/
def perform (client : ℕ) (p : VNCLoggingServerProxy) (f : VNCLoggingServerFactory) :
    ProxyCall → VNCLoggingServerProxy × VNCLoggingServerFactory
  | .connectionMade => VNCLoggingServerProxy.connectionMade o f
  | .dataReceived data => p.dataReceived f data
  | .peerDataReceived data => p.peerDataReceived f data
  | .keyEvent elapsed key down => p.handleKeyEvent f elapsed key down
  | .pointerEvent elapsed x y buttonmask => p.handlePointerEvent f elapsed x y buttonmask
  | .connectionLost writable => p.connectionLost o f client writable

/-- One call. -/
def step : Proxies :=
  let r := perform o e.client ((s.clients e.client).getD {}) s.factory e.call
  { factory := r.2, clients := Function.update s.clients e.client (some r.1) }

/-- A client is the one the call was for, or as it was. -/
theorem client_cases {clients : ℕ → Option VNCLoggingServerProxy} {i j : ℕ}
    {p q : VNCLoggingServerProxy} (h : Function.update clients i (some p) j = some q) :
    j = i ∧ q = p ∨ j ≠ i ∧ clients j = some q := by
  by_cases hj : j = i
  · rw [hj, Function.update_self, Option.some.injEq] at h
    exact Or.inl ⟨hj, h.symm⟩
  · rw [Function.update_of_ne hj] at h
    exact Or.inr ⟨hj, h⟩

/-- A client is accepted, and its connection is up. -/
def Live (client : ℕ) : Prop :=
  ∃ p, s.clients client = some p ∧ p.refused = false ∧ p.lost = false

/-- When a call can come. A connection is made once and lost once. The side of the server is there
for clients that were accepted, and is closed, and read no more, when its client is lost. -/
def Possible : Prop :=
  match e.call with
  | .connectionMade => s.clients e.client = none
  | .dataReceived _ | .connectionLost _ => ∃ p, s.clients e.client = some p ∧ p.lost = false
  | .peerDataReceived _ | .keyEvent _ _ _ | .pointerEvent _ _ _ _ => s.Live e.client

/-- The state that calls lead to. -/
def run (events : List ProxyEvent) : Proxies := events.foldl (step o) {}

/-- Calls that come in this order can. -/
def Runs (events : List ProxyEvent) : Prop := Machine.Throughout (step o) Possible {} events

end Proxies

end VncDoTool
