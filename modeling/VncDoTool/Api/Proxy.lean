import VncDoTool.Lib.Deferred
import VncDoTool.Lib.Machine

/-!
# The threaded proxy

`api.py`: an application thread makes calls, which the reactor thread runs on the client one after
the other, and waits for the answer to each.

* `ProxyWorld`: what both threads see; `ProxyWorld.handle`: the callbacks `ThreadedVNCClientProxy`
  puts on the Deferred of its factory.
* `ThreadedVNCClientProxy`: that state, the Deferred and where the application thread is.
* `ThreadedVNCClientProxy.next`: what either thread does next, or the connection.
* `ThreadedVNCClientProxy.runs`: the state a list of such acts leads to.
-/

namespace VncDoTool

/-- What the reactor is asked to put on the Deferred. -/
inductive ProxyRequest : Type
  /-- `capture_protocol`, from `connect`. -/
  | captureProtocol
  /-- The callbacks of a call, which are counted. -/
  | call (index : ℕ)
  /-- `disconnector`, with an event of its own. -/
  | disconnect (index : ℕ)
  deriving DecidableEq, Repr

/-- A result on the Deferred: a value or a failure. Which call made it is noted with it; a result of
the connection is no call's. -/
structure ProxyReply (V E : Type) : Type where
  result : Except E V
  maker : Option ℕ
  deriving DecidableEq

/-- An entry of the queue: a reply, and the call whose callback put it there. -/
structure ProxyAnswer (V E : Type) : Type where
  call : ℕ
  reply : ProxyReply V E
  deriving DecidableEq

/-- What the methods do: `method(protocol, *args, **kwargs)` of each call, whatever it is given for
its protocol. -/
structure Methods (V E : Type) : Type where
  /-- The protocol object of the connection. -/
  client : V
  /-- `None`. -/
  nothing : V
  /-- What the method of a call comes to. -/
  outcome : ℕ → V → Except E V
  /-- It comes to that later: the method returns a Deferred that was not fired. -/
  later : ℕ → V → Bool

/-- The connection of the client. -/
inductive Link : Type
  | connecting
  | up
  | down
  deriving DecidableEq, Repr

/-- What the callbacks on the Deferred read and change. -/
structure ProxyWorld (V E : Type) : Type where
  /-- `self.queue`. -/
  queue : List (ProxyAnswer V E) := []
  /-- `self.protocol`. -/
  protocol : Option V := none
  link : Link := .connecting
  /-- The transport was told to close. -/
  told : Bool := false
  /-- `factory._disconnect_callbacks`: each sets an event. -/
  onDisconnect : List ℕ := []
  /-- The events that are set. -/
  events : List ℕ := []
  /-- Every answer that was put on the queue. -/
  answers : List (ProxyAnswer V E) := []
  /-- Every method that was run, with what it was run on. -/
  ran : List (ℕ × V) := []
  deriving DecidableEq

namespace ProxyWorld

variable {V E : Type}

/-- `self.queue.put`. -/
def put (w : ProxyWorld V E) (answer : ProxyAnswer V E) : ProxyWorld V E :=
  { w with
    queue := w.queue ++ [answer]
    answers := w.answers ++ [answer] }

/-- A callback or an errback of the Deferred, by what it is given. A call that has to wait does so
with the protocol its method runs on. -/
def handle (methods : Methods V E) (w : ProxyWorld V E) (reply : ProxyReply V E) :
    ProxyRequest → ProxyWorld V E × (ProxyReply V E ⊕ ℕ × V)
  | .captureProtocol =>
    match reply.result with
    | .ok protocol => ({ w with protocol := some protocol }, .inl reply)
    | .error _ => (w, .inl reply)
  | .call index =>
    match reply.result with
    | .ok protocol =>
      let w := { w with ran := w.ran ++ [(index, protocol)] }
      if methods.later index protocol then (w, .inr (index, protocol))
      else
        let result : ProxyReply V E := ⟨methods.outcome index protocol, some index⟩
        (w.put ⟨index, result⟩, .inl result)
    | .error _ => (w.put ⟨index, reply⟩, .inl reply)
  | .disconnect index =>
    match w.protocol with
    | none => ({ w with events := w.events ++ [index] }, .inl ⟨.ok methods.nothing, none⟩)
    | some _ =>
      ({ w with
          onDisconnect := w.onDisconnect ++ [index]
          told := true },
        .inl ⟨.ok methods.nothing, none⟩)

/-- `clientConnectionLost`. -/
def lose (w : ProxyWorld V E) : ProxyWorld V E :=
  { w with
    link := .down
    events := w.events ++ w.onDisconnect
    onDisconnect := [] }

end ProxyWorld

/-- Where the application thread is. -/
inductive Caller : Type
  | free
  /-- In `self.queue.get`. -/
  | awaiting (call : ℕ)
  /-- In `event.wait`. -/
  | disconnecting (index : ℕ)
  deriving DecidableEq, Repr

/-- What became of a call: its answer, or else a `TimeoutError`. -/
structure Report (V E : Type) : Type where
  call : ℕ
  answer : Option (ProxyAnswer V E)
  deriving DecidableEq

/-- A proxy that was connected, by `connect`. -/
structure ThreadedVNCClientProxy (V E : Type) : Type where
  world : ProxyWorld V E := {}
  /-- `factory.deferred`. -/
  deferred : Deferred ProxyRequest (ProxyReply V E) (ℕ × V) := .unfired [.captureProtocol]
  /-- What waits in `reactor.callFromThread`. -/
  inbox : List ProxyRequest := []
  caller : Caller := .free
  calls : ℕ := 0
  disconnects : ℕ := 0
  reports : List (Report V E) := []
  /-- Every request that was put on the Deferred. -/
  given : List ProxyRequest := [.captureProtocol]
  /-- What the connection came to, once the Deferred is fired. -/
  connection : Option (Except E V) := none

namespace ThreadedVNCClientProxy

variable {V E : Type}

/-- What happens next: in the application thread, in the reactor, or to the connection. -/
inductive Act (E : Type) : Type
  /-- The application thread calls a method. -/
  | call
  /-- Its call takes an answer from the queue. -/
  | take
  /-- Its call has waited for too long. -/
  | timeOut
  /-- The application thread calls `disconnect`. -/
  | disconnect
  /-- `event.wait` returns, for the event or for its timeout. -/
  | wake
  /-- The reactor handles what was put in its inbox first. -/
  | process
  /-- What the chain waits for comes to its result. -/
  | complete
  /-- There is a connection. -/
  | opened
  /-- `clientConnectionMade`. -/
  | made
  /-- `clientConnectionFailed`; while there is no connection yet, there never will be one. -/
  | failed (reason : E)
  /-- The client closes its transport of its own accord. -/
  | closes
  /-- The connection is lost. -/
  | lost

/-- The act can happen. A call times out while the queue has nothing for it, and what comes of a
connection fires the Deferred once. -/
def Can (p : ThreadedVNCClientProxy V E) : Act E → Prop
  | .call => p.caller = .free
  | .take => (∃ i, p.caller = .awaiting i) ∧ p.world.queue ≠ []
  | .timeOut => (∃ i, p.caller = .awaiting i) ∧ p.world.queue = []
  | .disconnect => p.caller = .free
  | .wake => ∃ k, p.caller = .disconnecting k
  | .process => p.inbox ≠ []
  | .complete => ∃ on callbacks, p.deferred = .paused on callbacks
  | .opened => p.world.link = .connecting
  | .made => p.world.link = .up ∧ ¬p.deferred.Fired
  | .failed _ => ¬p.deferred.Fired
  | .closes => p.world.link = .up
  | .lost => p.world.link = .up

/-- Fire the Deferred with what the connection came to. -/
def fire (methods : Methods V E) (p : ThreadedVNCClientProxy V E) (result : Except E V) :
    ThreadedVNCClientProxy V E :=
  let ran := p.deferred.fire (ProxyWorld.handle methods) p.world ⟨result, none⟩
  { p with
    world := ran.1
    deferred := ran.2
    connection := some result }

/-- The reactor puts a request on the Deferred. -/
def give (methods : Methods V E) (p : ThreadedVNCClientProxy V E) (request : ProxyRequest)
    (rest : List ProxyRequest) : ThreadedVNCClientProxy V E :=
  let ran := p.deferred.add (ProxyWorld.handle methods) p.world request
  { p with
    world := ran.1
    deferred := ran.2
    inbox := rest
    given := p.given ++ [request] }

/-- The call in progress is over. -/
def report (p : ThreadedVNCClientProxy V E) (answer : Option (ProxyAnswer V E)) :
    ThreadedVNCClientProxy V E :=
  match p.caller with
  | .awaiting i =>
    { p with
      caller := .free
      reports := p.reports ++ [⟨i, answer⟩] }
  | _ => p

/-- What an act makes of the proxy; one that cannot happen changes nothing. -/
def next (methods : Methods V E) (p : ThreadedVNCClientProxy V E) :
    Act E → ThreadedVNCClientProxy V E
  | .call =>
    { p with
      caller := .awaiting p.calls
      calls := p.calls + 1
      inbox := p.inbox ++ [.call p.calls] }
  | .take =>
    match p.world.queue with
    | [] => p
    | answer :: queue => { p.report (some answer) with world := { p.world with queue := queue } }
  | .timeOut => p.report none
  | .disconnect =>
    { p with
      caller := .disconnecting p.disconnects
      disconnects := p.disconnects + 1
      inbox := p.inbox ++ [.disconnect p.disconnects] }
  | .wake => { p with caller := .free }
  | .process =>
    match p.inbox with
    | [] => p
    | request :: rest => p.give methods request rest
  | .complete =>
    match p.deferred with
    | .paused (index, protocol) callbacks =>
      let result : ProxyReply V E := ⟨methods.outcome index protocol, some index⟩
      let ran :=
        Deferred.run (ProxyWorld.handle methods) (p.world.put ⟨index, result⟩) result callbacks
      { p with
        world := ran.1
        deferred := ran.2 }
    | _ => p
  | .opened => { p with world := { p.world with link := .up } }
  | .made => p.fire methods (.ok methods.client)
  | .failed reason =>
    let link := if p.world.link = .connecting then .down else p.world.link
    ThreadedVNCClientProxy.fire methods { p with world := { p.world with link := link } }
      (.error reason)
  | .closes => { p with world := { p.world with told := true } }
  | .lost => { p with world := p.world.lose }

/-- What a list of acts leads to. -/
def runs (methods : Methods V E) (acts : List (Act E)) : ThreadedVNCClientProxy V E :=
  acts.foldl (next methods) {}

/-- Each of the acts can happen when it does. -/
def Possible (methods : Methods V E) (acts : List (Act E)) : Prop :=
  Machine.Throughout (next methods) Can {} acts

end ThreadedVNCClientProxy

end VncDoTool
