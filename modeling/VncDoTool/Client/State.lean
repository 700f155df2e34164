import VncDoTool.Const
import VncDoTool.PixelFormat
import VncDoTool.PyText
import VncDoTool.Lib.Contract
import VncDoTool.Lib.Effect

/-!
# The state of a client

The attributes of `RFBClient`, `rfb.py`, that its message and rectangle generators share, what the
client does to the outside world, and the code it takes from elsewhere.

* `Event`: what is written to the transport and which callbacks run, in order.
* `Attrs`: the attributes. `D` stands for what the decoders of the connection keep, `S` for what a
  subclass adds.
* `Py`: straight-line code over a state, which may raise and then leaves the state as it was at
  that point.
* `Gen`: a generator that `_pump` drives over the attributes.
* `Decoder`: a decoder, which calls back at most once and last.
* `Env`: the overridable callbacks, the decoder table and the library code.
-/

namespace VncDoTool

/-- The classes of the exceptions the modelled code raises. -/
inductive ErrorClass : Type
  | decodeError | securityError | structError | memoryError | zlibError
  | valueError | unicodeEncodeError | overflowError | attributeError | alreadyCalledError
  | indexError | keyError | typeError | assertionError | unsupportedPixelFormat | regionError
  deriving DecidableEq, Repr

/-- An exception, with the text `str` gives. -/
structure PyErr : Type where
  cls : ErrorClass
  message : String
  deriving DecidableEq, Repr

/-- Straight-line code: it returns or raises, and keeps what it did to the state either way. -/
abbrev Py (σ α : Type) : Type := EStateM PyErr σ α

/-- A rectangle of the framebuffer. -/
structure Rect : Type where
  x : ℕ
  y : ℕ
  width : ℕ
  height : ℕ
  deriving DecidableEq, Repr

/-- What one rectangle did, for the pump to act on: whether it counts as a screen change, and the
paste left to make, in the format the decoder wrote it in. -/
structure Outcome : Type where
  changed : Bool
  paste : Option (Bytes × PixelFormat) := none
  deriving DecidableEq, Repr

namespace RFBClient

/-- The options `startTLS` is called with. -/
inductive ClientOptions : Type
  /-- `_anonymous_options`. -/
  | anonymous
  /-- `_unverified_options`. -/
  | unverified
  /-- `_verified_options`: the certificate is checked against the host name. -/
  | verified (hostname : String) (caCerts : Option String)
  deriving DecidableEq, Repr

/-- Why authentication failed: a text of this client, or bytes off the wire. -/
inductive AuthFailure : Type
  | text (reason : String)
  | bytes (reason : Bytes)
  deriving DecidableEq, Repr

/-- A call of one of the methods an application overrides. -/
inductive Callback : Type
  | vncConnectionMade
  | vncRequestPassword
  | vncAuthFailed (reason : AuthFailure)
  | vncProtocolError (reason : String)
  | beginUpdate
  | commitUpdate (rectangles : List Rect)
  | updateRectangle (rect : Rect) (data : Bytes) (pixelFormat : PixelFormat)
  | copyRectangle (srcx srcy : ℕ) (rect : Rect)
  | updateCursor (rect : Rect) (image mask : Bytes)
  | updatePointerPos (x y : ℕ)
  | updateDesktopSize (width height : ℕ)
  | setColorMap (first : ℕ) (colors : List (ℕ × ℕ × ℕ))
  | bell
  | copyText (text : List Char)
  deriving DecidableEq, Repr

/-- What a write to the transport carries. -/
inductive Written : Type
  | protocolVersion | securityType | vencryptVersion | vencryptSubtype
  /-- The DES response to a challenge. -/
  | challengeResponse
  /-- The ARD credential block and public key. -/
  | ardCredentials
  /-- The VeNCrypt Plain user name and password. -/
  | plainCredentials
  | clientInit
  /-- A client-to-server message, RFC 6143 §7.5. -/
  | message
  deriving DecidableEq, Repr

/-- What the outside world sees of a client. -/
inductive Event : Type
  | wrote (what : Written) (data : Bytes)
  | called (callback : Callback)
  | loseConnection
  | startTLS (options : ClientOptions)
  deriving DecidableEq, Repr

/-- The attributes of the factory that the client reads. -/
structure Factory : Type where
  username : Option String := none
  password : Option String := none
  shared : Bool := false
  tlsHostname : Option String := none
  tlsCaCerts : Option String := none
  tlsAllowUnverified : Bool := false
  deriving DecidableEq, Repr

/-- The attributes of a client. -/
structure Attrs (D S : Type) : Type where
  factory : Factory
  version : Ver := (0, 0)
  versionServer : Ver := (0, 0)
  vencryptSubtype : VeNCryptSubtypes := .plain
  tlsHandshakePending : Bool := false
  negotiatedEncodings : List ℤ := [Encoding.raw]
  pixelFormat : PixelFormat := {}
  width : ℕ := 0
  height : ℕ := 0
  name : Bytes := []
  challenge : Bytes := []
  /-- The rectangles of the current update still to come. -/
  rectangles : ℕ := 0
  rectanglePos : List Rect := []
  /-- What the decoders of this connection keep. -/
  decoding : D
  /-- What a subclass adds. -/
  own : S
  log : List Event := []

namespace Attrs

variable {D S : Type}

/-- Something the outside world sees. -/
def emit (e : Event) : Py (Attrs D S) Unit := modify fun a => { a with log := a.log ++ [e] }

/-- `transport.write`. -/
def write (what : Written) (data : Bytes) : Py (Attrs D S) Unit := emit (.wrote what data)

/-- `transport.loseConnection`. -/
def loseConnection : Py (Attrs D S) Unit := emit .loseConnection

end Attrs

/-- What a generator asks its driver. -/
inductive Request : Type
  /-- `yield n`. -/
  | bytes (n : ℤ)
  /-- `client._packet`, as a truth value. -/
  | packet
  deriving DecidableEq, Repr

/-- What the driver answers: exactly the bytes asked for, or whether any are waiting. -/
abbrev Answer : Request → Type
  | .bytes n => Block n.toNat
  | .packet => Bool

/-- A generator over the attributes of a client. -/
abbrev Gen (D S α : Type) : Type := Coroutine Request Answer PyErr (Attrs D S) α

/-- Where a generator stands. -/
abbrev GenStep (D S α : Type) : Type := Coroutine.Step Request Answer PyErr (Attrs D S) α

/-- The generator only reads: it never looks at `_packet`. -/
abbrev Reads {α : Type} (x : GenStep D S α) : Prop := x.Asks fun y => ∃ n : ℕ, y = .bytes n

namespace Gen

variable {S α : Type}

/-- `yield n`: the next `n` bytes. -/
def read (n : ℕ) : Gen D S (Block n) := Coroutine.yield (R := Answer) (Request.bytes n)

/-- Whether bytes are waiting behind the last block. -/
def packetWaiting : Gen D S Bool := Coroutine.yield (R := Answer) Request.packet

/-- Straight-line code inside a generator. -/
def lift (m : Py (Attrs D S) α) : Gen D S α :=
  ⟨fun a => match m.run a with
    | .ok v a' => .done a' v
    | .error e a' => .failed a' e⟩

/-- `raise`. -/
def raise (cls : ErrorClass) (message : String) : Gen D S α := Coroutine.throw ⟨cls, message⟩

@[simp] theorem run_read (n : ℕ) (a : Attrs D S) :
    (read n).run a = .yielded a (.bytes n) fun block a' => .done a' block := rfl

@[simp] theorem run_packetWaiting (a : Attrs D S) :
    packetWaiting.run a = .yielded a .packet fun waiting a' => .done a' waiting := rfl

@[simp] theorem run_lift (m : Py (Attrs D S) α) (a : Attrs D S) :
    (lift m).run a = match m.run a with
      | .ok v a' => .done a' v
      | .error e a' => .failed a' e := rfl

/-- Straight-line code keeps a contract that allows what it does and whatever it may raise. -/
theorem honours_lift_of_does {C : Coroutine.Contract Request PyErr (Attrs D S)}
    {m : Py (Attrs D S) α} (h : Effect.Does C.does m) (hraises : ∀ e, C.raises e) (a : Attrs D S) :
    ((lift m).run a).Honours C (fun _ _ => True) a := by
  have ha := h a
  rw [run_lift]
  cases hrun : m.run a with
  | ok v a' =>
    rw [hrun] at ha
    exact ⟨ha, trivial⟩
  | error e a' =>
    rw [hrun] at ha
    exact ⟨ha, hraises e⟩

@[simp] theorem run_raise (cls : ErrorClass) (message : String) (a : Attrs D S) :
    (raise cls message : Gen D S α).run a = .failed a ⟨cls, message⟩ := rfl

end Gen

/-- The library code the client calls. -/
structure Library : Type where
  /-- `TripleDES(key)` in ECB mode. -/
  tripleDes : (key data : Bytes) → Bytes
  /-- `os.urandom`, a new answer at each call. -/
  urandom : (call n : ℕ) → Block n
  /-- Diffie-Hellman over the server's parameters: the shared key and the client's public number,
  or what the library raises on parameters it refuses. -/
  exchange : (modulus generator serverKey : ℕ) → Except PyErr (Bytes × ℕ)
  md5 : Bytes → Bytes
  /-- `AES(key)` in ECB mode. -/
  aes : (key data : Bytes) → Bytes
  /-- What building the TLS options raises, if it does. -/
  optionsError : ClientOptions → Option String
  /-- `input("username: ")`. -/
  input : String
  /-- `getpass.getpass("password:")`. -/
  getpass : String

/-- `a'` is `a` but for what the decoders keep and the encodings the server has shown to know. -/
def Quiet (a a' : Attrs D S) : Prop :=
  ∃ decoding encodings, a' = { a with decoding := decoding, negotiatedEncodings := encodings }

theorem Quiet.refl (a : Attrs D S) : Quiet a a := ⟨_, _, rfl⟩

theorem Quiet.trans {a a' a'' : Attrs D S} (h : Quiet a a') (h' : Quiet a' a'') : Quiet a a'' := by
  obtain ⟨d, n, rfl⟩ := h
  obtain ⟨d', n', rfl⟩ := h'
  exact ⟨d', n', rfl⟩

/-- The callbacks a decoder may make. -/
def Callback.paints : Callback → Bool
  | .copyRectangle .. | .updateCursor .. | .updatePointerPos .. | .updateDesktopSize .. => true
  | _ => false

/-- Call an overridable method. -/
def invoke (callback : Callback → Py (Attrs D S) Unit) (method : Callback) : Py (Attrs D S) Unit := do
  Attrs.emit (.called method)
  callback method

/-- From `a` on the decoder makes no callback but, at most, one as the last thing it does, and then
leaves no paste to make: what fails, or still waits for bytes, has painted nothing. -/
def PaintsLast (callback : Callback → Py (Attrs D S) Unit) :
    Attrs D S → GenStep D S Outcome → Prop
  | a, .done a' outcome => Quiet a a' ∨ outcome.paste = none ∧ ∃ a₁ method, Quiet a a₁ ∧
      method.paints ∧ (invoke callback method).run a₁ = .ok () a'
  | a, .failed a' e => Quiet a a' ∨ ∃ a₁ method, Quiet a a₁ ∧ method.paints ∧
      (invoke callback method).run a₁ = .error e a'
  | a, .yielded a' _ resume => Quiet a a' ∧ ∀ answer a₁, PaintsLast callback a₁ (resume answer a₁)

theorem PaintsLast.from_earlier {callback : Callback → Py (Attrs D S) Unit} {a₀ a : Attrs D S}
    {x : GenStep D S Outcome} (hquiet : Quiet a₀ a) (h : PaintsLast callback a x) :
    PaintsLast callback a₀ x := by
  cases x with
  | done a' v =>
    rcases h with h | ⟨hpaste, a₁, method, h, hpaints, hrun⟩
    · exact .inl (hquiet.trans h)
    · exact .inr ⟨hpaste, a₁, method, hquiet.trans h, hpaints, hrun⟩
  | failed a' e =>
    rcases h with h | ⟨a₁, method, h, hpaints, hrun⟩
    · exact .inl (hquiet.trans h)
    · exact .inr ⟨a₁, method, hquiet.trans h, hpaints, hrun⟩
  | yielded a' y resume => exact ⟨hquiet.trans h.1, h.2⟩

/-- A decoder, for a client with the given callbacks. -/
structure Decoder (callback : Callback → Py (Attrs D S) Unit) : Type where
  /-- `decode`: read one rectangle. -/
  decode : Rect → PixelFormat → Gen D S Outcome
  paintsLast : ∀ rect pixelFormat a, PaintsLast callback a ((decode rect pixelFormat).run a)

/-- The code a client is completed with. -/
structure Env (D S : Type) : Type where
  /-- The methods an application overrides. -/
  callback : Callback → Py (Attrs D S) Unit
  /-- The decoders of a connection, by encoding type. -/
  decoders : ℤ → Option (Decoder callback)
  library : Library

/-- Call an overridable method. -/
def Env.call (env : Env D S) (method : Callback) : Py (Attrs D S) Unit := invoke env.callback method

end RFBClient

end VncDoTool
