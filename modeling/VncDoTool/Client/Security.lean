import VncDoTool.Client.VeNCrypt

/-!
# Security types

The handlers of `security/`, the generators the client runs once the security type is settled, and
the methods of `RFBClient` they call.

* `securityResult`: RFC 6143 §7.1.3, the result and the reason 3.8 adds on failure.
* `noneHandler`, `vncAuthenticationHandler`, `diffieHellmanHandler`, `vencryptHandler`, and the
  table `securityHandler`.
* `RFBClient.baseCallback`: the callbacks as `RFBClient` itself defines them.
-/

namespace VncDoTool

namespace RFBClient

variable {D S : Type}

/-- The bound on what a server may declare a message payload to hold. -/
def maxMessagePayload : ℕ := 2 ^ 20

/-- What `requirePayload` says of a payload over the bound. -/
def payloadMessage (length : ℕ) : String :=
  s!"payload of {length} bytes exceeds the {maxMessagePayload} byte limit"

/-- `requirePayload`: raise unless a server-declared message payload fits the bound. -/
def requirePayload (length : ℕ) : Gen D S Unit :=
  if length > maxMessagePayload then Gen.raise .decodeError (payloadMessage length) else pure ()

/-! ## Passwords -/

/-- Reverse the bits of one byte. -/
def reverseByte (k : UInt8) : UInt8 :=
  UInt8.ofNat (((List.range 8).map fun i => if k.toNat.testBit i then 128 >>> i else 0).sum)

/-- `reverse_bits`: the bit reversal the VNC family applies to a DES key before using it. -/
def reverseBits (data : Bytes) : Bytes := data.map reverseByte

/-- `pw.encode("ASCII")`. -/
def encodeAscii (text : List Char) : Except PyErr Bytes :=
  text.mapM fun c =>
    if c.toNat < 128 then .ok (UInt8.ofNat c.toNat)
    else .error ⟨.unicodeEncodeError, "ordinal not in range(128)"⟩

/-- `_vnc_des`: the DES key of a password, its first eight characters padded with NULs. -/
def vncDes (password : String) : Except PyErr Bytes := do
  let pw := password.toList.take 8
  let key ← encodeAscii (pw ++ List.replicate (8 - pw.length) (Char.ofNat 0))
  pure (reverseBits key)

/-- `des_encrypt`: single DES, as Triple-DES with one key three times. -/
def desEncrypt (library : Library) (key data : Bytes) : Bytes :=
  library.tripleDes (key ++ key ++ key) data

/-- The value of a call that may raise. -/
def ofExcept {σ α : Type} : Except PyErr α → Py σ α
  | .ok v => pure v
  | .error e => throw e

/-- `sendPassword`. -/
def sendPassword (library : Library) (password : String) : Py (Attrs D S) Unit := do
  let key ← ofExcept (vncDes password)
  let a ← get
  Attrs.write .challengeResponse (desEncrypt library key a.challenge)

/-- `vncRequestPassword` of the base class. -/
def vncRequestPassword (library : Library) : Py (Attrs D S) Unit := do
  let a ← get
  match a.factory.password with
  | none => Attrs.loseConnection
  | some password => sendPassword library password

/-- The callbacks of the base class: `vncRequestPassword` answers the challenge, the others do
nothing the outside world sees. -/
def baseCallback (library : Library) : Callback → Py (Attrs D S) Unit
  | .vncRequestPassword => vncRequestPassword library
  | _ => pure ()

/-! ## The security result -/

/-- Report that authentication failed. From 3.8 on the server's reason follows the result. -/
def reportFailure (env : Env D S) (reason : String) : Gen D S Unit := do
  let a ← Coroutine.get
  if ¬Ver.le (3, 8) a.version then Gen.lift (env.call (.vncAuthFailed (.text reason)))
  else
    let waitfor ← Gen.read 4
    requirePayload (u32At waitfor.bytes 0)
    let reason ← Gen.read (u32At waitfor.bytes 0)
    Gen.lift (env.call (.vncAuthFailed (.bytes reason.bytes)))

/-- Report that authentication failed, and close. -/
def refuse (env : Env D S) (reason : String) : Gen D S Bool := do
  reportFailure env reason
  Gen.lift Attrs.loseConnection
  pure false

/-- What follows a SecurityResult. -/
def judge (env : Env D S) (result : ℕ) : Gen D S Bool :=
  if result = 0 then pure true
  else if result = 1 then refuse env "authentication failed"
  else if result = 2 then refuse env "too many tries to log in"
  else do
    -- An unknown result closes the connection and is not reported.
    Gen.lift Attrs.loseConnection
    pure false

/-- `security_result`. -/
def securityResult (env : Env D S) : Gen D S Bool := do
  let block ← Gen.read 4
  judge env (u32At block.bytes 0)

/-! ## None and VNC Authentication -/

/-- Security type None: only from 3.8 on does a SecurityResult follow. -/
def noneHandler (env : Env D S) : Gen D S Bool := do
  let a ← Coroutine.get
  if ¬Ver.le (3, 8) a.version then pure true else securityResult env

/-- Read the DES challenge and ask for the password that answers it. -/
def readChallenge (env : Env D S) : Gen D S Unit := do
  let challenge ← Gen.read 16
  Coroutine.modify fun a => { a with challenge := challenge.bytes }
  Gen.lift (env.call .vncRequestPassword)

/-- VNC Authentication, RFC 6143 §7.2.2. -/
def vncAuthenticationHandler (env : Env D S) : Gen D S Bool := do
  readChallenge env
  securityResult env

/-! ## Diffie-Hellman (ARD) -/

/-- `s.encode("utf-8")`. -/
def encodeUtf8 (s : String) : Bytes := s.toUTF8.toList

/-- The length of each padded field of the ARD credential block. -/
def credentialLen : ℕ := 64

/-- `_credential`: a NUL-terminated field, padded with random data. -/
def credential (library : Library) (call : ℕ) (name value : String) : Except PyErr Bytes :=
  let encoded := encodeUtf8 value ++ [0]
  if encoded.length > credentialLen then
    .error ⟨.securityError,
      s!"{name} is {encoded.length - 1} bytes as UTF-8, over the " ++
        s!"{credentialLen - 1} this security type carries"⟩
  else .ok (encoded ++ (library.urandom call (credentialLen - encoded.length)).bytes)

/-- `int.from_bytes(b, "big")`. -/
def ofBytesBE (b : Bytes) : ℕ := b.foldl (fun n x => 256 * n + x.toNat) 0

/-- `n.to_bytes(length, "big")`, digit by digit from the least significant. -/
def toBytesBE (length n : ℕ) : Except PyErr Bytes :=
  if n < 256 ^ length then
    .ok ((List.range length).map fun i => UInt8.ofNat (n / 256 ^ (length - 1 - i)))
  else .error ⟨.overflowError, "int too big to convert"⟩

/-- `_encrypt`: the encrypted credentials and the client's public key. -/
def ardEncrypt (library : Library) (username password : String) (generator keyLen : ℕ)
    (modulus serverKey : Bytes) : Except PyErr Bytes := do
  let user ← credential library 0 "username" username
  let pass ← credential library 1 "password" password
  let (sharedKey, y) ← library.exchange (ofBytesBE modulus) generator (ofBytesBE serverKey)
  let publicKey ← toBytesBE keyLen y
  pure (library.aes (library.md5 sharedKey) (user ++ pass) ++ publicKey)

/-- `ardRequestCredentials`: ask at the terminal for what was not configured. -/
def ardRequestCredentials (env : Env D S) : Py (Attrs D S) Unit :=
  modify fun a => { a with
    factory := { a.factory with
      username := some (a.factory.username.getD env.library.input)
      password := some (a.factory.password.getD env.library.getpass) } }

/-- Security type Diffie-Hellman, which Apple Remote Desktop uses. -/
def diffieHellmanHandler (env : Env D S) : Gen D S Bool := do
  let header ← Gen.read 4
  let keyLen := u16At header.bytes 2
  let modulus ← Gen.read keyLen
  let serverKey ← Gen.read keyLen
  Gen.lift (ardRequestCredentials env)
  let a ← Coroutine.get
  let response ← Gen.lift (ofExcept (ardEncrypt env.library (a.factory.username.getD "")
    (a.factory.password.getD "") (u16At header.bytes 0) keyLen modulus.bytes serverKey.bytes))
  Gen.lift (Attrs.write .ardCredentials response)
  securityResult env

/-! ## VeNCrypt -/

/-- `_policy`. -/
def tlsPolicy (a : Attrs D S) : VeNCrypt.TLSPolicy where
  hostname := a.factory.tlsHostname
  caCerts := a.factory.tlsCaCerts
  allowUnverified := a.factory.tlsAllowUnverified

/-- `_credentials`. -/
def credentials (a : Attrs D S) : VeNCrypt.Credentials where
  username := a.factory.username
  password := a.factory.password

/-- Agree on VeNCrypt 0.2, the newest version this client speaks. -/
def agreeOnVersion : Gen D S Unit := do
  let offer ← Gen.read 2
  let version : Ver := (byteAt offer.bytes 0, byteAt offer.bytes 1)
  if ¬Ver.le (0, 2) version then
    Gen.raise .securityError s!"VeNCrypt {version.1}.{version.2} is not supported"
  else
    -- `min(version, MAX_VERSION)`: nothing older gets here.
    Gen.lift (Attrs.write .vencryptVersion [0, 2])
    let ack ← Gen.read 1
    if byteAt ack.bytes 0 ≠ 0 then Gen.raise .securityError "server refused VeNCrypt 0.2"
    else pure ()

/-- Read the subtypes on offer and request the most protected one that is usable. -/
def requestSubtype : Gen D S VeNCryptSubtypes := do
  let count ← Gen.read 1
  let count := byteAt count.bytes 0
  if count = 0 then Gen.raise .securityError "server offered no VeNCrypt subtypes"
  else
    let block ← Gen.read (4 * count)
    let subtypes := (List.range count).map fun i => u32At block.bytes (4 * i)
    let a ← Coroutine.get
    match VeNCrypt.choose subtypes (tlsPolicy a) (credentials a) with
    | none =>
      Gen.raise .securityError (VeNCrypt.refusal subtypes (tlsPolicy a) (credentials a))
    | some chosen =>
      Coroutine.modify fun a => { a with vencryptSubtype := chosen }
      Gen.lift (Attrs.write .vencryptSubtype (be32 chosen.value))
      pure chosen

/-- Start the TLS tunnel of the requested subtype. -/
def startTunnel (env : Env D S) (chosen : VeNCryptSubtypes) : Gen D S Unit := do
  let ack ← Gen.read 1
  if byteAt ack.bytes 0 ≠ 1 then
    Gen.raise .securityError s!"server refused {VeNCryptSubtypes.describe chosen.value}"
  else
    let waiting ← Gen.packetWaiting
    if waiting then Gen.raise .securityError "server spoke before the TLS handshake"
    else
      let a ← Coroutine.get
      match VeNCrypt.clientOptions env.library.optionsError chosen (tlsPolicy a) with
      | .error error => Gen.raise .securityError s!"cannot start TLS for VeNCrypt: {error}"
      | .ok options =>
        Coroutine.modify fun a => { a with tlsHandshakePending := true }
        Gen.lift (Attrs.emit (.startTLS options))

/-- `_send_plain`. -/
def sendPlain : Py (Attrs D S) Unit := do
  let a ← get
  let username := encodeUtf8 (a.factory.username.getD "")
  let password := encodeUtf8 (a.factory.password.getD "")
  Attrs.write .plainCredentials (be32 username.length ++ be32 password.length)
  Attrs.write .plainCredentials (username ++ password)

/-- The authentication inside the tunnel, which the subtype names. -/
def authenticateInside (env : Env D S) (chosen : VeNCryptSubtypes) : Gen D S Unit :=
  if chosen ∈ VeNCrypt.vncAuthSubtypes then readChallenge env
  else if chosen ∈ VeNCrypt.plainAuthSubtypes then Gen.lift sendPlain
  else pure ()

/-- Security type VeNCrypt. -/
def vencryptHandler (env : Env D S) : Gen D S Bool := do
  agreeOnVersion
  let chosen ← requestSubtype
  startTunnel env chosen
  authenticateInside env chosen
  securityResult env

/-! ## The table -/

/-- `SUPPORTED_AUTHS`. -/
def supportedAuths : List ℕ :=
  [AuthTypes.none.value, AuthTypes.vncAuthentication.value, AuthTypes.vencrypt.value,
    AuthTypes.diffieHellman.value]

/-- The handler of a security type, `security.HANDLERS`. -/
def securityHandler (env : Env D S) (secType : ℕ) : Option (Gen D S Bool) :=
  if secType = AuthTypes.none.value then some (noneHandler env)
  else if secType = AuthTypes.vncAuthentication.value then some (vncAuthenticationHandler env)
  else if secType = AuthTypes.vencrypt.value then some (vencryptHandler env)
  else if secType = AuthTypes.diffieHellman.value then some (diffieHellmanHandler env)
  else none

/-- There is a handler for exactly the supported types. -/
theorem securityHandler_isSome_iff (env : Env D S) (secType : ℕ) :
    (securityHandler env secType).isSome ↔ secType ∈ supportedAuths := by
  unfold securityHandler supportedAuths
  split_ifs <;> simp_all

end RFBClient

end VncDoTool
