import VncDoTool.Client.Gate

/-!
# The startup of a client

Where a client stands between the version header and the session when the security type is None or
VNC Authentication, and what each handler call comes to there.

* `RFBClient.awaitingChallenge`, `RFBClient.awaitingResult`, `RFBClient.awaitingReasonLength`,
  `RFBClient.awaitingReason`: the places where a generator of these types is suspended.
* `run_startSecurity_*`: settling on one of these types.
* `run_handle_awaiting*`: what resuming a generator comes to.
-/

namespace VncDoTool

namespace RFBClient

variable {D S : Type} {library : Library}
  {decoders : ℤ → Option (Decoder (D := D) (S := S) (baseCallback library))}

/-! ## Suspended generators -/

/-- What VNC Authentication does with a challenge. -/
def answerChallenge (env : Env D S) (challenge : Block 16) : Gen D S Bool := do
  Coroutine.modify fun a => { a with challenge := challenge.bytes }
  Gen.lift (env.call .vncRequestPassword)
  securityResult env

/-- What a refusal does with the reason. -/
def giveReason (env : Env D S) (reason : Bytes) : Gen D S Bool := do
  Gen.lift (env.call (.vncAuthFailed (.bytes reason)))
  Gen.lift Attrs.loseConnection
  pure false

/-- The handler that waits for a challenge. -/
def awaitingChallenge (env : Env D S) (secType : ℕ) : Expected D S :=
  .pump (.security secType) 16 fun block t => (answerChallenge env block).run t

/-- The handler that waits for the length of the reason for a failure. -/
def awaitingReasonLength (env : Env D S) (secType : ℕ) : Expected D S :=
  .pump (.security secType) 4 fun block t => (readReason env (u32At block.bytes 0)).run t

/-- The handler that waits for the reason for a failure. -/
def awaitingReason (env : Env D S) (secType waitfor : ℕ) : Expected D S :=
  .pump (.security secType) waitfor fun block t => (giveReason env block.bytes).run t

/-- A generator that asks for bytes is parked. -/
theorem run_pump_of_yielded (env : Env D S) {task : Task} (a : Attrs D S) (n : ℕ)
    (resume : Block n → Attrs D S → GenStep D S task.Result) (c : RFBClient D S) :
    (pump env task (.yielded a (.bytes n) resume)).run c =
      .ok () { c with attrs := a, phase := .expecting (.pump task n resume) } := by
  rw [run_pump]
  simp only [drive]
  rw [if_neg (Int.not_lt.mpr (Int.natCast_nonneg n))]

/-- A generator that is finished. -/
theorem run_pump_of_done (env : Env D S) {task : Task} (a : Attrs D S) (v : task.Result)
    (c : RFBClient D S) :
    (pump env task (.done a v)).run c = (finish env task v).run { c with attrs := a } := by
  rw [run_pump]
  rfl

theorem run_vncAuthenticationHandler (env : Env D S) (a : Attrs D S) :
    (vncAuthenticationHandler env).run a =
      .yielded a (.bytes 16) fun block t => (answerChallenge env block).run t := rfl

theorem run_securityResult (env : Env D S) (a : Attrs D S) :
    (securityResult env).run a =
      .yielded a (.bytes 4) fun block t => (judge env (u32At block.bytes 0)).run t := rfl

theorem run_readReason_of_le {env : Env D S} {waitfor : ℕ} (h : waitfor ≤ maxMessagePayload)
    (a : Attrs D S) :
    (readReason env waitfor).run a =
      .yielded a (.bytes waitfor) fun block t => (giveReason env block.bytes).run t := by
  have hpure : requirePayload (D := D) (S := S) waitfor = pure () := if_neg (Nat.not_lt.mpr h)
  unfold readReason
  rw [Coroutine.run_bind, hpure]
  rfl

theorem run_giveReason (reason : Bytes) (a : Attrs D S) :
    (giveReason (base library decoders) reason).run a = .done
      { a with log := a.log ++ [.called (.vncAuthFailed (.bytes reason)), .loseConnection] } false := by
  unfold giveReason
  simp [run_call_base]

/-- Before 3.8 a refusal gives a reason of its own. -/
theorem run_refuse_of_lt {a : Attrs D S} (h : ¬Ver.le (3, 8) a.version) (reason : String) :
    (refuse (base library decoders) reason).run a = .done
      { a with log := a.log ++ [.called (.vncAuthFailed (.text reason)), .loseConnection] } false := by
  unfold refuse reportFailure
  simp [h, run_call_base]

/-! ## Settling on a type -/

theorem run_startSecurity_none_of_lt {c : RFBClient D S} (h : ¬Ver.le (3, 8) c.attrs.version) :
    (startSecurity (base library decoders) AuthTypes.none.value).run c =
      doClientInitialization.run c := by
  rw [run_startSecurity]
  simp only [securityHandler, if_true]
  rw [run_noneHandler_of_lt h, run_pump_of_done]
  rfl

theorem run_startSecurity_none_of_le {c : RFBClient D S} (h : Ver.le (3, 8) c.attrs.version) :
    (startSecurity (base library decoders) AuthTypes.none.value).run c =
      .ok () { c with
        phase := .expecting (awaitingResult (base library decoders) AuthTypes.none.value) } := by
  have hrun : (noneHandler (base library decoders)).run c.attrs =
      (securityResult (base library decoders)).run c.attrs := by
    unfold noneHandler
    rw [Coroutine.run_bind, Coroutine.run_get, Coroutine.Step.bind_done, if_neg (not_not_intro h)]
  rw [run_startSecurity]
  simp only [securityHandler, if_true]
  rw [hrun, run_securityResult]
  exact run_pump_of_yielded _ _ 4 _ c

theorem run_startSecurity_vnc (c : RFBClient D S) :
    (startSecurity (base library decoders) AuthTypes.vncAuthentication.value).run c =
      .ok () { c with
        phase := .expecting
          (awaitingChallenge (base library decoders) AuthTypes.vncAuthentication.value) } := by
  rw [run_startSecurity]
  have hhandler : securityHandler (base library decoders) AuthTypes.vncAuthentication.value =
      some (vncAuthenticationHandler (base library decoders)) := rfl
  rw [hhandler]
  simp only
  rw [run_vncAuthenticationHandler]
  exact run_pump_of_yielded _ _ 16 _ c

/-- Of the supported types the handshake settles on None or VNC Authentication. -/
theorem type_of_supported {secType : ℕ} (hsupported : secType ∈ supportedAuths)
    (hchosen : secType ≠ AuthTypes.vencrypt.value ∧ secType ≠ AuthTypes.diffieHellman.value) :
    secType = AuthTypes.none.value ∨ secType = AuthTypes.vncAuthentication.value := by
  simp only [supportedAuths, List.mem_cons, List.not_mem_nil, or_false] at hsupported
  rcases hsupported with h | h | h | h
  · exact .inl h
  · exact .inr h
  · exact absurd h hchosen.1
  · exact absurd h hchosen.2

/-- A turn of the loop settles on no security type but None and VNC Authentication. -/
def PlainTypes (c : RFBClient D S) : Prop :=
  ∀ secType, ready c = true → chosenType c = some secType →
    secType ≠ AuthTypes.vencrypt.value ∧ secType ≠ AuthTypes.diffieHellman.value

/-- The security type a block settles on. -/
def Expected.chooses : (e : Expected D S) → Block e.len → Option ℕ
  | .auth, block => some (u32At block.bytes 0)
  | .securityTypes _, block =>
    ((block.bytes.map UInt8.toNat).filter (· ∈ supportedAuths)).max?
  | _, _ => none

theorem PlainTypes.of_chooses {c : RFBClient D S} (h : PlainTypes c) (hready : ready c = true)
    {e : Expected D S} (hphase : c.phase = .expecting e) (hlen : e.len ≤ c.packet.length)
    (secType : ℕ) (hchooses : e.chooses (Block.ofPrefix e.len c.packet hlen) = some secType) :
    secType ≠ AuthTypes.vencrypt.value ∧ secType ≠ AuthTypes.diffieHellman.value := by
  refine h secType hready ?_
  unfold chosenType
  rw [hphase]
  cases e with
  | auth => exact hchooses
  | securityTypes count => exact hchooses
  | _ => exact absurd hchooses (by simp [Expected.chooses])

/-! ## Resuming -/

section

variable {secType : ℕ} {c : RFBClient D S}

/-- A password that encodes answers the challenge. -/
theorem run_handle_awaitingChallenge {password : String} {key : Bytes}
    (hpassword : c.attrs.factory.password = some password) (hkey : vncDes password = .ok key)
    (block : Block 16) :
    (handle (base library decoders) (awaitingChallenge (base library decoders) secType) block).run c =
      .ok () { c with
        attrs := { c.attrs with
          challenge := block.bytes
          log := c.attrs.log ++ [.called .vncRequestPassword,
            .wrote .challengeResponse (desEncrypt library key block.bytes)] }
        phase := .expecting (awaitingResult (base library decoders) secType) } := by
  have hrun : (answerChallenge (base library decoders) block).run c.attrs =
      (securityResult (base library decoders)).run { c.attrs with
        challenge := block.bytes
        log := c.attrs.log ++ [.called .vncRequestPassword,
          .wrote .challengeResponse (desEncrypt library key block.bytes)] } := by
    unfold answerChallenge
    simp [run_call, base, baseCallback, vncRequestPassword, hpassword, sendPassword, ofExcept, hkey]
  unfold awaitingChallenge
  rw [run_handle_pump, hrun, run_securityResult]
  exact run_pump_of_yielded _ _ 4 _ _

/-- Whatever the password, the challenge is answered, or asking for the password raises. -/
theorem run_handle_awaitingChallenge_cases (block : Block 16) :
    (∃ a, (handle (base library decoders) (awaitingChallenge (base library decoders) secType)
        block).run c =
      .ok () { c with
        attrs := a
        phase := .expecting (awaitingResult (base library decoders) secType) }) ∨
    (client ((handle (base library decoders) (awaitingChallenge (base library decoders) secType)
        block).run c)).aborted = true ∨
    (client ((handle (base library decoders) (awaitingChallenge (base library decoders) secType)
        block).run c)).phase = .expecting (.ended (.security secType) 16) := by
  -- Only asking for the password can fail before the result is awaited.
  have hrun : ∀ a : Attrs D S, (answerChallenge (base library decoders) block).run a =
      match (vncRequestPassword library).run
        { a with challenge := block.bytes, log := a.log ++ [.called .vncRequestPassword] } with
      | .ok _ a' => (securityResult (base library decoders)).run a'
      | .error e a' => .failed a' e := by
    intro a
    unfold answerChallenge
    simp only [Coroutine.run_bind, Coroutine.run_modify, Coroutine.Step.bind_done, Gen.run_lift,
      run_call, base, baseCallback]
    cases (vncRequestPassword library).run
      { a with challenge := block.bytes, log := a.log ++ [.called .vncRequestPassword] } <;> rfl
  unfold awaitingChallenge
  rw [run_handle_pump, hrun]
  rcases @run_vncRequestPassword D S library { c.attrs with
    challenge := block.bytes
    log := c.attrs.log ++ [.called .vncRequestPassword] } with ⟨e, _, hok⟩ | ⟨_, e, _, _, herror⟩
  · rw [hok]
    exact .inl ⟨_, run_pump_of_yielded _ _ 4 _ _⟩
  · rw [herror, run_pump]
    simp only [drive]
    split_ifs
    · rw [run_abortConnection]
      exact .inr (.inl rfl)
    · exact .inr (.inr rfl)

theorem run_handle_awaitingResult_of_zero {env : Env D S} {block : Block 4} (h : u32At block.bytes 0 = 0) :
    (handle env (awaitingResult env secType) block).run c =
      doClientInitialization.run { c with phase := .expecting (.ended (.security secType) 4) } := by
  have hjudge : judge env (u32At block.bytes 0) = pure true := if_pos h
  unfold awaitingResult
  rw [run_handle_pump, hjudge]
  exact run_pump_of_done _ _ _ _

/-- What a failure is called. -/
def failureText (result : ℕ) : String :=
  if result = 1 then "authentication failed" else "too many tries to log in"

/-- A failure refuses. -/
theorem judge_of_failed (env : Env D S) {result : ℕ} (h : result = 1 ∨ result = 2) :
    judge env result = refuse env (failureText result) := by
  rcases h with rfl | rfl <;> rfl

/-- Before 3.8 a failure is reported at once. -/
theorem run_handle_awaitingResult_of_lt {block : Block 4}
    (h : u32At block.bytes 0 = 1 ∨ u32At block.bytes 0 = 2) (hversion : ¬Ver.le (3, 8) c.attrs.version) :
    (handle (base library decoders) (awaitingResult (base library decoders) secType) block).run c =
      .ok () { c with
        attrs := { c.attrs with
          log := c.attrs.log ++ [.called (.vncAuthFailed (.text (failureText (u32At block.bytes 0)))),
            .loseConnection] }
        phase := .expecting (.ended (.security secType) 4) } := by
  unfold awaitingResult
  rw [run_handle_pump, judge_of_failed _ h, run_refuse_of_lt hversion, run_pump_of_done]
  rfl

/-- From 3.8 on its reason comes first. -/
theorem run_handle_awaitingResult_of_le {env : Env D S} {block : Block 4}
    (h : u32At block.bytes 0 = 1 ∨ u32At block.bytes 0 = 2) (hversion : Ver.le (3, 8) c.attrs.version) :
    (handle env (awaitingResult env secType) block).run c =
      .ok () { c with phase := .expecting (awaitingReasonLength env secType) } := by
  unfold awaitingResult
  rw [run_handle_pump, judge_of_failed _ h, run_refuse_of_le hversion]
  exact run_pump_of_yielded _ _ 4 _ _

/-- A result out of range closes the connection and is not reported. -/
theorem run_handle_awaitingResult_of_gt {env : Env D S} {block : Block 4} (h : 2 < u32At block.bytes 0) :
    (handle env (awaitingResult env secType) block).run c =
      .ok () { c with
        attrs := { c.attrs with log := c.attrs.log ++ [.loseConnection] }
        phase := .expecting (.ended (.security secType) 4) } := by
  have hjudge : (judge env (u32At block.bytes 0)).run c.attrs =
      .done { c.attrs with log := c.attrs.log ++ [.loseConnection] } false := by
    unfold judge
    rw [if_neg (by omega), if_neg (by omega), if_neg (by omega)]
    rfl
  unfold awaitingResult
  rw [run_handle_pump, hjudge, run_pump_of_done]
  rfl

theorem run_handle_awaitingReasonLength_of_le {env : Env D S} {block : Block 4}
    (h : u32At block.bytes 0 ≤ maxMessagePayload) :
    (handle env (awaitingReasonLength env secType) block).run c =
      .ok () { c with
        phase := .expecting (awaitingReason env secType (u32At block.bytes 0)) } := by
  unfold awaitingReasonLength
  rw [run_handle_pump, run_readReason_of_le h]
  exact run_pump_of_yielded _ _ _ _ _

/-- A reason over the bound raises out of the handler. -/
theorem run_handle_awaitingReasonLength_of_gt {env : Env D S} {block : Block 4}
    (h : maxMessagePayload < u32At block.bytes 0) :
    (handle env (awaitingReasonLength env secType) block).run c =
      .error ⟨.decodeError, payloadMessage (u32At block.bytes 0)⟩
        { c with phase := .expecting (.ended (.security secType) 4) } := by
  unfold awaitingReasonLength
  rw [run_handle_pump, run_pump, run_readReason_of_gt h]
  rfl

theorem run_handle_awaitingReason (waitfor : ℕ) (block : Block waitfor) :
    (handle (base library decoders) (awaitingReason (base library decoders) secType waitfor)
        block).run c =
      .ok () { c with
        attrs := { c.attrs with
          log := c.attrs.log ++ [.called (.vncAuthFailed (.bytes block.bytes)), .loseConnection] }
        phase := .expecting (.ended (.security secType) waitfor) } := by
  unfold awaitingReason
  rw [run_handle_pump, run_giveReason, run_pump_of_done]
  rfl

end

end RFBClient

end VncDoTool
