import VncDoTool.Client.Startup

/-!
# Handlers that only read

Every handler but VeNCrypt's learns of what was received only by reading it, and never leaves a TLS
handshake pending.

* `RFBClient.plodding`: the contract; `RFBClient.plods_securityHandler`,
  `RFBClient.plods_messageHandler`, `RFBClient.plods_of_paintsLast`: who keeps it.
* `RFBClient.drive_of_plods`: what is buffered makes no difference to such a handler.
* `RFBClient.Plodding`: a client whose suspended generator keeps the contract;
  `RFBClient.plodding_turn`: so does the next one, as long as the client does not settle on VeNCrypt.
-/

namespace VncDoTool

namespace RFBClient

open Coroutine

variable {D S : Type}

/-- No TLS handshake is left pending where none was. -/
def KeepsClear (a a' : Attrs D S) : Prop :=
  a.tlsHandshakePending = false → a'.tlsHandshakePending = false

theorem KeepsClear.refl (a : Attrs D S) : KeepsClear a a := id

theorem KeepsClear.trans {a a' a'' : Attrs D S} (h : KeepsClear a a') (h' : KeepsClear a' a'') :
    KeepsClear a a'' := fun hclear => h' (h hclear)

/-- The contract of a handler that only reads. -/
def plodding : Contract Request PyErr (Attrs D S) where
  meanwhile := KeepsClear
  does := KeepsClear
  asks y := ∃ n : ℕ, y = .bytes n
  raises _ := True
  refl := KeepsClear.refl
  trans := KeepsClear.trans

/-- A run of such a handler. -/
abbrev Plods {α : Type} (a : Attrs D S) (x : GenStep D S α) : Prop := x.Honours plodding anything a

/-! ## Rules -/

section

variable {α β : Type} {a : Attrs D S}

theorem plods_bind {m : Gen D S α} {f : α → Gen D S β} (hm : Plods a (m.run a))
    (hf : ∀ v t, Plods t ((f v).run t)) : Plods a ((m >>= f).run a) :=
  honours_bind hm fun v t _ => hf v t

theorem plods_read (n : ℕ) : Plods a ((Gen.read n).run a) :=
  honours_yield ⟨n, rfl⟩ fun _ _ _ => trivial

theorem plods_pure (v : α) : Plods a ((pure v : Gen D S α).run a) := honours_pure trivial

theorem plods_raise (cls : ErrorClass) (message : String) :
    Plods a ((Gen.raise cls message : Gen D S α).run a) := honours_throw trivial

theorem plods_get_bind {f : Attrs D S → Gen D S α} (h : Plods a ((f a).run a)) :
    Plods a ((Coroutine.get >>= f).run a) := h

theorem plods_modify {f : Attrs D S → Attrs D S} (h : ∀ a, KeepsClear a (f a)) :
    Plods a ((Coroutine.modify f : Gen D S Unit).run a) := honours_modify (h a) trivial

/-- Straight-line code that has nothing to do with TLS. -/
abbrev Clears (m : Py (Attrs D S) α) : Prop := Effect.Does KeepsClear m

theorem plods_lift {m : Py (Attrs D S) α} (h : Clears m) : Plods a ((Gen.lift m).run a) :=
  Gen.honours_lift_of_does h (fun _ => trivial) a

theorem clears_emit {m : Py (Attrs D S) Unit}
    (h : ∀ a, ∃ e, m.run a = .ok () { a with log := a.log ++ [e] }) : Clears m := by
  intro a
  obtain ⟨e, hrun⟩ := h a
  rw [hrun]
  exact id

theorem clears_pure (v : α) : Clears (pure v : Py (Attrs D S) α) := Effect.does_pure KeepsClear.refl v

theorem clears_bind {m : Py (Attrs D S) α} {f : α → Py (Attrs D S) β} (hm : Clears m)
    (hf : ∀ v, Clears (f v)) : Clears (m >>= f) :=
  Effect.does_bind (fun _ _ _ h h' => h.trans h') hm hf

theorem clears_ofExcept (v : Except PyErr α) : Clears (ofExcept v : Py (Attrs D S) α) := by
  intro a
  cases v <;> exact id

end

/-! ## Security handlers -/

section

variable {library : Library}
  {decoders : ℤ → Option (Decoder (D := D) (S := S) (baseCallback library))} {a : Attrs D S}

theorem clears_call (method : Callback) : Clears ((base library decoders).call method) := by
  intro a
  by_cases h : method = .vncRequestPassword
  · subst h
    have hcalled : ((base library decoders).call .vncRequestPassword).run a =
        (vncRequestPassword library).run { a with log := a.log ++ [.called .vncRequestPassword] } :=
      rfl
    rw [hcalled]
    rcases @run_vncRequestPassword D S library
      { a with log := a.log ++ [.called .vncRequestPassword] } with ⟨e, _, hrun⟩ | ⟨_, e, _, _, hrun⟩
    · rw [hrun]
      exact id
    · rw [hrun]
      exact id
  · rw [run_call_base h]
    exact id

theorem clears_write (what : Written) (data : Bytes) :
    Clears (Attrs.write what data : Py (Attrs D S) Unit) :=
  clears_emit fun _ => ⟨_, rfl⟩

theorem clears_loseConnection : Clears (Attrs.loseConnection : Py (Attrs D S) Unit) :=
  clears_emit fun _ => ⟨_, rfl⟩

theorem plods_requirePayload (length : ℕ) :
    Plods a ((requirePayload length : Gen D S Unit).run a) := by
  unfold requirePayload
  split_ifs
  · exact plods_raise _ _
  · exact plods_pure ()

theorem plods_refuse (reason : String) :
    Plods a ((refuse (base library decoders) reason).run a) := by
  unfold refuse reportFailure
  refine plods_bind (plods_get_bind ?_) fun _ a => ?_
  · split_ifs
    · refine plods_bind (plods_read 4) fun waitfor a => ?_
      refine plods_bind (plods_requirePayload _) fun _ a => ?_
      refine plods_bind (plods_read _) fun reason a => ?_
      exact plods_lift (clears_call _)
    · exact plods_lift (clears_call _)
  · refine plods_bind (plods_lift clears_loseConnection) fun _ a => ?_
    exact plods_pure false

theorem plods_securityResult : Plods a ((securityResult (base library decoders)).run a) := by
  unfold securityResult
  refine plods_bind (plods_read 4) fun block a => ?_
  unfold judge
  split_ifs
  · exact plods_pure true
  · exact plods_refuse _
  · exact plods_refuse _
  · refine plods_bind (plods_lift clears_loseConnection) fun _ a => ?_
    exact plods_pure false

theorem plods_noneHandler : Plods a ((noneHandler (base library decoders)).run a) := by
  unfold noneHandler
  refine plods_get_bind ?_
  split_ifs
  · exact plods_securityResult
  · exact plods_pure true

theorem plods_vncAuthenticationHandler :
    Plods a ((vncAuthenticationHandler (base library decoders)).run a) := by
  unfold vncAuthenticationHandler readChallenge
  refine plods_bind ?_ fun _ a => plods_securityResult
  refine plods_bind (plods_read 16) fun challenge a => ?_
  refine plods_bind (plods_modify fun _ => id) fun _ a => ?_
  exact plods_lift (clears_call _)

theorem plods_diffieHellmanHandler :
    Plods a ((diffieHellmanHandler (base library decoders)).run a) := by
  unfold diffieHellmanHandler
  refine plods_bind (plods_read 4) fun header a => ?_
  refine plods_bind (plods_read _) fun modulus a => ?_
  refine plods_bind (plods_read _) fun serverKey a => ?_
  refine plods_bind (plods_lift fun _ => id) fun _ a => ?_
  refine plods_get_bind ?_
  refine plods_bind (plods_lift (clears_ofExcept _)) fun response a => ?_
  refine plods_bind (plods_lift (clears_write _ _)) fun _ a => ?_
  exact plods_securityResult

/-- Every security handler but VeNCrypt's only reads. -/
theorem plods_securityHandler {secType : ℕ} {handler : Gen D S Bool}
    (h : securityHandler (base library decoders) secType = some handler)
    (hsettles : secType ≠ AuthTypes.vencrypt.value) (a : Attrs D S) : Plods a (handler.run a) := by
  unfold securityHandler at h
  split_ifs at h
  all_goals
    obtain rfl := Option.some.inj h
  · exact plods_noneHandler
  · exact plods_vncAuthenticationHandler
  · exact plods_diffieHellmanHandler

/-! ## Messages and rectangles -/

theorem clears_encoded (v : Except EncodeError Bytes) : Clears (encoded v : Py (Attrs D S) Bytes) := by
  intro a
  rcases v with e | v
  · cases e <;> exact id
  · exact id

theorem clears_answerFence (flags : ℕ) (payload : Bytes) :
    Clears (answerFence flags payload : Py (Attrs D S) Unit) := by
  unfold answerFence
  by_cases hrequest : flags &&& FenceFlags.request ≠ 0
  · rw [if_pos hrequest]
    -- What is written makes no difference.
    generalize clientFence (flags &&& knownFlags : ℕ) payload = fence
    exact clears_bind (clears_encoded fence) fun _ => clears_write _ _
  · rw [if_neg hrequest]
    exact clears_pure ()

/-- Every message handler only reads. -/
theorem plods_messageHandler {msgid : ℕ} {handler : Gen D S Unit}
    (h : messageHandler (base library decoders) msgid = some handler) (a : Attrs D S) :
    Plods a (handler.run a) := by
  unfold messageHandler at h
  split_ifs at h
  all_goals
    obtain rfl := Option.some.inj h
  · unfold setColourMapEntriesHandler
    refine plods_bind (plods_read 5) fun header a => ?_
    refine plods_bind (plods_requirePayload _) fun _ a => ?_
    refine plods_bind (plods_read _) fun block a => ?_
    exact plods_lift (clears_call _)
  · exact plods_lift (clears_call _)
  · unfold serverCutTextHandler
    refine plods_bind (plods_read 7) fun header a => ?_
    refine plods_bind (plods_requirePayload _) fun _ a => ?_
    refine plods_bind (plods_read _) fun text a => ?_
    exact plods_lift (clears_call _)
  · unfold serverFenceHandler
    refine plods_bind (plods_read 8) fun header a => ?_
    dsimp only
    split_ifs
    · exact plods_lift (clears_answerFence _ _)
    · refine plods_bind (plods_read _) fun payload a => ?_
      exact plods_lift (clears_answerFence _ _)

theorem Quiet.keepsClear {a a' : Attrs D S} (h : Quiet a a') : KeepsClear a a' := by
  obtain ⟨_, _, rfl⟩ := h
  exact id

/-- A painting call of the base class only shows. -/
theorem keepsClear_invoke {a₁ a' : Attrs D S} {method : Callback} (hquiet : Quiet a a₁)
    (hpaints : method.paints = true)
    (hrun : (invoke (baseCallback library) method).run a₁ = .ok () a') : KeepsClear a a' := by
  rw [run_invoke_of_paints hpaints] at hrun
  cases hrun
  exact hquiet.keepsClear

/-- A decoder that paints last and only reads. -/
theorem plods_of_paintsLast {x : GenStep D S Outcome}
    (h : PaintsLast (baseCallback library) a x) (hreads : Reads x) : Plods a x := by
  induction x generalizing a with
  | done a' outcome =>
    rcases h with h | ⟨_, a₁, method, hquiet, hpaints, hrun⟩
    · exact ⟨h.keepsClear, trivial⟩
    · exact ⟨keepsClear_invoke hquiet hpaints hrun, trivial⟩
  | failed a' e =>
    rcases h with h | ⟨a₁, method, hquiet, hpaints, hrun⟩
    · exact ⟨h.keepsClear, trivial⟩
    · rw [run_invoke_of_paints hpaints] at hrun
      exact absurd hrun (by simp)
  | yielded a' y resume ih =>
    exact ⟨h.1.keepsClear, hreads.1, fun answer t _ => ih answer t (h.2 answer t) (hreads.2 answer t)⟩

end

/-- What is buffered makes no difference to a handler that only reads. -/
theorem drive_of_plods {α : Type} {a : Attrs D S} {x : GenStep D S α} (h : Plods a x)
    (waiting waiting' : Bool) : drive waiting x = drive waiting' x := by
  cases x with
  | done t v => rfl
  | failed t e => rfl
  | yielded t y resume =>
    obtain ⟨n, rfl⟩ := h.2.1
    rfl

/-! ## Handler calls -/

/-- The suspended generator only reads. -/
def Expected.Plods (a : Attrs D S) : Expected D S → Prop
  | .pump _ _ resume => ∀ block t, KeepsClear a t → RFBClient.Plods t (resume block t)
  | _ => True

/-- No TLS handshake is pending, and the suspended generator, if there is one, only reads. -/
structure Plodding (c : RFBClient D S) : Prop where
  clear : c.attrs.tlsHandshakePending = false
  plods : ∀ e, c.phase = .expecting e → e.Plods c.attrs

theorem Expected.plods_of_plain {e : Expected D S} (h : e.plain = true) (a : Attrs D S) :
    e.Plods a := by
  cases e with
  | pump task size resume => exact absurd h (by simp [Expected.plain])
  | _ => trivial

theorem plodding_of_plain {c : RFBClient D S} (hclear : c.attrs.tlsHandshakePending = false)
    (h : Plain c) : Plodding c where
  clear := hclear
  plods e hphase := by
    unfold Plain at h
    rw [hphase] at h
    exact Expected.plods_of_plain h c.attrs

section

variable {library : Library}
  {decoders : ℤ → Option (Decoder (D := D) (S := S) (baseCallback library))} {c : RFBClient D S}

theorem plodding_abortConnection {reason : String} (hclear : c.attrs.tlsHandshakePending = false)
    (h : Plain c) :
    Plodding (client ((abortConnection (base library decoders) reason).run c)) := by
  refine plodding_of_plain ?_ (plain_abortConnection h)
  rw [run_abortConnection]
  exact hclear

theorem plodding_doConnection (hclear : c.attrs.tlsHandshakePending = false) :
    Plodding (client ((doConnection (base library decoders)).run c)) := by
  refine plodding_of_plain ?_ (plain_doConnection c)
  rw [run_doConnection]
  split_ifs <;> exact hclear

theorem plodding_finish {task : Task} {v : task.Result} (hclear : c.attrs.tlsHandshakePending = false)
    (h : Plain c) : Plodding (client ((finish (base library decoders) task v).run c)) := by
  refine plodding_of_plain ?_ (plain_finish h)
  cases task with
  | security secType => cases v <;> exact hclear
  | message msgid => exact hclear
  | rectangle rect =>
    have hsettled : ∀ c : RFBClient D S, c.attrs.tlsHandshakePending = false → ∀ changed,
        (client ((settleRectangle (base library decoders) rect changed).run c)).attrs.tlsHandshakePending
          = false := by
      intro c hc changed
      rw [run_settleRectangle]
      refine (plodding_doConnection ?_).clear
      split_ifs <;> exact hc
    obtain ⟨changed, paste⟩ := v
    cases paste with
    | none => exact hsettled c hclear changed
    | some paste =>
      by_cases hlen : paste.1.length = rect.width * rect.height * paste.2.bypp
      · change (client ((finishRectangle _ rect ⟨changed, some (paste.1, paste.2)⟩).run
          c)).attrs.tlsHandshakePending = false
        rw [run_finishRectangle_of_length hlen]
        exact hsettled { c with attrs := { c.attrs with
          log := c.attrs.log ++ [.called (.updateRectangle rect paste.1 paste.2)] } } hclear changed
      · have habort : finish (base library decoders) (.rectangle rect) ⟨changed, some paste⟩ =
            abortConnection (base library decoders) _ := if_pos hlen
        rw [habort]
        exact (plodding_abortConnection hclear h).clear

/-- One step of a generator that only reads. -/
theorem plodding_pump {task : Task} {x : GenStep D S task.Result}
    (hclear : c.attrs.tlsHandshakePending = false) (hplain : Plain c) (h : Plods c.attrs x) :
    Plodding (client ((pump (base library decoders) task x).run c)) := by
  have hpause := drive_honours KeepsClear.refl (!c.packet.isEmpty) h
  rw [run_pump]
  cases hdrive : drive (!c.packet.isEmpty) x with
  | done a v =>
    rw [hdrive] at hpause
    cases hpause with
    | done hdoes _ => exact plodding_finish (hdoes hclear) hplain
  | failed a e =>
    rw [hdrive] at hpause
    cases hpause with
    | failed hdoes _ =>
      simp only
      split_ifs
      · exact plodding_abortConnection (hdoes hclear) hplain
      · exact plodding_of_plain (hdoes hclear) hplain
  | wants a size resume =>
    rw [hdrive] at hpause
    cases hpause with
    | wants hdoes _ hnext =>
      simp only
      split_ifs
      · exact plodding_abortConnection (hdoes hclear) hplain
      · refine ⟨hdoes hclear, ?_⟩
        rintro e ⟨rfl⟩
        exact hnext

theorem plodding_startSecurity {secType : ℕ} (hclear : c.attrs.tlsHandshakePending = false)
    (hplain : Plain c) (hsettles : secType ≠ AuthTypes.vencrypt.value) :
    Plodding (client ((startSecurity (base library decoders) secType).run c)) := by
  rw [run_startSecurity]
  cases hhandler : securityHandler (base library decoders) secType with
  | none => exact plodding_abortConnection hclear hplain
  | some handler =>
    exact plodding_pump hclear hplain (plods_securityHandler hhandler hsettles c.attrs)

/-- No decoder looks at what is buffered. -/
def OnlyReads (decoders : ℤ → Option (Decoder (D := D) (S := S) (baseCallback library))) : Prop :=
  ∀ encoding decoder, decoders encoding = some decoder →
    ∀ rect pixelFormat a, Reads ((decoder.decode rect pixelFormat).run a)

theorem plods_decode (hreads : OnlyReads decoders) {encoding : ℤ}
    {decoder : Decoder (baseCallback library)} (h : decoders encoding = some decoder) (rect : Rect)
    (pixelFormat : PixelFormat) (a : Attrs D S) : Plods a ((decoder.decode rect pixelFormat).run a) :=
  plods_of_paintsLast (decoder.paintsLast rect pixelFormat a)
    (hreads encoding decoder h rect pixelFormat a)

/-- A handler call does not settle on VeNCrypt. -/
def Expected.Avoids (e : Expected D S) (block : Block e.len) : Prop :=
  ∀ secType, e.chooses block = some secType → secType ≠ AuthTypes.vencrypt.value

/-- A turn of the loop settles on no VeNCrypt. -/
def AvoidsVeNCrypt (c : RFBClient D S) : Prop :=
  ∀ secType, ready c = true → chosenType c = some secType → secType ≠ AuthTypes.vencrypt.value

theorem AvoidsVeNCrypt.avoids (h : AvoidsVeNCrypt c) (hready : ready c = true) {e : Expected D S}
    (hphase : c.phase = .expecting e) (hlen : e.len ≤ c.packet.length) :
    e.Avoids (Block.ofPrefix e.len c.packet hlen) := by
  intro secType hchooses
  refine h secType hready ?_
  unfold chosenType
  rw [hphase]
  cases e with
  | auth => exact hchooses
  | securityTypes count => exact hchooses
  | _ => exact absurd hchooses (by simp [Expected.chooses])

theorem plodding_handle (hreads : OnlyReads decoders) {e : Expected D S} {block : Block e.len}
    (hphase : c.phase = .expecting e) (h : Plodding c) (havoids : e.Avoids block) :
    Plodding (client ((handle (base library decoders) e block).run c)) := by
  have hclear := h.clear
  have hplain : e.plain = true → Plain c := by
    intro he
    unfold Plain
    rw [hphase]
    exact he
  cases e with
  | auth =>
    have hp := hplain rfl
    simp only [handle, handleAuth]
    split_ifs
    · exact plodding_of_plain hclear rfl
    · exact plodding_startSecurity hclear hp (havoids _ rfl)
    · exact plodding_abortConnection hclear hp
  | numberSecurityTypes =>
    simp only [handle, handleNumberSecurityTypes]
    split_ifs
    · exact plodding_of_plain hclear rfl
    · exact plodding_of_plain hclear rfl
  | securityTypes count =>
    have hp := hplain rfl
    simp only [handle, handleSecurityTypes]
    split
    next secType hchosen =>
      exact plodding_startSecurity
        (c := { c with attrs := { c.attrs with
          log := c.attrs.log ++ [.wrote .securityType [UInt8.ofNat secType]] } })
        hclear hp (havoids secType hchosen)
    · exact plodding_abortConnection hclear hp
  | connFailed =>
    have hp := hplain rfl
    simp only [handle, handleConnFailed]
    split_ifs
    · exact plodding_abortConnection hclear hp
    · exact plodding_of_plain hclear rfl
  | connMessage waitfor => exact plodding_abortConnection hclear (hplain rfl)
  | serverInit => exact plodding_of_plain hclear rfl
  | serverName namelen => exact plodding_of_plain hclear rfl
  | connection =>
    have hp := hplain rfl
    simp only [handle, handleConnection]
    split_ifs
    · exact plodding_of_plain hclear rfl
    · split
      · exact plodding_abortConnection hclear hp
      next handler hhandler =>
        exact plodding_pump hclear hp (plods_messageHandler hhandler c.attrs)
  | framebufferUpdate =>
    simp only [handle]
    rw [run_handleFramebufferUpdate]
    exact plodding_doConnection hclear
  -- The decoders of the table only ask for bytes.
  | rectangle =>
    simp only [handle]
    rw [run_handleRectangle]
    split_ifs
    · rw [run_pumpRectangle]
      cases hdecoder : (base library decoders).decoders (i32At block.bytes 8) with
      | none => exact plodding_abortConnection hclear (hplain rfl)
      | some decoder => exact plodding_pump hclear (hplain rfl) (plods_decode hreads hdecoder _ _ _)
    · exact plodding_doConnection hclear
  -- A parked generator is resumed with its bytes: what it is parked on behind them only asks for bytes.
  | pump task size resume =>
    rw [run_handle_pump]
    exact plodding_pump (c := { c with phase := .expecting (.ended task size.toNat) }) hclear rfl
      (h.plods _ hphase block c.attrs (KeepsClear.refl _))
  | ended task size =>
    have hp := hplain rfl
    cases task with
    | security secType => exact plodding_of_plain (c := c) hclear hp
    | message msgid => exact plodding_of_plain hclear rfl
    | rectangle rect => exact plodding_of_plain (c := c) hclear hp

/-- A turn of the loop that settles on no VeNCrypt. -/
theorem plodding_turn (hreads : OnlyReads decoders) (h : Plodding c) (hready : ready c = true)
    (havoids : AvoidsVeNCrypt c) : Plodding (client ((turn (base library decoders)).run c)) := by
  obtain ⟨e, hphase, hlen, -⟩ := exists_of_ready hready
  rw [run_turn _ hphase hlen]
  refine plodding_handle hreads hphase ?_ (havoids.avoids hready hphase hlen)
  exact ⟨h.clear, h.plods⟩

end

end RFBClient

end VncDoTool
