import VncDoTool.Client.Effects

/-!
# The gate of the session

How a client gets from the security exchange to ClientInit.

* `RFBClient.Shut`: a security handler's generator that cannot proceed before it meets an escape;
  `RFBClient.shut_securityHandler`: the escape of every handler is the SecurityResult, and only None
  before 3.8 does without one.
* `RFBClient.Accepts`: the handler call that finds the security exchange to have succeeded.
* `RFBClient.attempts_turn`: outside the session a handler call stays there, unless it is such a
  call: then it writes ClientInit and enters.
-/

namespace VncDoTool

namespace RFBClient

variable {D S : Type}

/-- ClientInit, and what only a client inside the session does. -/
def Event.proceeds : Event → Bool
  | .wrote .clientInit _ => true
  | .called .vncConnectionMade => true
  | e => e.updates

theorem not_proceeds_of_negotiates {e : Event} (h : e.negotiates = true) : e.proceeds = false := by
  cases e with
  | wrote what data => cases what <;> first | rfl | exact absurd h (by simp [Event.negotiates])
  | called callback =>
    cases callback <;> first | rfl | exact absurd h (by simp [Event.negotiates])
  | loseConnection => rfl
  | startTLS options => rfl

theorem proceeds_of_initialises {e : Event} (h : e.initialises = true) : e.proceeds = true := by
  cases e with
  | wrote what data => cases what <;> first | rfl | exact absurd h (by simp [Event.initialises])
  | _ => exact absurd h (by simp [Event.initialises])

/-! ## Generators that do not proceed -/

/-- The generator fails, refuses, or goes on, but proceeds only by way of an `escape`. -/
def Shut (escape : GenStep D S Bool → Prop) : GenStep D S Bool → Prop
  | .done _ proceed => proceed = false
  | .failed _ _ => True
  | .yielded a y resume => escape (.yielded a y resume) ∨ ∀ r t, Shut escape (resume r t)

/-- The generator waits for the SecurityResult. -/
def AwaitsResult (env : Env D S) (x : GenStep D S Bool) : Prop := ∃ a, x = (securityResult env).run a

section

variable {escape : GenStep D S Bool → Prop} {env : Env D S}

/-- What comes first makes no difference, if what comes last is shut. -/
theorem shut_bind {α : Type} {m : Gen D S α} {f : α → Gen D S Bool} (a : Attrs D S)
    (hf : ∀ v t, Shut escape ((f v).run t)) : Shut escape ((m >>= f).run a) := by
  rw [Coroutine.run_bind]
  induction m.run a with
  | done t v => exact hf v t
  | failed t e => trivial
  | yielded t y resume ih => exact .inr fun r s => ih r s

/-- Refusing is shut for good. -/
theorem shut_refuse (reason : String) (a : Attrs D S) : Shut escape ((refuse env reason).run a) := by
  unfold refuse
  refine shut_bind a ?_
  intro _ t
  refine shut_bind t ?_
  intro _ t
  exact rfl

/-- So is every SecurityResult but 0. -/
theorem shut_judge {result : ℕ} (h : result ≠ 0) (a : Attrs D S) :
    Shut escape ((judge env result).run a) := by
  unfold judge
  rw [if_neg h]
  split_ifs
  · exact shut_refuse _ a
  · exact shut_refuse _ a
  · refine shut_bind a ?_
    intro _ t
    exact rfl

theorem shut_securityResult (a : Attrs D S) :
    Shut (AwaitsResult env) ((securityResult env).run a) := .inl ⟨a, rfl⟩

theorem shut_vncAuthenticationHandler (a : Attrs D S) :
    Shut (AwaitsResult env) ((vncAuthenticationHandler env).run a) :=
  shut_bind a fun _ t => shut_securityResult t

theorem shut_diffieHellmanHandler (a : Attrs D S) :
    Shut (AwaitsResult env) ((diffieHellmanHandler env).run a) := by
  unfold diffieHellmanHandler
  refine shut_bind a fun header t => ?_
  refine shut_bind t fun modulus t => ?_
  refine shut_bind t fun serverKey t => ?_
  refine shut_bind t fun _ t => ?_
  refine shut_bind t fun _ t => ?_
  refine shut_bind t fun response t => ?_
  refine shut_bind t fun _ t => ?_
  exact shut_securityResult t

theorem shut_vencryptHandler (a : Attrs D S) :
    Shut (AwaitsResult env) ((vencryptHandler env).run a) := by
  unfold vencryptHandler
  refine shut_bind a fun _ t => ?_
  refine shut_bind t fun chosen t => ?_
  refine shut_bind t fun _ t => ?_
  refine shut_bind t fun _ t => ?_
  exact shut_securityResult t

/-- Before 3.8 no SecurityResult follows None. -/
theorem run_noneHandler_of_lt {a : Attrs D S} (h : ¬Ver.le (3, 8) a.version) :
    (noneHandler env).run a = .done a true := by
  unfold noneHandler
  rw [Coroutine.run_bind, Coroutine.run_get, Coroutine.Step.bind_done, if_pos h]
  rfl

theorem shut_noneHandler {a : Attrs D S} (h : Ver.le (3, 8) a.version) :
    Shut (AwaitsResult env) ((noneHandler env).run a) := by
  unfold noneHandler
  rw [Coroutine.run_bind, Coroutine.run_get, Coroutine.Step.bind_done, if_neg (not_not_intro h)]
  exact shut_securityResult a

/-- Every handler waits for the SecurityResult, but None before 3.8. -/
theorem shut_securityHandler {secType : ℕ} {handler : Gen D S Bool}
    (h : securityHandler env secType = some handler) (a : Attrs D S) :
    Shut (AwaitsResult env) (handler.run a) ∨
      secType = AuthTypes.none.value ∧ ¬Ver.le (3, 8) a.version ∧ handler.run a = .done a true := by
  unfold securityHandler at h
  split_ifs at h with hnone
  · obtain rfl := Option.some.inj h
    by_cases hversion : Ver.le (3, 8) a.version
    · exact .inl (shut_noneHandler hversion)
    · exact .inr ⟨hnone, hversion, run_noneHandler_of_lt hversion⟩
  all_goals
    obtain rfl := Option.some.inj h
  · exact .inl (shut_vncAuthenticationHandler a)
  · exact .inl (shut_vencryptHandler a)
  · exact .inl (shut_diffieHellmanHandler a)

/-- The pump meets no escape when it answers the questions about `_packet`. -/
theorem shut_drive (hescape : ∀ a resume, ¬escape (.yielded a .packet resume)) (waiting : Bool)
    {x : GenStep D S Bool} (h : Shut escape x) :
    match drive waiting x with
    | .done _ proceed => proceed = false
    | .failed _ _ => True
    | .wants a size resume => Shut escape (.yielded a (.bytes size) resume) := by
  induction x with
  | done a proceed => exact h
  | failed a e => trivial
  | yielded a y resume ih =>
    cases y with
    | bytes size => exact h
    | packet =>
      rcases h with h | h
      · exact absurd h (hescape a resume)
      · exact ih waiting a (h waiting a)

theorem not_awaitsResult_packet (a : Attrs D S)
    (resume : Bool → Attrs D S → GenStep D S Bool) :
    ¬AwaitsResult env (.yielded a .packet resume) := by
  rintro ⟨a', h⟩
  have hrequest := congrArg Coroutine.Step.request h
  exact absurd hrequest (by simp [securityResult])

end

/-! ## Phases -/

/-- The task belongs to the session. -/
def Task.inSession : Task → Bool
  | .security _ => false
  | .message _ | .rectangle _ => true

/-- The parked handler belongs to the session: ClientInit is written. -/
def Expected.admitted : Expected D S → Bool
  | .serverInit | .serverName _ | .connection | .framebufferUpdate | .rectangle => true
  | .pump task _ _ | .ended task _ => task.inSession
  | _ => false

/-- The client is in the session. -/
def admitted (c : RFBClient D S) : Bool :=
  match c.phase with
  | .initial => false
  | .expecting e => e.admitted

/-- The parked handler does not belong to the session, and the generator of a security handler
proceeds only by way of its SecurityResult. -/
def Expected.Outside (env : Env D S) : Expected D S → Prop
  | .pump (.security secType) size resume =>
    secType ∈ supportedAuths ∧ ∃ a, Shut (AwaitsResult env) (.yielded a (.bytes size) resume)
  | e => e.admitted = false

/-- The client is not in the session, and gets there only by way of a SecurityResult. -/
def Outside (env : Env D S) (c : RFBClient D S) : Prop :=
  match c.phase with
  | .initial => True
  | .expecting e => e.Outside env

/-- The security exchange has failed: the parked generator refuses, or is finished. -/
def Expected.Doomed : Expected D S → Prop
  | .pump (.security secType) size resume =>
    secType ∈ supportedAuths ∧ ∃ a, Shut (fun _ => False) (.yielded a (.bytes size) resume)
  | .ended (.security _) _ => True
  | _ => False

def Doomed (c : RFBClient D S) : Prop :=
  match c.phase with
  | .initial => False
  | .expecting e => e.Doomed

/-- The handler that waits for the SecurityResult of a security type. -/
def awaitingResult (env : Env D S) (secType : ℕ) : Expected D S :=
  .pump (.security secType) 4 fun block t => (judge env (u32At block.bytes 0)).run t

/-- The security type the next handler call settles on: what the server dictates, or the largest
supported number it lists. -/
def chosenType (c : RFBClient D S) : Option ℕ :=
  match c.phase with
  | .expecting .auth => some (u32At (c.packet.take 4) 0)
  | .expecting (.securityTypes count) =>
    (((c.packet.take count).map UInt8.toNat).filter (· ∈ supportedAuths)).max?
  | _ => none

/-- The next handler call finds the security exchange to have succeeded. -/
inductive Accepts (env : Env D S) (c : RFBClient D S) : Prop
  /-- It settles on None, under a version without a SecurityResult for it. -/
  | unauthenticated (hchosen : chosenType c = some AuthTypes.none.value)
      (hversion : ¬Ver.le (3, 8) c.attrs.version)
  /-- It reads the SecurityResult, and it is 0. -/
  | succeeded (secType : ℕ) (hphase : c.phase = .expecting (awaitingResult env secType))
      (hsupported : secType ∈ supportedAuths) (hresult : u32At (c.packet.take 4) 0 = 0)

/-! ## Handler calls before the session -/

section

variable {env : Env D S} {library : Library}
  {decoders : ℤ → Option (Decoder (D := D) (S := S) (baseCallback library))}

/-- `c'` shows nothing of a session that `c` did not, and parks what `c` did or a generator that is
shut. -/
structure StaysOut (escape : GenStep D S Bool → Prop) (c c' : RFBClient D S) : Prop where
  shows : ∃ es, c'.attrs.log = c.attrs.log ++ es ∧ ∀ e ∈ es, e.proceeds = false
  parks : c'.phase = c.phase ∨ ∃ secType ∈ supportedAuths, ∃ a size resume,
    c'.phase = .expecting (.pump (.security secType) size resume) ∧
      Shut escape (.yielded a (.bytes size) resume)

theorem StaysOut.of_eq {escape : GenStep D S Bool → Prop} {c c' : RFBClient D S}
    (hlog : c'.attrs.log = c.attrs.log) (hphase : c'.phase = c.phase) : StaysOut escape c c' where
  shows := ⟨[], by rw [hlog, List.append_nil], List.forall_mem_nil _⟩
  parks := .inl hphase

/-- What was shown before is shown before. -/
theorem StaysOut.after {escape : GenStep D S Bool → Prop} {c₀ c c' : RFBClient D S} {es : List Event}
    (h : StaysOut escape c c') (hlog : c.attrs.log = c₀.attrs.log ++ es)
    (hes : ∀ e ∈ es, e.proceeds = false) (hphase : c.phase = c₀.phase) : StaysOut escape c₀ c' where
  shows := by
    obtain ⟨es', hlog', hes'⟩ := h.shows
    refine ⟨es ++ es', by rw [hlog', hlog, List.append_assoc], ?_⟩
    intro e he
    rcases List.mem_append.mp he with he | he
    · exact hes e he
    · exact hes' e he
  parks := hphase ▸ h.parks

theorem staysOut_abortConnection (escape : GenStep D S Bool → Prop) (reason : String)
    (c : RFBClient D S) :
    StaysOut escape c (client ((abortConnection (base library decoders) reason).run c)) := by
  rw [run_abortConnection]
  refine ⟨⟨_, rfl, ?_⟩, .inl rfl⟩
  intro e he
  rcases List.mem_cons.mp he with rfl | he
  · rfl
  · rw [List.mem_singleton.mp he]
    rfl

/-- One step of a generator that is shut. -/
theorem staysOut_pump {escape : GenStep D S Bool → Prop}
    (hescape : ∀ a resume, ¬escape (.yielded a .packet resume)) {secType : ℕ} {x : GenStep D S Bool}
    {c : RFBClient D S} (hsupported : secType ∈ supportedAuths) (hshut : Shut escape x)
    (hhonours : x.Honours (negotiation mayRaise) anything c.attrs) :
    StaysOut escape c
      (client ((pump (base library decoders) (.security secType) x).run c)) := by
  have hpause := drive_honours Meanwhile.refl (!c.packet.isEmpty) hhonours
  have hdriven := shut_drive hescape (!c.packet.isEmpty) hshut
  -- Whatever the generator did so far is of the negotiation.
  have hshows : ∀ a, Handles Event.negotiates c.attrs a →
      ∃ es, a.log = c.attrs.log ++ es ∧ ∀ e ∈ es, e.proceeds = false := by
    rintro a ⟨_, _, _, _, _, es, rfl, hes⟩
    exact ⟨es, rfl, fun e he => not_proceeds_of_negotiates (hes e he)⟩
  rw [run_pump]
  cases hdrive : drive (!c.packet.isEmpty) x with
  | done a proceed =>
    rw [hdrive] at hpause hdriven
    cases hpause with
    | done hdoes _ =>
      obtain rfl : proceed = false := hdriven
      exact ⟨hshows a hdoes, .inl rfl⟩
  | failed a e =>
    rw [hdrive] at hpause
    cases hpause with
    | failed hdoes _ =>
      obtain ⟨es, hlog, hes⟩ := hshows a hdoes
      simp only
      split_ifs
      · exact (staysOut_abortConnection escape _ { c with attrs := a }).after hlog hes rfl
      · exact ⟨⟨es, hlog, hes⟩, .inl rfl⟩
  | wants a size resume =>
    rw [hdrive] at hpause hdriven
    cases hpause with
    | wants hdoes _ _ =>
      obtain ⟨es, hlog, hes⟩ := hshows a hdoes
      simp only
      split_ifs
      · exact (staysOut_abortConnection escape _ { c with attrs := a }).after hlog hes rfl
      · exact ⟨⟨es, hlog, hes⟩, .inr ⟨secType, hsupported, a, size, resume, rfl, hdriven⟩⟩

theorem StaysOut.outside {c c' : RFBClient D S} (h : StaysOut (AwaitsResult env) c c')
    (hc : Outside env c) : Outside env c' := by
  unfold Outside
  rcases h.parks with hphase | ⟨secType, hsupported, a, size, resume, hphase, hshut⟩
  · rw [hphase]
    exact hc
  · rw [hphase]
    exact ⟨hsupported, a, hshut⟩

theorem StaysOut.doomed {c c' : RFBClient D S} (h : StaysOut (fun _ => False) c c') (hc : Doomed c) :
    Doomed c' := by
  unfold Doomed
  rcases h.parks with hphase | ⟨secType, hsupported, a, size, resume, hphase, hshut⟩
  · rw [hphase]
    exact hc
  · rw [hphase]
    exact ⟨hsupported, a, hshut⟩

/-- The handler call leads into the session: ClientInit is the last thing it shows. -/
structure Enters (c : RFBClient D S) (d : Delivery D S) : Prop where
  returns : d = .ok () (client d)
  shows : ∃ es, (client d).attrs.log = c.attrs.log ++ es ++
    [.wrote .clientInit [if c.attrs.factory.shared then 1 else 0]] ∧ ∀ e ∈ es, e.proceeds = false
  phase : (client d).phase = .expecting .serverInit

theorem enters_doClientInitialization (c : RFBClient D S) :
    Enters c (doClientInitialization.run c) := by
  rw [run_doClientInitialization]
  refine ⟨rfl, ⟨[], ?_, List.forall_mem_nil _⟩, rfl⟩
  rw [List.append_nil]
  rfl

/-- What was shown before is shown before. -/
theorem Enters.after {c₀ c : RFBClient D S} {d : Delivery D S} {es : List Event} (h : Enters c d)
    (hlog : c.attrs.log = c₀.attrs.log ++ es) (hes : ∀ e ∈ es, e.proceeds = false)
    (hfactory : c.attrs.factory = c₀.attrs.factory) : Enters c₀ d where
  returns := h.returns
  shows := by
    obtain ⟨es', hlog', hes'⟩ := h.shows
    refine ⟨es ++ es', ?_, ?_⟩
    · rw [hlog', hlog, hfactory]
      simp only [List.append_assoc]
    intro e he
    rcases List.mem_append.mp he with he | he
    · exact hes e he
    · exact hes' e he
  phase := h.phase

/-- The same, where nothing was shown before. -/
theorem Enters.after_silent {c₀ c : RFBClient D S} {d : Delivery D S} (h : Enters c d)
    (hlog : c.attrs.log = c₀.attrs.log) (hfactory : c.attrs.factory = c₀.attrs.factory) :
    Enters c₀ d :=
  h.after (by rw [hlog, List.append_nil]) (List.forall_mem_nil _) hfactory

/-- A handler call outside the session: it stays there, or finds the security exchange to have
succeeded. -/
inductive Attempts (env : Env D S) (accepts : Prop) (c : RFBClient D S) (d : Delivery D S) : Prop
  | stays (es : List Event) (hlog : (client d).attrs.log = c.attrs.log ++ es)
      (hes : ∀ e ∈ es, e.proceeds = false) (hout : Outside env (client d))
  | enters (haccepts : accepts) (h : Enters c d)

namespace Attempts

variable {accepts : Prop} {c : RFBClient D S} {d : Delivery D S}

/-- A call that shows nothing. -/
theorem silent (hlog : (client d).attrs.log = c.attrs.log) (hout : Outside env (client d)) :
    Attempts env accepts c d :=
  .stays [] (by rw [hlog, List.append_nil]) (List.forall_mem_nil _) hout

theorem of_staysOut (h : StaysOut (AwaitsResult env) c (client d)) (hout : Outside env c) :
    Attempts env accepts c d := by
  obtain ⟨es, hlog, hes⟩ := h.shows
  exact .stays es hlog hes (h.outside hout)

/-- What was shown before is shown before. -/
theorem after {c₀ : RFBClient D S} {es : List Event} (h : Attempts env accepts c d)
    (hlog : c.attrs.log = c₀.attrs.log ++ es) (hes : ∀ e ∈ es, e.proceeds = false)
    (hfactory : c.attrs.factory = c₀.attrs.factory) : Attempts env accepts c₀ d := by
  cases h with
  | stays es' hlog' hes' hout =>
    refine .stays (es ++ es') (by rw [hlog', hlog, List.append_assoc]) ?_ hout
    intro e he
    rcases List.mem_append.mp he with he | he
    · exact hes e he
    · exact hes' e he
  | enters haccepts h => exact .enters haccepts (h.after hlog hes hfactory)

/-- The same, where nothing was shown before. -/
theorem after_silent {c₀ : RFBClient D S} (h : Attempts env accepts c d)
    (hlog : c.attrs.log = c₀.attrs.log) (hfactory : c.attrs.factory = c₀.attrs.factory) :
    Attempts env accepts c₀ d :=
  h.after (by rw [hlog, List.append_nil]) (List.forall_mem_nil _) hfactory

theorem imp {accepts' : Prop} (h : Attempts env accepts c d) (himp : accepts → accepts') :
    Attempts env accepts' c d := by
  cases h with
  | stays es hlog hes hout => exact .stays es hlog hes hout
  | enters haccepts h => exact .enters (himp haccepts) h

end Attempts

theorem attempts_abortConnection {accepts : Prop} (reason : String) {c : RFBClient D S}
    (hout : Outside (base library decoders) c) :
    Attempts (base library decoders) accepts c
      ((abortConnection (base library decoders) reason).run c) :=
  .of_staysOut (staysOut_abortConnection _ reason c) hout

theorem attempts_startSecurity {secType : ℕ} (hsupported : secType ∈ supportedAuths)
    {c : RFBClient D S} (hout : Outside (base library decoders) c) :
    Attempts (base library decoders)
      (secType = AuthTypes.none.value ∧ ¬Ver.le (3, 8) c.attrs.version) c
      ((startSecurity (base library decoders) secType).run c) := by
  rw [run_startSecurity]
  cases hhandler : securityHandler (base library decoders) secType with
  | none => exact attempts_abortConnection _ hout
  | some handler =>
    rcases shut_securityHandler hhandler c.attrs with hshut | ⟨hnone, hversion, hrun⟩
    · exact .of_staysOut (staysOut_pump not_awaitsResult_packet hsupported hshut
        (honours_securityHandler hhandler c.attrs)) hout
    · refine .enters ⟨hnone, hversion⟩ ?_
      simp only [run_pump, hrun, drive, finish, if_true]
      exact enters_doClientInitialization c

/-- What the parked handler must find for the security exchange to have succeeded. -/
def Expected.Finds (env : Env D S) (version : Ver) : (e : Expected D S) → Block e.len → Prop
  | .auth, block => u32At block.bytes 0 = AuthTypes.none.value ∧ ¬Ver.le (3, 8) version
  | .securityTypes _, block =>
    ((block.bytes.map UInt8.toNat).filter (· ∈ supportedAuths)).max? = some AuthTypes.none.value ∧
      ¬Ver.le (3, 8) version
  | .pump task size resume, block =>
    ∃ secType ∈ supportedAuths, Expected.pump task size resume = awaitingResult env secType ∧
      u32At block.bytes 0 = 0
  | _, _ => False

/-- The pump of a security handler that is suspended. -/
theorem attempts_handle_pump {secType : ℕ} {size : ℤ}
    {resume : Block size.toNat → Attrs D S → GenStep D S Bool} {block : Block size.toNat}
    {c : RFBClient D S} (hout : (Expected.pump (.security secType) size resume).Outside
      (base library decoders))
    (hhonours : (resume block c.attrs).Honours (negotiation mayRaise) anything c.attrs) :
    Attempts (base library decoders)
      ((Expected.pump (.security secType) size resume).Finds (base library decoders)
        c.attrs.version block) c
      ((handle (base library decoders) (.pump (.security secType) size resume) block).run c) := by
  obtain ⟨hsupported, a, hshut⟩ := hout
  have hended : Outside (base library decoders)
      { c with phase := .expecting (.ended (.security secType) size.toNat) } := rfl
  -- A step that is shut stays outside.
  have hstays : Shut (AwaitsResult (base library decoders)) (resume block c.attrs) →
      Attempts (base library decoders)
        ((Expected.pump (.security secType) size resume).Finds (base library decoders)
          c.attrs.version block) c
        ((handle (base library decoders) (.pump (.security secType) size resume) block).run c) := by
    intro h
    rw [run_handle_pump]
    refine Attempts.after_silent (.of_staysOut ?_ hended) rfl rfl
    exact staysOut_pump not_awaitsResult_packet hsupported h hhonours
  rcases hshut with ⟨a', hresult⟩ | hnext
  · -- The SecurityResult is here.
    obtain ⟨-, hsize, hresume⟩ := Coroutine.Step.yielded.inj hresult
    obtain rfl : size = 4 := Request.bytes.inj hsize
    obtain rfl : resume = fun block t => (judge (base library decoders) (u32At block.bytes 0)).run t :=
      eq_of_heq hresume
    by_cases hzero : u32At block.bytes 0 = 0
    · refine .enters ⟨secType, hsupported, rfl, hzero⟩ ?_
      rw [run_handle_pump]
      have hjudge : judge (base library decoders) (u32At block.bytes 0) = pure true := if_pos hzero
      simp only [run_pump, hjudge, Coroutine.run_pure, drive, finish, if_true]
      exact (enters_doClientInitialization _).after_silent rfl rfl
    · exact hstays (shut_judge hzero c.attrs)
  · exact hstays (hnext block c.attrs)

/-- A handler call outside the session. -/
theorem attempts_handle {e : Expected D S} {block : Block e.len} (c : RFBClient D S)
    (hphase : c.phase = .expecting e) (hsound : e.Sound (baseCallback library) c.attrs)
    (hout : e.Outside (base library decoders)) :
    Attempts (base library decoders) (e.Finds (base library decoders) c.attrs.version block) c
      ((handle (base library decoders) e block).run c) := by
  have hc : Outside (base library decoders) c := by
    unfold Outside
    rw [hphase]
    exact hout
  cases e with
  | auth =>
    simp only [handle, handleAuth]
    split_ifs with hinvalid hsome
    · exact .silent rfl rfl
    · exact attempts_startSecurity ((securityHandler_isSome_iff _ _).mp hsome) hc
    · exact attempts_abortConnection _ hc
  | numberSecurityTypes =>
    simp only [handle, handleNumberSecurityTypes]
    split_ifs <;> exact .silent rfl rfl
  | securityTypes count =>
    simp only [handle, handleSecurityTypes]
    split
    next secType hmax =>
      have hsupported : secType ∈ supportedAuths := by
        have hmem := List.max?_mem hmax
        simpa using (List.mem_filter.mp hmem).2
      -- The choice is written first, and a write admits nobody.
      have hstart : Attempts (base library decoders) _ { c with attrs := { c.attrs with
          log := c.attrs.log ++ [.wrote .securityType [UInt8.ofNat secType]] } } _ :=
        attempts_startSecurity hsupported hc
      refine (hstart.after rfl (List.forall_mem_singleton.2 rfl) rfl).imp ?_
      rintro ⟨rfl, hversion⟩
      exact ⟨hmax, hversion⟩
    · exact attempts_abortConnection _ hc
  | connFailed =>
    simp only [handle, handleConnFailed]
    split_ifs
    · exact attempts_abortConnection _ hc
    · exact .silent rfl rfl
  | connMessage waitfor => exact attempts_abortConnection _ hc
  | pump task size resume =>
    cases task with
    | security secType => exact attempts_handle_pump hout (hsound.2.2 block c.attrs (Meanwhile.refl _))
    | message msgid => exact absurd hout (by simp [Expected.Outside, Expected.admitted, Task.inSession])
    | rectangle rect => exact absurd hout (by simp [Expected.Outside, Expected.admitted, Task.inSession])
  | ended task size =>
    cases task with
    | security secType => exact .silent rfl hc
    | message msgid => exact absurd hout (by simp [Expected.Outside, Expected.admitted, Task.inSession])
    | rectangle rect => exact absurd hout (by simp [Expected.Outside, Expected.admitted, Task.inSession])
  | _ => exact absurd hout (by simp [Expected.Outside, Expected.admitted])

/-- A turn of the loop outside the session. -/
theorem attempts_turn {c : RFBClient D S} (hsound : Sound (baseCallback library) c)
    (hready : ready c = true) (hout : Outside (base library decoders) c) :
    Attempts (base library decoders) (Accepts (base library decoders) c) c
      ((turn (base library decoders)).run c) := by
  obtain ⟨e, hphase, hlen, hlive⟩ := exists_of_ready hready
  rw [run_turn _ hphase hlen]
  unfold Sound at hsound
  unfold Outside at hout
  rw [hphase] at hsound hout
  -- The call is on the client whose buffer lost the block.
  have hhandle : Attempts (base library decoders)
      (e.Finds (base library decoders) c.attrs.version (Block.ofPrefix e.len c.packet hlen))
      { c with packet := c.packet.drop e.len }
      ((handle (base library decoders) e (Block.ofPrefix e.len c.packet hlen)).run
        { c with packet := c.packet.drop e.len }) :=
    attempts_handle { c with packet := c.packet.drop e.len } hphase hsound hout
  refine Attempts.imp (hhandle.after_silent rfl rfl) ?_
  intro hfinds
  cases e with
  | auth =>
    obtain ⟨hnone, hversion⟩ := hfinds
    refine .unauthenticated ?_ hversion
    unfold chosenType
    rw [hphase]
    exact congrArg some hnone
  | securityTypes count =>
    obtain ⟨hmax, hversion⟩ := hfinds
    refine .unauthenticated ?_ hversion
    unfold chosenType
    rw [hphase]
    exact hmax
  | pump task size resume =>
    obtain ⟨secType, hsupported, heq, hresult⟩ := hfinds
    refine .succeeded secType (by rw [hphase, heq]) hsupported ?_
    have hlen4 : (Expected.pump task size resume).len = 4 := by rw [heq]; rfl
    rw [Block.bytes_ofPrefix, hlen4] at hresult
    exact hresult
  | _ => exact absurd hfinds (by simp [Expected.Finds])

end

end RFBClient

end VncDoTool
