import VncDoTool.Client.Effects

/-!
# Declared lengths

What the client does about the lengths a server declares.

* `RFBClient.Declares`: a handler call reads a declared length; `RFBClient.Unchecked`: one that
  nothing compares with the bound before it is waited for, or that is compared where no abort
  follows.
* `RFBClient.Bounded`: outside the rectangles of an update the parked handler waits for no more than
  a message may hold.
* `RFBClient.bounded_iff`: in a run that declares no more than that where nothing is checked, every
  point is bounded, and a handler call keeps to the bound exactly if it declares no more there.
-/

namespace VncDoTool

namespace RFBClient

variable {D S : Type}

/-- `_expected_len`. -/
def expectedLen (c : RFBClient D S) : ℕ :=
  match c.phase with
  | .initial => 12
  | .expecting e => e.len

theorem expectedLen_of_phase {c : RFBClient D S} {e : Expected D S} (hphase : c.phase = .expecting e) :
    expectedLen c = e.len := by
  unfold expectedLen
  rw [hphase]

/-- A rectangle of a FramebufferUpdate is being decoded. -/
def Expected.decodes : Expected D S → Bool
  | .pump (.rectangle _) _ _ | .ended (.rectangle _) _ => true
  | _ => false

def decodes (c : RFBClient D S) : Bool :=
  match c.phase with
  | .initial => false
  | .expecting e => e.decodes

/-- Outside the rectangles of an update the client waits for no more than a message may hold. -/
def Bounded (c : RFBClient D S) : Prop := decodes c = false → expectedLen c ≤ maxMessagePayload

/-- The generator of a security handler waits for the length of the reason that 3.8 gives for a
failure. -/
def AwaitsReason (env : Env D S) (x : GenStep D S Bool) : Prop :=
  ∃ reason a, Ver.le (3, 8) a.version ∧ x = (refuse env reason).run a

/-- A length is read that nothing compares with the bound before the handler waits for that many
bytes, or where going over it does not abort the connection. -/
inductive Unchecked (env : Env D S) : (e : Expected D S) → Block e.len → ℕ → Prop
  /-- The length of the server's name. -/
  | name (block : Block 24) : Unchecked env .serverInit block (u32At block.bytes 20)
  /-- The length of the reason for a failed authentication: `_SECURITY_ERRORS` does not list the
  `DecodeError` that `requirePayload` raises. -/
  | reason (secType : ℕ) (a : Attrs D S) (resume : Block 4 → Attrs D S → GenStep D S Bool)
      (h : AwaitsReason env (.yielded a (.bytes 4) resume)) (block : Block 4) :
      Unchecked env (.pump (.security secType) 4 resume) block (u32At block.bytes 0)

/-- A handler call reads a length the server declares. -/
inductive Declares (env : Env D S) : (e : Expected D S) → Block e.len → ℕ → Prop
  | unchecked {e : Expected D S} {block : Block e.len} {n : ℕ} (h : Unchecked env e block n) :
      Declares env e block n
  | numberSecurityTypes (block : Block 1) :
      Declares env .numberSecurityTypes block (byteAt block.bytes 0)
  /-- The length of the reason for a refused connection. -/
  | connFailed (block : Block 4) : Declares env .connFailed block (u32At block.bytes 0)
  /-- The length of each of the two numbers of a Diffie-Hellman exchange. -/
  | keyLen (secType : ℕ) (a a' : Attrs D S) (resume : Block 4 → Attrs D S → GenStep D S Bool)
      (h : .yielded a (.bytes 4) resume = (diffieHellmanHandler env).run a') (block : Block 4) :
      Declares env (.pump (.security secType) 4 resume) block (u16At block.bytes 2)
  | colourMap (msgid : ℕ) (a a' : Attrs D S) (resume : Block 5 → Attrs D S → GenStep D S Unit)
      (h : .yielded a (.bytes 5) resume = (setColourMapEntriesHandler env).run a')
      (block : Block 5) :
      Declares env (.pump (.message msgid) 5 resume) block (6 * u16At block.bytes 3)
  | cutText (msgid : ℕ) (a a' : Attrs D S) (resume : Block 7 → Attrs D S → GenStep D S Unit)
      (h : .yielded a (.bytes 7) resume = (serverCutTextHandler env).run a') (block : Block 7) :
      Declares env (.pump (.message msgid) 7 resume) block (u32At block.bytes 3)
  | fence (msgid : ℕ) (a a' : Attrs D S) (resume : Block 8 → Attrs D S → GenStep D S Unit)
      (h : .yielded a (.bytes 8) resume = serverFenceHandler.run a') (block : Block 8) :
      Declares env (.pump (.message msgid) 8 resume) block (byteAt block.bytes 7)

/-- Where nothing is checked, the server declares no more than a message may hold. -/
def Modest (env : Env D S) (c : RFBClient D S) : Prop :=
  ∀ e block n, Hands c e block → Unchecked env e block n → n ≤ maxMessagePayload

/-- The handler call keeps to the bound: it waits for no more, and aborts where more is declared. -/
def KeepsToBound (env : Env D S) (c : RFBClient D S) : Prop :=
  Bounded (client ((turn env).run c)) ∧
    ∀ e block n, Hands c e block → Declares env e block n → maxMessagePayload < n →
      (client ((turn env).run c)).aborted = true

/-! ## One handler call -/

section

variable {library : Library}
  {decoders : ℤ → Option (Decoder (D := D) (S := S) (baseCallback library))}

/-- What stays parked stays bounded. -/
theorem Bounded.of_phase {c c' : RFBClient D S} (h : Bounded c) (hphase : c'.phase = c.phase) :
    Bounded c' := by
  unfold Bounded decodes expectedLen at h ⊢
  rw [hphase]
  exact h

theorem bounded_of_expecting {c : RFBClient D S} {e : Expected D S} (hphase : c.phase = .expecting e)
    (hlen : e.len ≤ maxMessagePayload) : Bounded c := by
  intro _
  unfold expectedLen
  rw [hphase]
  exact hlen

theorem bounded_abortConnection {reason : String} {c : RFBClient D S} (h : Bounded c) :
    Bounded (client ((abortConnection (base library decoders) reason).run c)) := by
  rw [run_abortConnection]
  exact h.of_phase rfl

theorem bounded_doConnection (c : RFBClient D S) :
    Bounded (client ((doConnection (base library decoders)).run c)) := by
  rw [run_doConnection]
  split_ifs
  · exact bounded_of_expecting (e := .rectangle) rfl (show 12 ≤ maxMessagePayload by decide)
  · exact bounded_of_expecting (e := .connection) rfl (show 1 ≤ maxMessagePayload by decide)

theorem bounded_finish {task : Task} {v : task.Result} {c : RFBClient D S} (h : Bounded c) :
    Bounded (client ((finish (base library decoders) task v).run c)) := by
  cases task with
  | security secType =>
    cases v with
    | true =>
      exact bounded_of_expecting (e := .serverInit) rfl (show 24 ≤ maxMessagePayload by decide)
    | false => exact h
  | message msgid =>
    exact bounded_of_expecting (e := .connection) rfl (show 1 ≤ maxMessagePayload by decide)
  | rectangle rect =>
    obtain ⟨changed, paste⟩ := v
    cases paste with
    | none =>
      change Bounded (client ((settleRectangle _ rect changed).run c))
      rw [run_settleRectangle]
      exact bounded_doConnection _
    | some paste =>
      by_cases hlen : paste.1.length = rect.width * rect.height * paste.2.bypp
      · change Bounded (client ((finishRectangle _ rect ⟨changed, some (paste.1, paste.2)⟩).run c))
        rw [run_finishRectangle_of_length hlen, run_settleRectangle]
        exact bounded_doConnection _
      · have habort : finish (base library decoders) (.rectangle rect) ⟨changed, some paste⟩ =
            abortConnection (base library decoders) _ := if_pos hlen
        rw [habort]
        exact bounded_abortConnection h

/-- One step of a generator, given what it asks for. -/
theorem bounded_pump {task : Task} {x : GenStep D S task.Result} {c : RFBClient D S} (h : Bounded c)
    (hwants : ∀ a size resume, drive (!c.packet.isEmpty) x = .wants a size resume →
      (Expected.pump task size resume).decodes = false → size.toNat ≤ maxMessagePayload) :
    Bounded (client ((pump (base library decoders) task x).run c)) := by
  rw [run_pump]
  cases hdrive : drive (!c.packet.isEmpty) x with
  | done a v =>
    refine bounded_finish ?_
    exact h.of_phase rfl
  | failed a e =>
    simp only
    split_ifs
    · refine bounded_abortConnection ?_
      exact h.of_phase rfl
    · exact h.of_phase rfl
  | wants a size resume =>
    simp only
    split_ifs
    · refine bounded_abortConnection ?_
      exact h.of_phase rfl
    · intro hdecodes
      exact hwants a size resume hdrive hdecodes

/-- One step of a generator that asks for no more than a message may hold. -/
theorem bounded_pump_handling {task : Task} {P : Event → Bool} {raises : PyErr → Prop}
    {Q : Attrs D S → task.Result → Prop} {x : GenStep D S task.Result} {c : RFBClient D S}
    (h : Bounded c) (hhonours : x.Honours (handling P raises) Q c.attrs) :
    Bounded (client ((pump (base library decoders) task x).run c)) := by
  refine bounded_pump h ?_
  intro a size resume hdrive _
  have hpause := drive_honours Meanwhile.refl (!c.packet.isEmpty) hhonours
  rw [hdrive] at hpause
  cases hpause with
  | wants _ hasks _ =>
    have hbound := hasks.2
    omega

/-- A decoder may ask for any number of bytes. -/
theorem bounded_pump_rectangle {rect : Rect} {x : GenStep D S Outcome} {c : RFBClient D S}
    (h : Bounded c) :
    Bounded (client ((pump (base library decoders) (.rectangle rect) x).run c)) :=
  bounded_pump h fun _ _ _ _ hdecodes => absurd hdecodes (by simp [Expected.decodes])

theorem bounded_startSecurity {secType : ℕ} {c : RFBClient D S} (h : Bounded c) :
    Bounded (client ((startSecurity (base library decoders) secType).run c)) := by
  rw [run_startSecurity]
  cases hhandler : securityHandler (base library decoders) secType with
  | none => exact bounded_abortConnection h
  | some handler => exact bounded_pump_handling h (honours_securityHandler hhandler c.attrs)

theorem bounded_handle {e : Expected D S} {block : Block e.len} {c : RFBClient D S}
    (hphase : c.phase = .expecting e) (hsound : e.Sound (baseCallback library) c.attrs)
    (hmodest : ∀ n, Unchecked (base library decoders) e block n → n ≤ maxMessagePayload)
    (h : Bounded c) : Bounded (client ((handle (base library decoders) e block).run c)) := by
  cases e with
  | auth =>
    simp only [handle, handleAuth]
    split_ifs
    · exact bounded_of_expecting (e := .connFailed) rfl (show 4 ≤ maxMessagePayload by decide)
    · exact bounded_startSecurity h
    · exact bounded_abortConnection h
  | numberSecurityTypes =>
    simp only [handle, handleNumberSecurityTypes]
    split_ifs
    · have hcount := byteAt_lt block.bytes 0
      refine bounded_of_expecting (e := .securityTypes (byteAt block.bytes 0)) rfl ?_
      exact Nat.le_trans (Nat.le_of_lt hcount) (by decide)
    · exact bounded_of_expecting (e := .connFailed) rfl (show 4 ≤ maxMessagePayload by decide)
  | securityTypes count =>
    simp only [handle, handleSecurityTypes]
    split
    next secType _ =>
      refine bounded_startSecurity ?_
      exact h.of_phase rfl
    · exact bounded_abortConnection h
  | connFailed =>
    simp only [handle, handleConnFailed]
    split_ifs with hwaitfor
    · exact bounded_abortConnection h
    · exact bounded_of_expecting (e := .connMessage (u32At block.bytes 0)) rfl
        (Nat.not_lt.mp hwaitfor)
  | connMessage waitfor => exact bounded_abortConnection h
  | serverInit =>
    -- The length of the name is checked by nobody.
    exact bounded_of_expecting (e := .serverName (u32At block.bytes 20)) rfl
      (hmodest _ (.name block))
  | serverName namelen =>
    exact bounded_of_expecting (e := .connection) rfl (show 1 ≤ maxMessagePayload by decide)
  | connection =>
    simp only [handle, handleConnection]
    split_ifs
    · exact bounded_of_expecting (e := .framebufferUpdate) rfl (show 3 ≤ maxMessagePayload by decide)
    · split
      · exact bounded_abortConnection h
      next handler hhandler =>
        exact bounded_pump_handling h (honours_messageHandler hhandler c.attrs)
  | framebufferUpdate =>
    simp only [handle]
    rw [run_handleFramebufferUpdate]
    exact bounded_doConnection _
  | rectangle =>
    simp only [handle]
    rw [run_handleRectangle]
    split_ifs
    · rw [run_pumpRectangle]
      split
      · refine bounded_pump_rectangle ?_
        exact h.of_phase rfl
      · refine bounded_abortConnection ?_
        exact h.of_phase rfl
    · exact bounded_doConnection _
  | pump task size resume =>
    rw [run_handle_pump]
    cases task with
    | security secType =>
      have hsize : size.toNat ≤ maxMessagePayload := Int.toNat_le.mpr hsound.2.1
      have hended : Bounded { c with phase := .expecting (.ended (.security secType) size.toNat) } :=
        bounded_of_expecting rfl hsize
      exact bounded_pump_handling hended (hsound.2.2 block c.attrs (Meanwhile.refl _))
    | message msgid =>
      have hsize : size.toNat ≤ maxMessagePayload := Int.toNat_le.mpr hsound.2.1
      have hended : Bounded { c with phase := .expecting (.ended (.message msgid) size.toNat) } :=
        bounded_of_expecting rfl hsize
      exact bounded_pump_handling hended (hsound.2.2 block c.attrs (Meanwhile.refl _))
    | rectangle rect =>
      -- A decoder may wait for as much as its rectangle takes.
      refine bounded_pump_rectangle ?_
      intro hdecodes
      exact absurd hdecodes (by simp [decodes, Expected.decodes])
  | ended task size =>
    cases task with
    | security secType => exact h
    | message msgid =>
      exact bounded_of_expecting (e := .connection) rfl (show 1 ≤ maxMessagePayload by decide)
    | rectangle rect => exact h

theorem bounded_deliver {c : RFBClient D S} (data : Bytes) (h : Bounded c) :
    Bounded (client ((deliver (base library decoders) data).run c)) := by
  have hextend : Bounded (extend c data) := h.of_phase rfl
  cases hphase : c.phase with
  | initial =>
    rw [run_deliver_of_initial _ hphase, run_handleInitial]
    split_ifs
    · rw [run_answerHeader]
      cases negotiate (announced ((extend c data).packet.take 12)) with
      | none => exact hextend
      | some version =>
        unfold greeted client
        refine bounded_of_expecting rfl ?_
        split_ifs
        · show 1 ≤ maxMessagePayload
          decide
        · show 4 ≤ maxMessagePayload
          decide
    · exact hextend
    · exact bounded_abortConnection hextend
  | expecting e =>
    rw [run_deliver_of_expecting _ hphase]
    exact hextend

/-! ## Keeping to the bound -/

theorem bounded_turn {c : RFBClient D S} (hsound : Sound (baseCallback library) c)
    (hready : ready c = true) (hmodest : Modest (base library decoders) c) (h : Bounded c) :
    Bounded (client ((turn (base library decoders)).run c)) := by
  obtain ⟨e, hphase, hlen, -⟩ := exists_of_ready hready
  unfold Sound at hsound
  rw [hphase] at hsound
  rw [run_turn _ hphase hlen]
  refine bounded_handle ?_ ?_ ?_ ?_
  · exact hphase
  · exact hsound
  · intro n hn
    exact hmodest e _ n ⟨hphase, hlen, rfl⟩ hn
  · exact h.of_phase rfl

/-- What a checked length over the bound comes to. -/
theorem aborted_pump_of_raise {task : Task} {x : GenStep D S task.Result} {c : RFBClient D S}
    {a : Attrs D S} {e : PyErr} (hdrive : drive (!c.packet.isEmpty) x = .failed a e)
    (hcatches : task.catches e.cls = true) :
    (client ((pump (base library decoders) task x).run c)).aborted = true := by
  rw [run_pump, hdrive]
  simp only [hcatches, if_true]
  rw [run_abortConnection]
  rfl

/-- Every length over the bound that is checked aborts the connection. -/
theorem aborted_of_declares {c : RFBClient D S} {e : Expected D S} {block : Block e.len} {n : ℕ}
    (hmodest : Modest (base library decoders) c) (hhands : Hands c e block)
    (h : Declares (base library decoders) e block n) (hn : maxMessagePayload < n) :
    (client ((turn (base library decoders)).run c)).aborted = true := by
  rw [run_turn_of_hands _ hhands]
  cases h with
  -- One byte or two cannot declare as much; the other lengths are compared with the bound.
  | unchecked h => exact absurd (hmodest e block n hhands h) (Nat.not_le.mpr hn)
  | numberSecurityTypes block =>
    have hlt := byteAt_lt block.bytes 0
    unfold maxMessagePayload at hn
    omega
  | connFailed block =>
    simp only [handle, handleConnFailed]
    rw [if_pos hn, run_abortConnection]
    rfl
  | keyLen secType a a' resume _ block =>
    have hlt := u16At_lt block.bytes 2
    unfold maxMessagePayload at hn
    omega
  | colourMap msgid a a' resume _ block =>
    have hlt := u16At_lt block.bytes 3
    unfold maxMessagePayload at hn
    omega
  | cutText msgid a a' resume hresume block =>
    obtain ⟨-, -, hresume⟩ := Coroutine.Step.yielded.inj hresume
    obtain rfl := eq_of_heq hresume
    rw [run_handle_pump]
    refine aborted_pump_of_raise (a := c.attrs)
      (e := ⟨.decodeError, payloadMessage (u32At block.bytes 3)⟩) ?_ rfl
    have hraise : requirePayload (D := D) (S := S) (u32At block.bytes 3) =
        Gen.raise .decodeError (payloadMessage (u32At block.bytes 3)) := if_pos hn
    rw [Coroutine.Step.bind_done, Coroutine.run_bind, hraise]
    rfl
  | fence msgid a a' resume _ block =>
    have hlt := byteAt_lt block.bytes 7
    unfold maxMessagePayload at hn
    omega

/-- Where more is declared and nothing is checked, the handler call goes over the bound or does not
abort. -/
theorem not_keepsToBound_of_unchecked {c : RFBClient D S} {e : Expected D S} {block : Block e.len}
    {n : ℕ} (hlive : c.aborted = false) (hhands : Hands c e block)
    (h : Unchecked (base library decoders) e block n) (hn : maxMessagePayload < n) :
    ¬KeepsToBound (base library decoders) c := by
  rintro ⟨hbounded, hdeclared⟩
  have habort := hdeclared e block n hhands (.unchecked h) hn
  rw [run_turn_of_hands _ hhands] at hbounded habort
  cases h with
  | name block => exact absurd (hbounded rfl) (Nat.not_le.mpr hn)
  | reason secType a resume hawaits block =>
    obtain ⟨text, a', hversion, hresume⟩ := hawaits
    rw [run_refuse_of_le hversion] at hresume
    obtain ⟨-, -, hresume⟩ := Coroutine.Step.yielded.inj hresume
    obtain rfl := eq_of_heq hresume
    rw [run_handle_pump, run_pump, run_readReason_of_gt hn] at habort
    exact absurd (hlive.symm.trans habort) (by simp)

/-- A server that declares no more than a message may hold where nothing is checked keeps every
point of a run bounded: outside the rectangles of an update the client waits for no more. There a
handler call keeps to the bound, waiting for no more and aborting where more is declared, exactly if
the server declares no more where nothing is checked: as the length of its name, and of the reason
for a failed authentication. -/
theorem bounded_iff {factory : Factory} {decoding : D} {own : S} {received : Bytes}
    {d : Delivery D S}
    (h : ReachesBy (Modest (base library decoders)) (base library decoders)
      (fresh factory decoding own) received d) :
    Bounded (client d) ∧
      ∀ c, d = .ok () c → ready c = true →
        (KeepsToBound (base library decoders) c ↔ Modest (base library decoders) c) := by
  -- Every step keeps the bound, so the run does.
  have hbounded : Bounded (client d) := by
    induction h with
    | start => exact fun _ => (show 12 ≤ maxMessagePayload by decide)
    | delivered data _ _ _ _ ih => exact bounded_deliver data ih
    | dropped data _ _ _ ih => exact ih
    | turned h hready hmodest ih => exact bounded_turn (sound_of_reaches h.reaches) hready hmodest ih
  refine ⟨hbounded, ?_⟩
  rintro c rfl hready
  constructor
  · -- A length over the bound is waited for without an abort.
    intro hkeeps e block n hhands hunchecked
    obtain ⟨-, -, -, hlive⟩ := exists_of_ready hready
    refine Nat.not_lt.mp fun hn => ?_
    exact not_keepsToBound_of_unchecked hlive hhands hunchecked hn hkeeps
  · intro hmodest
    refine ⟨bounded_turn (sound_of_reaches h.reaches) hready hmodest hbounded, ?_⟩
    intro e block n hhands hdeclares hn
    exact aborted_of_declares hmodest hhands hdeclares hn

end

/-- The client once it has answered the header of a server that speaks 3.3. -/
def answeredThree (packet : Bytes) : RFBClient Unit Unit where
  attrs := { (fresh {} () () : RFBClient Unit Unit).attrs with
    version := (3, 3)
    versionServer := (3, 3)
    log := [.wrote .protocolVersion (versionMessage (3, 3))] }
  packet := packet
  phase := .expecting .auth

theorem run_deliver_three (env : Env Unit Unit) (rest : Bytes) :
    (deliver env (versionMessage (3, 3) ++ rest)).run (fresh {} () ()) =
      .ok () (answeredThree rest) := by
  have hlength : (versionMessage (3, 3)).length = 12 := by decide
  have htake : (extend (fresh {} () () : RFBClient Unit Unit)
      (versionMessage (3, 3) ++ rest)).packet.take 12 = versionMessage (3, 3) :=
    (List.take_append_of_le_length hlength.ge).trans (List.take_of_length_le hlength.le)
  have hdrop : (extend (fresh {} () () : RFBClient Unit Unit)
      (versionMessage (3, 3) ++ rest)).packet.drop 12 = rest := List.drop_left' hlength
  have hheader : normalise (versionMessage (3, 3)) = header := by decide
  have hversion : negotiate (announced (versionMessage (3, 3))) = some (3, 3) := by decide
  rw [run_deliver_of_initial _ rfl, run_handleInitial, htake, if_pos hheader, run_answerHeader, hversion]
  unfold greeted
  rw [hdrop]
  rfl

/-- A ServerInit that declares a name of four bytes. -/
def shortInit : Bytes := List.replicate 20 0 ++ [0, 0, 0, 4]

/-- A server that speaks 3.3, dictates None and declares a name of four bytes: where the client reads
the length it keeps to the bound, and then waits for these four. -/
theorem bounded_shortName :
    let env : Env Unit Unit := base sampleLibrary fun _ => none
    let c₀ : RFBClient Unit Unit := fresh {} () ()
    ∃ c, Reaches env c₀ (versionMessage (3, 3) ++ ([0, 0, 0, 1] ++ shortInit ++ [109, 97, 105, 110]))
        (.ok () c) ∧
      (∃ block, Hands c .serverInit block ∧ Unchecked env .serverInit block 4) ∧
      KeepsToBound env c ∧ expectedLen (client ((turn env).run c)) = 4 ∧
      Bounded (client ((turn env).run c)) := by
  intro env c₀
  let sent : Bytes := versionMessage (3, 3) ++ ([0, 0, 0, 1] ++ shortInit ++ [109, 97, 105, 110])
  let c₁ : RFBClient Unit Unit := answeredThree ([0, 0, 0, 1] ++ shortInit ++ [109, 97, 105, 110])
  let c₂ : RFBClient Unit Unit :=
    { attrs := { c₁.attrs with log := c₁.attrs.log ++ [.wrote .clientInit [0]] }
      packet := shortInit ++ [109, 97, 105, 110]
      phase := .expecting .serverInit }
  have hstart : Modest env (extend c₀ sent) := by
    rintro e block n ⟨hphase, -⟩
    exact absurd hphase (by simp [c₀, extend, fresh])
  -- The dictated type declares no length.
  have hauth : Modest env c₁ := by
    rintro e block n ⟨hphase, -⟩ hunchecked
    obtain rfl := Phase.expecting.inj hphase
    cases hunchecked
  have hblock : Hands c₂ .serverInit (Block.of shortInit rfl) := ⟨rfl, by decide, rfl⟩
  have hname : Modest env c₂ := by
    intro e block n hhands hunchecked
    obtain rfl := Phase.expecting.inj hhands.1
    cases hunchecked with
    | name block =>
      obtain ⟨-, -, rfl⟩ := hhands
      show u32At shortInit 20 ≤ maxMessagePayload
      decide
  -- The run: a delivery, the type, ServerInit.
  have h₁ : ReachesBy (Modest env) env c₀ ([] ++ sent) ((deliver env sent).run c₀) :=
    .delivered sent .start rfl rfl hstart
  rw [run_deliver_three] at h₁
  have h₂ : ReachesBy (Modest env) env c₀ _ (.ok () c₂) := .turned h₁ rfl hauth
  have h₃ : ReachesBy (Modest env) env c₀ _ ((turn env).run c₂) := .turned h₂ rfl hname
  exact ⟨c₂, h₂.reaches, ⟨_, hblock, .name _⟩, ((bounded_iff h₂).2 c₂ rfl rfl).mpr hname, rfl,
    (bounded_iff h₃).1⟩

/-- A server that speaks 3.3, dictates None and declares a name of 4294967295 bytes. -/
theorem not_bounded_name :
    let env : Env Unit Unit := base sampleLibrary fun _ => none
    let c₀ : RFBClient Unit Unit := fresh {} () ()
    let sent : Bytes := [82, 70, 66, 32, 48, 48, 51, 46, 48, 48, 51, 10, 0, 0, 0, 1] ++
      List.replicate 20 0 ++ [255, 255, 255, 255]
    ∃ d, Reaches env c₀ sent d ∧ (client d).aborted = false ∧ expectedLen (client d) = 4294967295 ∧
      ¬Bounded (client d) := by
  intro env c₀ sent
  let serverInit : Bytes := List.replicate 20 0 ++ [255, 255, 255, 255]
  let c₁ : RFBClient Unit Unit := answeredThree ([0, 0, 0, 1] ++ serverInit)
  let c₂ : RFBClient Unit Unit :=
    { attrs := { c₁.attrs with log := c₁.attrs.log ++ [.wrote .clientInit [0]] }
      packet := serverInit
      phase := .expecting .serverInit }
  have hsent : sent = versionMessage (3, 3) ++ ([0, 0, 0, 1] ++ serverInit) := by decide
  have h₁ : Reaches env c₀ ([] ++ sent) ((deliver env sent).run c₀) := .delivered sent .start rfl rfl
  rw [hsent, run_deliver_three] at h₁
  have h₂ : Reaches env c₀ _ (.ok () c₂) := .turned h₁ rfl
  have h₃ : Reaches env c₀ _ ((turn env).run c₂) := .turned h₂ rfl
  -- The client waits for what the last four bytes of ServerInit say.
  have hlen : expectedLen (client ((turn env).run c₂)) = 4294967295 := by
    show u32At (serverInit.take 24) 20 = 4294967295
    decide +kernel
  rw [hsent]
  refine ⟨_, h₃, rfl, hlen, ?_⟩
  intro hbounded
  have hwaits := hbounded rfl
  rw [hlen] at hwaits
  exact absurd hwaits (by decide +kernel)

end RFBClient

end VncDoTool
