import VncDoTool.Client.Startup
import VncDoTool.Client.Authentication
import VncDoTool.Client.Lengths
import Mathlib.Logic.Relation

/-!
# Termination of the loop

Whether the loop of a delivery comes to an end, with the security types None and VNC Authentication.

* `RFBClient.Finishes`: the loop ends from a state; `RFBClient.finishes_pump`: it does so from
  wherever the generator of a message or a rectangle is suspended, since its resumptions are well
  founded, if it does so with fewer bytes buffered.
* `RFBClient.ReadsEmptyReason`: a handler call reads that the reason for a failure is empty.
* `RFBClient.finishes_iff`: the loop ends exactly if none of its handler calls does.
* `RFBClient.reachesBy_of_resting`: where the loop has ended, none has.
-/

namespace VncDoTool

namespace RFBClient

variable {D S : Type}

/-! ## What every handler call keeps -/

/-- `P` survives whatever a handler does to a client: changing the attributes, parking another
handler and aborting. -/
structure Kept (P : RFBClient D S → Prop) : Prop where
  attrs : ∀ c a, P c → P { c with attrs := a }
  parks : ∀ c e, P c → P { c with phase := .expecting e }
  aborts : ∀ c, P c → P { c with aborted := true, packet := [] }

section

variable {library : Library}
  {decoders : ℤ → Option (Decoder (D := D) (S := S) (baseCallback library))}
  {P : RFBClient D S → Prop}

namespace Kept

variable (hP : Kept P) {c : RFBClient D S}

include hP

theorem abortConnection (reason : String) (h : P c) :
    P (client ((RFBClient.abortConnection (base library decoders) reason).run c)) := by
  rw [run_abortConnection]
  exact hP.attrs _ _ (hP.aborts _ h)

theorem doConnection (h : P c) : P (client ((RFBClient.doConnection (base library decoders)).run c)) := by
  rw [run_doConnection]
  split_ifs
  · exact hP.parks _ _ h
  · exact hP.parks _ _ (hP.attrs _ _ h)

theorem finish {task : Task} (v : task.Result) (h : P c) :
    P (client ((RFBClient.finish (base library decoders) task v).run c)) := by
  cases task with
  | security secType =>
    cases v with
    | true => exact hP.parks _ .serverInit (hP.attrs _ _ h)
    | false => exact h
  | message msgid => exact hP.parks _ .connection h
  | rectangle rect =>
    obtain ⟨changed, paste⟩ := v
    -- Pasted or not, the rectangle's end goes back to `_doConnection`.
    have hsettle : ∀ c : RFBClient D S, P c →
        P (client ((settleRectangle (base library decoders) rect changed).run c)) := by
      intro c hc
      rw [run_settleRectangle]
      split_ifs
      · exact hP.doConnection (hP.attrs _ _ hc)
      · exact hP.doConnection hc
    cases paste with
    | none => exact hsettle c h
    | some paste =>
      -- `_finishRectangle` refuses pixels that are not as many as the rectangle has.
      by_cases hlen : paste.1.length = rect.width * rect.height * paste.2.bypp
      · change P (client ((finishRectangle _ rect ⟨changed, some (paste.1, paste.2)⟩).run c))
        rw [run_finishRectangle_of_length hlen]
        exact hsettle _ (hP.attrs _ _ h)
      · have habort : RFBClient.finish (base library decoders) (.rectangle rect)
            ⟨changed, some paste⟩ = RFBClient.abortConnection (base library decoders) _ := if_pos hlen
        rw [habort]
        exact hP.abortConnection _ h

theorem pump {task : Task} (x : GenStep D S task.Result) (h : P c) :
    P (client ((RFBClient.pump (base library decoders) task x).run c)) := by
  rw [run_pump]
  cases drive (!c.packet.isEmpty) x with
  | done a v => exact hP.finish v (hP.attrs _ a h)
  | failed a e =>
    simp only
    split_ifs
    · exact hP.abortConnection _ (hP.attrs _ a h)
    · exact hP.attrs _ a h
  | wants a size resume =>
    simp only
    split_ifs
    · exact hP.abortConnection _ (hP.attrs _ a h)
    · exact hP.parks _ _ (hP.attrs _ a h)

theorem startSecurity (secType : ℕ) (h : P c) :
    P (client ((RFBClient.startSecurity (base library decoders) secType).run c)) := by
  rw [run_startSecurity]
  cases securityHandler (base library decoders) secType with
  | none => exact hP.abortConnection _ h
  | some handler => exact hP.pump _ h

theorem handle {e : Expected D S} (block : Block e.len) (h : P c) :
    P (client ((RFBClient.handle (base library decoders) e block).run c)) := by
  cases e with
  | auth =>
    simp only [RFBClient.handle, handleAuth]
    split_ifs
    · exact hP.parks _ .connFailed h
    · exact hP.startSecurity _ h
    · exact hP.abortConnection _ h
  | numberSecurityTypes =>
    simp only [RFBClient.handle, handleNumberSecurityTypes]
    split_ifs <;> exact hP.parks _ _ h
  | securityTypes count =>
    simp only [RFBClient.handle, handleSecurityTypes]
    split
    · exact hP.startSecurity _ (hP.attrs _ _ h)
    · exact hP.abortConnection _ h
  | connFailed =>
    simp only [RFBClient.handle, handleConnFailed]
    split_ifs
    · exact hP.abortConnection _ h
    · exact hP.parks _ _ h
  | connMessage waitfor => exact hP.abortConnection _ h
  | serverInit => exact hP.parks _ (.serverName _) (hP.attrs _ _ h)
  | serverName namelen => exact hP.parks _ .connection (hP.attrs _ _ (hP.attrs _ _ h))
  | connection =>
    simp only [RFBClient.handle, handleConnection]
    split_ifs
    · exact hP.parks _ _ h
    · split
      · exact hP.abortConnection _ h
      · exact hP.pump _ h
  | framebufferUpdate =>
    simp only [RFBClient.handle]
    rw [run_handleFramebufferUpdate]
    exact hP.doConnection (hP.attrs _ _ h)
  | rectangle =>
    simp only [RFBClient.handle]
    rw [run_handleRectangle]
    split_ifs
    · rw [run_pumpRectangle]
      split
      · exact hP.pump _ (hP.attrs _ _ h)
      · exact hP.abortConnection _ (hP.attrs _ _ h)
    · exact hP.doConnection (hP.attrs _ _ h)
  | pump task size resume =>
    rw [run_handle_pump]
    exact hP.pump _ (hP.parks _ _ h)
  -- A finished generator fed again: a message's ends at `_handleConnection`, the others change nothing.
  | ended task size =>
    cases task with
    | security secType => exact h
    | message msgid => exact hP.parks _ .connection h
    | rectangle rect => exact h

end Kept

/-- No handler call adds to the buffer. -/
theorem kept_length_packet (n : ℕ) : Kept fun c : RFBClient D S => c.packet.length ≤ n where
  attrs _ _ h := h
  parks _ _ h := h
  aborts _ _ := Nat.zero_le n

theorem length_packet_turn {c : RFBClient D S} (hready : ready c = true) :
    (client ((turn (base library decoders)).run c)).packet.length + expectedLen c ≤
      c.packet.length := by
  obtain ⟨e, hphase, hlen, -⟩ := exists_of_ready hready
  rw [run_turn _ hphase hlen, expectedLen_of_phase hphase]
  have hdropped : (c.packet.drop e.len).length ≤ c.packet.length - e.len :=
    Nat.le_of_eq List.length_drop
  have hkept : (client ((handle (base library decoders) e (Block.ofPrefix e.len c.packet hlen)).run
      { c with packet := c.packet.drop e.len })).packet.length ≤ c.packet.length - e.len :=
    (kept_length_packet (c.packet.length - e.len)).handle _ hdropped
  omega

/-! ## Loops that end -/

/-- The loop ends from here. -/
def Finishes (env : Env D S) (c : RFBClient D S) : Prop :=
  ∃ fuel d, handleExpected env fuel c = some d

variable {env : Env D S} {c : RFBClient D S}

theorem finishes_of_not_ready (h : ready c = false) : Finishes env c :=
  ⟨0, _, handleExpected_of_not_ready 0 h⟩

theorem finishes_of_aborted (h : c.aborted = true) : Finishes env c :=
  finishes_of_not_ready (ready_of_aborted h)

/-- The loop ends if it ends after a turn, or the turn raises. -/
theorem finishes_of_turn
    (h : ready c = true → ∀ c', (turn env).run c = .ok () c' → Finishes env c') :
    Finishes env c := by
  cases hready : ready c with
  | false => exact finishes_of_not_ready hready
  | true =>
    cases hturn : (turn env).run c with
    | ok _ c' =>
      obtain ⟨fuel, d, hd⟩ := h hready c' hturn
      refine ⟨fuel + 1, d, ?_⟩
      rw [handleExpected_of_ready fuel hready, hturn]
      exact hd
    | error e c' =>
      refine ⟨1, .error e c', ?_⟩
      rw [handleExpected_of_ready 0 hready, hturn]

/-- One turn of the loop to the next. -/
def Turns (env : Env D S) (c c' : RFBClient D S) : Prop :=
  ready c = true ∧ (turn env).run c = .ok () c'

/-- A loop that ends has ended from wherever it got. -/
theorem Finishes.of_turns {c' : RFBClient D S} (h : Finishes env c) (hturns : Turns env c c') :
    Finishes env c' := by
  obtain ⟨fuel, d, hd⟩ := h
  cases fuel with
  | zero =>
    unfold handleExpected at hd
    rw [if_pos hturns.1] at hd
    exact absurd hd (by simp)
  | succ fuel =>
    rw [handleExpected_of_ready fuel hturns.1, hturns.2] at hd
    exact ⟨fuel, d, hd⟩

theorem Finishes.of_later {c' : RFBClient D S} (h : Finishes env c)
    (hlater : Relation.ReflTransGen (Turns env) c c') : Finishes env c' := by
  induction hlater with
  | refl => exact h
  | tail _ hturns ih => exact ih.of_turns hturns

/-! ## Reading the reason for a failure -/

/-- The next handler call reads that the reason for a failure is empty. -/
def ReadsEmptyReason (env : Env D S) (c : RFBClient D S) : Prop :=
  ready c = true ∧ ∃ secType, ∃ block : Block 4,
    Hands c (awaitingReasonLength env secType) block ∧ u32At block.bytes 0 = 0

/-- A handler that takes bytes, or does not stay when it takes none. -/
inductive Expected.Tame (env : Env D S) : Expected D S → Prop
  | admitted {e : Expected D S} (h : e.admitted = true) : Tame env e
  | auth : Tame env .auth
  | numberSecurityTypes : Tame env .numberSecurityTypes
  | securityTypes (count : ℕ) : Tame env (.securityTypes count)
  | connFailed : Tame env .connFailed
  | connMessage (waitfor : ℕ) : Tame env (.connMessage waitfor)
  | awaitingChallenge (secType : ℕ) : Tame env (awaitingChallenge env secType)
  | awaitingResult (secType : ℕ) : Tame env (awaitingResult env secType)
  | awaitingReasonLength (secType : ℕ) : Tame env (awaitingReasonLength env secType)
  | awaitingReason (secType waitfor : ℕ) (h : waitfor ≠ 0) :
      Tame env (awaitingReason env secType waitfor)
  | ended (secType size : ℕ) (h : size ≠ 0) : Tame env (.ended (.security secType) size)

/-- The client has aborted, or such a handler is parked. -/
inductive Tame (env : Env D S) (c : RFBClient D S) : Prop
  | aborted (h : c.aborted = true)
  | initial (h : c.phase = .initial)
  | expecting (e : Expected D S) (hphase : c.phase = .expecting e) (h : e.Tame env)

theorem tame_abortConnection (reason : String) :
    Tame env (client ((abortConnection (base library decoders) reason).run c)) := by
  rw [run_abortConnection]
  exact .aborted rfl

theorem tame_startSecurity {secType : ℕ} (c : RFBClient D S)
    (htype : secType = AuthTypes.none.value ∨ secType = AuthTypes.vncAuthentication.value) :
    Tame (base library decoders)
      (client ((startSecurity (base library decoders) secType).run c)) := by
  rcases htype with rfl | rfl
  · by_cases hversion : Ver.le (3, 8) c.attrs.version
    · rw [run_startSecurity_none_of_le hversion]
      exact .expecting _ rfl (.awaitingResult _)
    · rw [run_startSecurity_none_of_lt hversion]
      exact .expecting .serverInit rfl (.admitted rfl)
  · rw [run_startSecurity_vnc]
    exact .expecting _ rfl (.awaitingChallenge _)

theorem tame_handle {e : Expected D S} {block : Block e.len} {c : RFBClient D S}
    (hphase : c.phase = .expecting e) (h : e.Tame (base library decoders))
    (hchosen : ∀ secType, e.chooses block = some secType →
      secType ≠ AuthTypes.vencrypt.value ∧ secType ≠ AuthTypes.diffieHellman.value)
    (hreason : ∀ secType, e = awaitingReasonLength (base library decoders) secType →
      u32At block.bytes 0 ≠ 0) :
    Tame (base library decoders) (client ((handle (base library decoders) e block).run c)) := by
  cases h with
  -- Behind the handshake: that stays so.
  | admitted h =>
    obtain ⟨e', hphase', he'⟩ := exists_of_admitted (admitted_handle hphase h)
    exact .expecting e' hphase' (.admitted he')
  | auth =>
    simp only [handle, handleAuth]
    split_ifs with hinvalid hsome
    · exact .expecting .connFailed rfl .connFailed
    · exact tame_startSecurity c
        (type_of_supported ((securityHandler_isSome_iff _ _).mp hsome) (hchosen _ rfl))
    · exact tame_abortConnection _
  | numberSecurityTypes =>
    simp only [handle, handleNumberSecurityTypes]
    split_ifs
    · exact .expecting _ rfl (.securityTypes _)
    · exact .expecting .connFailed rfl .connFailed
  | securityTypes count =>
    simp only [handle, handleSecurityTypes]
    split
    next secType hmax =>
      have hsupported : secType ∈ supportedAuths := by
        have hmem := List.max?_mem hmax
        simpa using (List.mem_filter.mp hmem).2
      exact tame_startSecurity _ (type_of_supported hsupported (hchosen _ hmax))
    · exact tame_abortConnection _
  | connFailed =>
    simp only [handle, handleConnFailed]
    split_ifs
    · exact tame_abortConnection _
    · exact .expecting _ rfl (.connMessage _)
  | connMessage waitfor => exact tame_abortConnection _
  -- Inside a generator of a security type: each pause has a handler of its own.
  | awaitingChallenge secType =>
    rcases run_handle_awaitingChallenge_cases block with ⟨a, hrun⟩ | habort | hended
    · rw [hrun]
      exact .expecting _ rfl (.awaitingResult secType)
    · exact .aborted habort
    · exact .expecting _ hended (.ended secType 16 (by decide))
  | awaitingResult secType =>
    by_cases hzero : u32At block.bytes 0 = 0
    · rw [run_handle_awaitingResult_of_zero hzero]
      exact .expecting .serverInit rfl (.admitted rfl)
    by_cases hgt : 2 < u32At block.bytes 0
    · rw [run_handle_awaitingResult_of_gt hgt]
      exact .expecting _ rfl (.ended secType 4 (by decide))
    have hfailed : u32At block.bytes 0 = 1 ∨ u32At block.bytes 0 = 2 := by omega
    by_cases hversion : Ver.le (3, 8) c.attrs.version
    · rw [run_handle_awaitingResult_of_le hfailed hversion]
      exact .expecting _ rfl (.awaitingReasonLength secType)
    · rw [run_handle_awaitingResult_of_lt hfailed hversion]
      exact .expecting _ rfl (.ended secType 4 (by decide))
  | awaitingReasonLength secType =>
    by_cases hle : u32At block.bytes 0 ≤ maxMessagePayload
    · rw [run_handle_awaitingReasonLength_of_le hle]
      exact .expecting _ rfl (.awaitingReason secType _ (hreason secType rfl))
    · rw [run_handle_awaitingReasonLength_of_gt (Nat.not_le.mp hle)]
      exact .expecting _ rfl (.ended secType 4 (by decide))
  | awaitingReason secType waitfor hne =>
    rw [run_handle_awaitingReason waitfor block]
    exact .expecting _ rfl (.ended secType waitfor hne)
  | ended secType size hne => exact .expecting _ hphase (.ended secType size hne)

/-- A turn of the loop that does not read that a reason is empty. -/
theorem tame_turn {c : RFBClient D S} (h : Tame (base library decoders) c) (hready : ready c = true)
    (htypes : PlainTypes c) (hreason : ¬ReadsEmptyReason (base library decoders) c) :
    Tame (base library decoders) (client ((turn (base library decoders)).run c)) := by
  obtain ⟨e, hphase, hlen, hlive⟩ := exists_of_ready hready
  cases h with
  | aborted habort => exact absurd (hlive.symm.trans habort) (by simp)
  | initial hinitial => exact absurd (hphase.symm.trans hinitial) (by simp)
  | expecting e' hphase' h =>
    obtain rfl : e = e' := Phase.expecting.inj (hphase.symm.trans hphase')
    rw [run_turn _ hphase hlen]
    refine tame_handle hphase h (htypes.of_chooses hready hphase hlen) ?_
    rintro secType rfl hzero
    exact hreason ⟨hready, secType, _, ⟨hphase, hlen, rfl⟩, hzero⟩

/-! ## Loops that never read that a reason is empty -/

/-- From here on the loop settles on no other type, and never reads that a reason is empty. -/
structure Clear (env : Env D S) (c : RFBClient D S) : Prop where
  tame : Tame env c
  types : ∀ c', Relation.ReflTransGen (Turns env) c c' → PlainTypes c'
  reason : ∀ c', Relation.ReflTransGen (Turns env) c c' → ¬ReadsEmptyReason env c'

theorem Clear.of_turns {c c' : RFBClient D S} (h : Clear (base library decoders) c)
    (hturns : Turns (base library decoders) c c') : Clear (base library decoders) c' where
  tame := by
    have htame := tame_turn h.tame hturns.1 (h.types c .refl) (h.reason c .refl)
    rw [hturns.2] at htame
    exact htame
  types := fun _ hlater => h.types _ (hlater.head hturns)
  reason := fun _ hlater => h.reason _ (hlater.head hturns)

/-- The loop ends from every clear state with at most `n` bytes buffered whose handler takes some. -/
def FinishesTaking (env : Env D S) (n : ℕ) : Prop :=
  ∀ c, Clear env c → c.packet.length ≤ n → 0 < expectedLen c → Finishes env c

theorem finishesTaking_of_fewer {n : ℕ}
    (h : ∀ c, Clear (base library decoders) c → c.packet.length < n →
      Finishes (base library decoders) c) : FinishesTaking (base library decoders) n := by
  intro c hclear hlen htakes
  refine finishes_of_turn ?_
  intro hready c' hturn
  have hshorter := @length_packet_turn D S library decoders _ hready
  rw [hturn] at hshorter
  simp only [client] at hshorter
  exact h c' (hclear.of_turns ⟨hready, hturn⟩) (by omega)

/-- What a finished generator of the session leaves parked takes bytes. -/
theorem takes_finish {task : Task} (htask : task.inSession = true) {v : task.Result}
    {c c' : RFBClient D S} (hrun : (finish (base library decoders) task v).run c = .ok () c') :
    c'.aborted = true ∨ 0 < expectedLen c' := by
  -- `_doConnection` parks on a rectangle header or on a message type.
  have hconnection : ∀ {c c' : RFBClient D S},
      (doConnection (base library decoders)).run c = .ok () c' → 0 < expectedLen c' := by
    intro c c' h
    rw [run_doConnection] at h
    split_ifs at h
    · obtain ⟨-, rfl⟩ := EStateM.Result.ok.inj h
      show 0 < 12
      decide
    · obtain ⟨-, rfl⟩ := EStateM.Result.ok.inj h
      show 0 < 1
      decide
  cases task with
  | security secType => exact absurd htask (by simp [Task.inSession])
  | message msgid =>
    obtain ⟨-, rfl⟩ := EStateM.Result.ok.inj hrun
    exact .inr Nat.one_pos
  | rectangle rect =>
    obtain ⟨changed, paste⟩ := v
    cases paste with
    | none =>
      change (settleRectangle _ rect changed).run c = _ at hrun
      rw [run_settleRectangle] at hrun
      exact .inr (hconnection hrun)
    | some paste =>
      by_cases hlen : paste.1.length = rect.width * rect.height * paste.2.bypp
      · change (finishRectangle _ rect ⟨changed, some (paste.1, paste.2)⟩).run c = _ at hrun
        rw [run_finishRectangle_of_length hlen, run_settleRectangle] at hrun
        exact .inr (hconnection hrun)
      · have habort : finish (base library decoders) (.rectangle rect) ⟨changed, some paste⟩ =
            abortConnection (base library decoders) _ := if_pos hlen
        rw [habort, run_abortConnection] at hrun
        obtain ⟨-, rfl⟩ := EStateM.Result.ok.inj hrun
        exact .inl rfl

/-- The loop ends once a step of a generator of the session is taken, however often it asks for
nothing: by induction on where the generator stands. -/
theorem finishes_pump {task : Task} (htask : task.inSession = true) {n : ℕ}
    (htaking : FinishesTaking (base library decoders) n) (x : GenStep D S task.Result)
    {c c' : RFBClient D S} (hlen : c.packet.length ≤ n)
    (hrun : (pump (base library decoders) task x).run c = .ok () c')
    (hclear : Clear (base library decoders) c') : Finishes (base library decoders) c' := by
  -- What a step leaves in the buffer is no longer than before it.
  have hshort : ∀ (x : GenStep D S task.Result) {c c' : RFBClient D S}, c.packet.length ≤ n →
      (pump (base library decoders) task x).run c = .ok () c' → c'.packet.length ≤ n := by
    intro x c c' hlen hrun
    have hkept : (client ((pump (base library decoders) task x).run c)).packet.length ≤ n :=
      (kept_length_packet n).pump x hlen
    rw [hrun] at hkept
    exact hkept
  have htakes : ∀ {c' : RFBClient D S}, Clear (base library decoders) c' → c'.packet.length ≤ n →
      c'.aborted = true ∨ 0 < expectedLen c' → Finishes (base library decoders) c' := by
    rintro c' hclear hlen (habort | htakes)
    · exact finishes_of_aborted habort
    · exact htaking c' hclear hlen htakes
  induction x generalizing c c' with
  | done a v =>
    have hlen' := hshort _ hlen hrun
    rw [run_pump_of_done] at hrun
    exact htakes hclear hlen' (takes_finish htask hrun)
  | failed a e =>
    have hlen' := hshort _ hlen hrun
    rw [run_pump] at hrun
    simp only [drive] at hrun
    split_ifs at hrun
    rw [run_abortConnection] at hrun
    obtain ⟨-, rfl⟩ := EStateM.Result.ok.inj hrun
    exact htakes hclear hlen' (.inl rfl)
  -- Whether the buffer is empty is answered at once, so the same call goes on behind the question.
  | yielded a y resume ih =>
    have hlen' := hshort _ hlen hrun
    cases y with
    | packet =>
      have hsame : (pump (base library decoders) task (resume (!c.packet.isEmpty) a)).run c =
          .ok () c' := by
        rw [run_pump] at hrun ⊢
        exact hrun
      exact ih _ a hlen hsame hclear
    | bytes size =>
      rw [run_pump] at hrun
      simp only [drive] at hrun
      split_ifs at hrun
      · rw [run_abortConnection] at hrun
        obtain ⟨-, rfl⟩ := EStateM.Result.ok.inj hrun
        exact htakes hclear hlen' (.inl rfl)
      · obtain ⟨-, rfl⟩ := EStateM.Result.ok.inj hrun
        by_cases hsize : 0 < size.toNat
        · exact htakes hclear hlen' (.inr hsize)
        · -- It asks for nothing, and is resumed at once.
          refine finishes_of_turn ?_
          intro hready c'' hturn
          have hclear'' := hclear.of_turns ⟨hready, hturn⟩
          have hzero : size.toNat ≤ c.packet.length := by omega
          have hhands : Hands { c with attrs := a, phase := .expecting (.pump task size resume) }
              (.pump task size resume) (Block.ofPrefix size.toNat c.packet hzero) := ⟨rfl, hzero, rfl⟩
          rw [run_turn_of_hands _ hhands, run_handle_pump] at hturn
          refine ih _ a ?_ hturn hclear''
          show (c.packet.drop size.toNat).length ≤ n
          rw [List.length_drop]
          omega

/-- It ends once a handler of the session that takes nothing is called. -/
theorem finishes_of_admitted {e : Expected D S} {block : Block e.len} {n : ℕ} {c c' : RFBClient D S}
    (hadmitted : e.admitted = true) (hzero : e.len = 0)
    (htaking : FinishesTaking (base library decoders) n) (hlen' : c'.packet.length ≤ n)
    (hclear : Clear (base library decoders) c') (hlen : c.packet.length ≤ n)
    (hturn : (handle (base library decoders) e block).run c = .ok () c') :
    Finishes (base library decoders) c' := by
  have htakes : 0 < expectedLen c' → Finishes (base library decoders) c' :=
    htaking c' hclear hlen'
  cases e with
  | serverName namelen =>
    obtain ⟨-, rfl⟩ := EStateM.Result.ok.inj hturn
    exact htakes Nat.one_pos
  | pump task size resume =>
    rw [run_handle_pump] at hturn
    refine finishes_pump hadmitted htaking _ ?_ hturn hclear
    exact hlen
  | ended task size =>
    cases task with
    | message msgid =>
      obtain ⟨-, rfl⟩ := EStateM.Result.ok.inj hturn
      exact htakes Nat.one_pos
    | security secType => exact absurd hadmitted (by simp [Expected.admitted, Task.inSession])
    | rectangle rect => exact absurd hturn (by simp [handle, finishAgain])
  -- The handlers of a fixed length take bytes.
  | serverInit => exact absurd hzero (show 24 ≠ 0 by decide)
  | connection => exact absurd hzero (show 1 ≠ 0 by decide)
  | framebufferUpdate => exact absurd hzero (show 3 ≠ 0 by decide)
  | rectangle => exact absurd hzero (show 12 ≠ 0 by decide)
  | _ => exact absurd hadmitted (by simp [Expected.admitted])

/-- An empty list of security types has none in common. -/
theorem aborted_of_no_types {count : ℕ} {block : Block count} {c c' : RFBClient D S}
    (hzero : count = 0)
    (hturn : (handle (base library decoders) (.securityTypes count) block).run c = .ok () c') :
    c'.aborted = true := by
  subst hzero
  have hempty : block.bytes = [] := List.length_eq_zero_iff.mp block.length_bytes
  simp only [handle, handleSecurityTypes, hempty] at hturn
  change (abortConnection _ _).run c = _ at hturn
  rw [run_abortConnection] at hturn
  obtain ⟨-, rfl⟩ := EStateM.Result.ok.inj hturn
  rfl

/-- The loop ends from every clear state. -/
theorem finishes_of_clear {c : RFBClient D S} (hclear : Clear (base library decoders) c) :
    Finishes (base library decoders) c := by
  -- By induction on what is buffered: a handler that takes bytes leaves less, and one that takes none
  -- comes to one that does, or to an abort.
  induction hn : c.packet.length using Nat.strong_induction_on generalizing c with
  | _ n ih =>
    have htaking : FinishesTaking (base library decoders) n :=
      finishesTaking_of_fewer fun c hclear hlen => ih _ hlen hclear rfl
    by_cases htakes : 0 < expectedLen c
    · exact htaking c hclear (Nat.le_of_eq hn) htakes
    refine finishes_of_turn ?_
    intro hready c' hturn
    have hclear' := hclear.of_turns ⟨hready, hturn⟩
    have hlen' : c'.packet.length ≤ n := by
      have hshorter := @length_packet_turn D S library decoders _ hready
      rw [hturn] at hshorter
      simp only [client] at hshorter
      omega
    obtain ⟨e, hphase, hlen, hlive⟩ := exists_of_ready hready
    have hzero : e.len = 0 := by
      rw [expectedLen_of_phase hphase] at htakes
      omega
    rw [run_turn _ hphase hlen] at hturn
    cases hclear.tame with
    | aborted habort => exact absurd (hlive.symm.trans habort) (by simp)
    | initial hinitial => exact absurd (hphase.symm.trans hinitial) (by simp)
    | expecting e' hphase' htame =>
      obtain rfl : e = e' := Phase.expecting.inj (hphase.symm.trans hphase')
      cases htame with
      | admitted hadmitted =>
        refine finishes_of_admitted hadmitted hzero htaking hlen' hclear' ?_ hturn
        show (c.packet.drop e.len).length ≤ n
        rw [List.length_drop]
        omega
      | securityTypes count => exact finishes_of_aborted (aborted_of_no_types hzero hturn)
      | connMessage waitfor =>
        obtain ⟨-, rfl⟩ := EStateM.Result.ok.inj hturn
        exact finishes_of_aborted rfl
      -- A clear client waits for no empty reason; the rest of the handshake takes bytes.
      | awaitingReason secType waitfor hne => exact absurd hzero hne
      | ended secType size hne => exact absurd hzero hne
      | auth => exact absurd hzero (show 4 ≠ 0 by decide)
      | numberSecurityTypes => exact absurd hzero (show 1 ≠ 0 by decide)
      | connFailed => exact absurd hzero (show 4 ≠ 0 by decide)
      | awaitingChallenge secType => exact absurd hzero (show 16 ≠ 0 by decide)
      | awaitingResult secType => exact absurd hzero (show 4 ≠ 0 by decide)
      | awaitingReasonLength secType => exact absurd hzero (show 4 ≠ 0 by decide)

/-! ## Loops that read that a reason is empty -/

/-- The client reads that a reason is empty, waits for its no bytes, or goes on sending no bytes to
the generator that has reported it. -/
inductive Stuck (env : Env D S) (c : RFBClient D S) : Prop
  | length (h : ReadsEmptyReason env c)
  | reason (secType : ℕ) (hlive : c.aborted = false)
      (hphase : c.phase = .expecting (awaitingReason env secType 0))
  | ended (secType : ℕ) (hlive : c.aborted = false)
      (hphase : c.phase = .expecting (.ended (.security secType) 0))

/-- A handler that takes nothing is called at once. -/
theorem ready_of_zero {c : RFBClient D S} {e : Expected D S} (hlive : c.aborted = false)
    (hphase : c.phase = .expecting e) (hzero : e.len = 0) : ready c = true := by
  simp [ready, hphase, hlive, hzero]

theorem Stuck.ready {c : RFBClient D S} (h : Stuck env c) : RFBClient.ready c = true := by
  cases h with
  | length h => exact h.1
  | reason secType hlive hphase => exact ready_of_zero hlive hphase rfl
  | ended secType hlive hphase => exact ready_of_zero hlive hphase rfl

/-- The reason of no bytes is waited for, it is read and reported, and nothing is parked in the place
of the generator. -/
theorem Stuck.turn {c : RFBClient D S} (h : Stuck (base library decoders) c) :
    ∃ c', (RFBClient.turn (base library decoders)).run c = .ok () c' ∧
      Stuck (base library decoders) c' := by
  cases h with
  | length h =>
    obtain ⟨hready, secType, block, hhands, hzero⟩ := h
    obtain ⟨-, -, -, hlive⟩ := exists_of_ready hready
    have hle : u32At block.bytes 0 ≤ maxMessagePayload :=
      Nat.le_trans (Nat.le_of_eq hzero) (Nat.zero_le _)
    rw [run_turn_of_hands _ hhands, run_handle_awaitingReasonLength_of_le hle, hzero]
    exact ⟨_, rfl, .reason secType hlive rfl⟩
  | reason secType hlive hphase =>
    have hhands : Hands c (awaitingReason (base library decoders) secType 0)
        (Block.ofPrefix 0 c.packet (Nat.zero_le _)) := ⟨hphase, Nat.zero_le _, rfl⟩
    rw [run_turn_of_hands _ hhands, run_handle_awaitingReason 0]
    exact ⟨_, rfl, .ended secType hlive rfl⟩
  | ended secType hlive hphase =>
    have hhands : Hands c (.ended (.security secType) 0)
        (Block.ofPrefix 0 c.packet (Nat.zero_le _)) := ⟨hphase, Nat.zero_le _, rfl⟩
    rw [run_turn_of_hands _ hhands]
    exact ⟨_, rfl, .ended secType hlive hphase⟩

/-- The finished generator is sent empty blocks for ever. -/
theorem not_finishes_of_stuck {c : RFBClient D S} (h : Stuck (base library decoders) c) :
    ¬Finishes (base library decoders) c := by
  rintro ⟨fuel, d, hd⟩
  induction fuel generalizing c with
  | zero =>
    unfold handleExpected at hd
    rw [if_pos h.ready] at hd
    exact absurd hd (by simp)
  | succ fuel ih =>
    obtain ⟨c', hturn, hstuck⟩ := h.turn
    rw [handleExpected_of_ready fuel h.ready, hturn] at hd
    exact ih hstuck hd

/-! ## Deliveries -/

/-- A point of the loop that a delivery of `data` to `c` runs. -/
def InLoop (env : Env D S) (c : RFBClient D S) (data : Bytes) (c' : RFBClient D S) : Prop :=
  c.aborted = false ∧ ∃ c₁, (deliver env data).run c = .ok () c₁ ∧
    Relation.ReflTransGen (Turns env) c₁ c'

theorem tame_deliver {c : RFBClient D S} (data : Bytes) (h : Tame (base library decoders) c) :
    Tame (base library decoders) (client ((deliver (base library decoders) data).run c)) := by
  cases hphase : c.phase with
  | initial =>
    rw [run_deliver_of_initial _ hphase, run_handleInitial]
    split_ifs
    · rw [run_answerHeader]
      cases negotiate (announced ((extend c data).packet.take 12)) with
      | none => exact .initial hphase
      | some version =>
        refine .expecting _ rfl ?_
        split_ifs
        · exact .numberSecurityTypes
        · exact .auth
    · exact .initial hphase
    · exact tame_abortConnection _
  | expecting e =>
    rw [run_deliver_of_expecting _ hphase]
    cases h with
    | aborted habort => exact .aborted habort
    | initial hinitial => exact absurd (hphase.symm.trans hinitial) (by simp)
    | expecting e' hphase' h => exact .expecting e' hphase' h

/-- A client that may take the next delivery was never stuck. -/
theorem reachesBy_of_resting {factory : Factory} {decoding : D} {own : S} {received : Bytes}
    {d : Delivery D S}
    (h : ReachesBy PlainTypes (base library decoders) (fresh factory decoding own) received d)
    (hrest : Resting d) :
    ReachesBy (fun c => PlainTypes c ∧ ¬ReadsEmptyReason (base library decoders) c)
      (base library decoders) (fresh factory decoding own) received d := by
  have hrun : ReachesBy (fun c => PlainTypes c ∧ ¬ReadsEmptyReason (base library decoders) c)
      (base library decoders) (fresh factory decoding own) received d ∨
      ∃ c, d = .ok () c ∧ Stuck (base library decoders) c := by
    clear hrest
    -- Once stuck the loop goes on for ever, and no delivery comes that could leave this disjunct.
    induction h with
    | start => exact .inl .start
    | @delivered received d data _ hrest hlive hgood ih =>
      rcases ih with ih | ⟨c, rfl, hstuck⟩
      · by_cases hreads : ReadsEmptyReason (base library decoders) (extend (client d) data)
        · obtain ⟨e, hphase, -, -⟩ := exists_of_ready hreads.1
          rw [run_deliver_of_expecting _ (show (client d).phase = .expecting e from hphase)]
          exact .inr ⟨_, rfl, .length hreads⟩
        · exact .inl (.delivered data ih hrest hlive ⟨hgood, hreads⟩)
      · exact absurd (hstuck.ready.symm.trans hrest) (by simp)
    | @dropped received d data _ hrest habort ih =>
      rcases ih with ih | ⟨c, rfl, hstuck⟩
      · exact .inl (.dropped data ih hrest habort)
      · exact absurd (hstuck.ready.symm.trans hrest) (by simp)
    | @turned received c _ hready hgood ih =>
      rcases ih with ih | ⟨c', hc', hstuck⟩
      · by_cases hreads : ReadsEmptyReason (base library decoders) c
        · obtain ⟨c', hturn, hstuck⟩ := (Stuck.length hreads).turn
          exact .inr ⟨c', hturn, hstuck⟩
        · exact .inl (.turned ih hready ⟨hgood, hreads⟩)
      · obtain rfl := (EStateM.Result.ok.inj hc').2
        obtain ⟨c', hturn, hstuck'⟩ := hstuck.turn
        exact .inr ⟨c', hturn, hstuck'⟩
  rcases hrun with hrun | ⟨c, rfl, hstuck⟩
  · exact hrun
  · exact absurd (hstuck.ready.symm.trans hrest) (by simp)

/-- The loop of a delivery, once the version header is dealt with, comes to an end exactly if no
handler call in it reads that the reason for a failure is empty. -/
theorem finishes_iff {c : RFBClient D S} (htame : Tame (base library decoders) c)
    (htypes : ∀ c', Relation.ReflTransGen (Turns (base library decoders)) c c' → PlainTypes c') :
    Finishes (base library decoders) c ↔
      ∀ c', Relation.ReflTransGen (Turns (base library decoders)) c c' →
        ¬ReadsEmptyReason (base library decoders) c' := by
  constructor
  · intro hfinishes c' hlater hreads
    exact not_finishes_of_stuck (.length hreads) (hfinishes.of_later hlater)
  · intro hreason
    exact finishes_of_clear ⟨htame, htypes, hreason⟩

end

end RFBClient

end VncDoTool
