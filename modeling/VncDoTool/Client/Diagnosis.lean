import VncDoTool.Client.Startup

/-!
# Malformed handshakes

What the client makes of whatever a server sends in place of the version, security and
initialisation exchange, with the security types None and VNC Authentication and an ASCII password.

* `RFBClient.Settled`: the client follows the exchange, or it has given up and said so.
* `RFBClient.Diagnosed`: a delivery returns, and leaves such a client.
* `RFBClient.Followable`: the version is no older than 3.3, a SecurityResult is in range, and the
  reason for a failure fits a message.
* `RFBClient.diagnosed_iff`: in a run of which this holds every point is diagnosed, and a handler
  call keeps it so exactly if this holds.
-/

namespace VncDoTool

namespace RFBClient

variable {D S : Type}

/-- The client gives up, or says that it does. -/
def Event.givesUp : Event → Bool
  | .loseConnection => true
  | .called (.vncAuthFailed _) | .called (.vncProtocolError _) => true
  | _ => false

/-- A handler that reads on: the exchange is followed so far. -/
inductive Expected.Follows (env : Env D S) : Expected D S → Prop
  | auth : Follows env .auth
  | numberSecurityTypes : Follows env .numberSecurityTypes
  | securityTypes (count : ℕ) : Follows env (.securityTypes count)
  | connFailed : Follows env .connFailed
  | connMessage (waitfor : ℕ) : Follows env (.connMessage waitfor)
  | awaitingChallenge (secType : ℕ) : Follows env (awaitingChallenge env secType)
  | awaitingResult (secType : ℕ) : Follows env (awaitingResult env secType)
  | awaitingReasonLength (secType : ℕ) : Follows env (awaitingReasonLength env secType)
  | awaitingReason (secType waitfor : ℕ) : Follows env (awaitingReason env secType waitfor)
  | serverInit : Follows env .serverInit
  | serverName (namelen : ℕ) : Follows env (.serverName namelen)
  /-- The exchange is complete. -/
  | connection : Follows env .connection

/-- The client follows the exchange, or it has given up: by aborting, or by reporting that
authentication failed and closing the connection. -/
inductive Settled (env : Env D S) (c : RFBClient D S) : Prop
  | follows (hlive : c.aborted = false) (hlog : ∀ e ∈ c.attrs.log, e.givesUp = false)
      (hphase : c.phase = .initial ∨ ∃ e : Expected D S, c.phase = .expecting e ∧ e.Follows env)
  | aborted (habort : c.aborted = true) (es : List Event) (reason : String)
      (hlog : c.attrs.log = es ++ [.called (.vncProtocolError reason), .loseConnection])
  | refused (hlive : c.aborted = false) (secType size : ℕ)
      (hphase : c.phase = .expecting (.ended (.security secType) size))
      (es : List Event) (reason : AuthFailure)
      (hlog : c.attrs.log = es ++ [.called (.vncAuthFailed reason), .loseConnection])

/-- Nothing escapes, and the client is settled. -/
def Diagnosed (env : Env D S) : Delivery D S → Prop
  | .ok _ c => Settled env c
  | .error _ _ => False

/-- The client is in the exchange, and settles on no security type but None and VNC
Authentication. -/
structure InHandshake (c : RFBClient D S) : Prop where
  incomplete : c.phase ≠ .expecting .connection
  chosen : PlainTypes c

/-- What the server sent for the next handler call can be followed or is diagnosed: -/
structure Followable (env : Env D S) (c : RFBClient D S) : Prop where
  /-- a version header announces 3.3 or later, -/
  version : c.phase = .initial → normalise (c.packet.take 12) = header →
    Ver.le (3, 3) (announced (c.packet.take 12))
  /-- a SecurityResult is one of 0, 1 and 2, -/
  result : ∀ secType (block : Block 4), Hands c (awaitingResult env secType) block →
    u32At block.bytes 0 ≤ 2
  /-- and the reason for a failure is no longer than a message may be. -/
  reason : ∀ secType (block : Block 4), Hands c (awaitingReasonLength env secType) block →
    u32At block.bytes 0 ≤ maxMessagePayload

/-! ## Passwords -/

theorem encodeAscii_of_ascii {text : List Char} (h : ∀ ch ∈ text, ch.toNat < 128) :
    ∃ b, encodeAscii text = .ok b := by
  induction text with
  | nil => exact ⟨[], rfl⟩
  | cons ch text ih =>
    obtain ⟨b, hb⟩ := ih fun ch' hch' => h ch' (List.mem_cons_of_mem _ hch')
    refine ⟨UInt8.ofNat ch.toNat :: b, ?_⟩
    unfold encodeAscii at hb ⊢
    rw [List.mapM_cons, if_pos (h ch List.mem_cons_self), hb]
    rfl

/-- A password whose first eight characters are ASCII has a DES key. -/
theorem vncDes_of_ascii {password : String}
    (h : ∀ ch ∈ password.toList.take 8, ch.toNat < 128) : ∃ key, vncDes password = .ok key := by
  have hpadded : ∀ ch ∈ password.toList.take 8 ++
      List.replicate (8 - (password.toList.take 8).length) (Char.ofNat 0), ch.toNat < 128 := by
    intro ch hch
    rcases List.mem_append.mp hch with hch | hch
    · exact h ch hch
    · rw [List.eq_of_mem_replicate hch]
      decide
  obtain ⟨b, hb⟩ := encodeAscii_of_ascii hpadded
  refine ⟨reverseBits b, ?_⟩
  unfold vncDes
  simp only [hb]
  rfl

/-! ## Versions -/

/-- Only a server older than 3.3 has no version in common. -/
theorem negotiate_isSome_iff (version : Ver) :
    (negotiate version).isSome = true ↔ Ver.le (3, 3) version := by
  unfold negotiate
  rw [Option.isSome_map, List.find?_isSome]
  constructor
  · rintro ⟨v, hv, hle⟩
    refine Ver.le_trans ?_ (of_decide_eq_true hle)
    simp only [supportedServerVersions, List.mem_cons, List.not_mem_nil, or_false] at hv
    rcases hv with rfl | rfl | rfl | rfl | rfl | rfl | rfl <;> decide
  · intro h
    exact ⟨(3, 3), by decide, decide_eq_true h⟩

/-! ## One handler call -/

section

variable {library : Library}
  {decoders : ℤ → Option (Decoder (D := D) (S := S) (baseCallback library))}

/-- The client goes on, and has not said that it gives up. -/
structure GoesOn (c : RFBClient D S) : Prop where
  live : c.aborted = false
  log : ∀ e ∈ c.attrs.log, e.givesUp = false

/-- It still goes on after showing something else. -/
theorem GoesOn.after {c c' : RFBClient D S} {es : List Event} (h : GoesOn c)
    (hlive : c'.aborted = c.aborted) (hlog : c'.attrs.log = c.attrs.log ++ es)
    (hes : ∀ e ∈ es, e.givesUp = false) : GoesOn c' where
  live := hlive.trans h.live
  log := by
    intro e he
    rw [hlog] at he
    rcases List.mem_append.mp he with he | he
    · exact h.log e he
    · exact hes e he

theorem GoesOn.of_eq {c c' : RFBClient D S} (h : GoesOn c) (hlive : c'.aborted = c.aborted)
    (hlog : c'.attrs.log = c.attrs.log) : GoesOn c' :=
  h.after hlive (by rw [hlog, List.append_nil]) (List.forall_mem_nil _)

/-- A handler call that leaves a settled client, and the factory as it was. -/
def Settles (env : Env D S) (c : RFBClient D S) (d : Delivery D S) : Prop :=
  Diagnosed env d ∧ (client d).attrs.factory = c.attrs.factory

theorem settles_of_follows {env : Env D S} {c c' : RFBClient D S} {e : Expected D S}
    (h : GoesOn c') (hphase : c'.phase = .expecting e) (he : e.Follows env)
    (hfactory : c'.attrs.factory = c.attrs.factory) : Settles env c (.ok () c') :=
  ⟨.follows h.live h.log (.inr ⟨e, hphase, he⟩), hfactory⟩

theorem settles_abortConnection {env : Env D S} (reason : String) (c : RFBClient D S) :
    Settles env c ((abortConnection (base library decoders) reason).run c) := by
  rw [run_abortConnection]
  exact ⟨.aborted rfl c.attrs.log reason rfl, rfl⟩

theorem settles_doClientInitialization {env : Env D S} {c : RFBClient D S} (h : GoesOn c) :
    Settles env c (doClientInitialization.run c) := by
  rw [run_doClientInitialization]
  refine settles_of_follows ?_ rfl .serverInit rfl
  exact h.after rfl rfl (List.forall_mem_singleton.2 rfl)

theorem settles_startSecurity {secType : ℕ} {c : RFBClient D S} (h : GoesOn c)
    (htype : secType = AuthTypes.none.value ∨ secType = AuthTypes.vncAuthentication.value) :
    Settles (base library decoders) c ((startSecurity (base library decoders) secType).run c) := by
  rcases htype with rfl | rfl
  · by_cases hversion : Ver.le (3, 8) c.attrs.version
    · rw [run_startSecurity_none_of_le hversion]
      exact settles_of_follows (h.of_eq rfl rfl) rfl (.awaitingResult _) rfl
    · rw [run_startSecurity_none_of_lt hversion]
      exact settles_doClientInitialization h
  · rw [run_startSecurity_vnc]
    exact settles_of_follows (h.of_eq rfl rfl) rfl (.awaitingChallenge _) rfl

/-- What was done to the client before makes no difference, if it leaves the factory. -/
theorem Settles.after {env : Env D S} {c₀ c : RFBClient D S} {d : Delivery D S}
    (h : Settles env c d) (hfactory : c.attrs.factory = c₀.attrs.factory) : Settles env c₀ d :=
  ⟨h.1, h.2.trans hfactory⟩

/-- A handler call in the exchange, on what can be followed. -/
theorem settles_handle {e : Expected D S} {block : Block e.len} {c : RFBClient D S}
    {password : String} {key : Bytes} (h : GoesOn c) (hphase : c.phase = .expecting e)
    (hfollows : e.Follows (base library decoders)) (hne : e ≠ .connection)
    (hchosen : ∀ secType, e.chooses block = some secType →
      secType ≠ AuthTypes.vencrypt.value ∧ secType ≠ AuthTypes.diffieHellman.value)
    (hpassword : c.attrs.factory.password = some password) (hkey : vncDes password = .ok key)
    (hresult : ∀ secType, e = awaitingResult (base library decoders) secType →
      u32At block.bytes 0 ≤ 2)
    (hreason : ∀ secType, e = awaitingReasonLength (base library decoders) secType →
      u32At block.bytes 0 ≤ maxMessagePayload) :
    Settles (base library decoders) c ((handle (base library decoders) e block).run c) := by
  cases hfollows with
  | auth =>
    simp only [handle, handleAuth]
    split_ifs with hinvalid hsome
    · exact settles_of_follows (h.of_eq rfl rfl) rfl .connFailed rfl
    · exact settles_startSecurity h
        (type_of_supported ((securityHandler_isSome_iff _ _).mp hsome) (hchosen _ rfl))
    · exact settles_abortConnection _ c
  | numberSecurityTypes =>
    simp only [handle, handleNumberSecurityTypes]
    split_ifs
    · exact settles_of_follows (h.of_eq rfl rfl) rfl (.securityTypes _) rfl
    · exact settles_of_follows (h.of_eq rfl rfl) rfl .connFailed rfl
  | securityTypes count =>
    simp only [handle, handleSecurityTypes]
    split
    next secType hmax =>
      -- What is chosen is of the list the client supports.
      have hsupported : secType ∈ supportedAuths := by
        have hmem := List.max?_mem hmax
        simpa using (List.mem_filter.mp hmem).2
      have hwrote : GoesOn { c with attrs := { c.attrs with
          log := c.attrs.log ++ [.wrote .securityType [UInt8.ofNat secType]] } } :=
        h.after rfl rfl (List.forall_mem_singleton.2 rfl)
      exact (settles_startSecurity hwrote (type_of_supported hsupported (hchosen _ hmax))).after rfl
    · exact settles_abortConnection _ c
  | connFailed =>
    simp only [handle, handleConnFailed]
    split_ifs
    · exact settles_abortConnection _ c
    · exact settles_of_follows (h.of_eq rfl rfl) rfl (.connMessage _) rfl
  | connMessage waitfor => exact settles_abortConnection _ c
  -- The response is written; nothing in the log proceeds or reports yet.
  | awaitingChallenge secType =>
    rw [run_handle_awaitingChallenge hpassword hkey block]
    refine settles_of_follows ?_ rfl (.awaitingResult secType) rfl
    refine h.after rfl rfl ?_
    intro e he
    rcases List.mem_cons.mp he with rfl | he
    · rfl
    · rw [List.mem_singleton.mp he]
      rfl
  | awaitingResult secType =>
    have hle := hresult secType rfl
    by_cases hzero : u32At block.bytes 0 = 0
    · rw [run_handle_awaitingResult_of_zero hzero]
      exact (settles_doClientInitialization (h.of_eq rfl rfl)).after rfl
    -- Out of range is excluded; a failure is reported at once, or from 3.8 on with its reason.
    have hfailed : u32At block.bytes 0 = 1 ∨ u32At block.bytes 0 = 2 := by omega
    by_cases hversion : Ver.le (3, 8) c.attrs.version
    · rw [run_handle_awaitingResult_of_le hfailed hversion]
      exact settles_of_follows (h.of_eq rfl rfl) rfl (.awaitingReasonLength _) rfl
    · rw [run_handle_awaitingResult_of_lt hfailed hversion]
      exact ⟨.refused h.live secType 4 rfl c.attrs.log _ rfl, rfl⟩
  | awaitingReasonLength secType =>
    rw [run_handle_awaitingReasonLength_of_le (hreason secType rfl)]
    exact settles_of_follows (h.of_eq rfl rfl) rfl (.awaitingReason _ _) rfl
  | awaitingReason secType waitfor =>
    rw [run_handle_awaitingReason waitfor block]
    exact ⟨.refused h.live secType waitfor rfl c.attrs.log _ rfl, rfl⟩
  | serverInit => exact settles_of_follows (h.of_eq rfl rfl) rfl (.serverName _) rfl
  | serverName namelen =>
    refine settles_of_follows ?_ rfl .connection rfl
    exact h.after rfl rfl (List.forall_mem_singleton.2 rfl)
  | connection => exact absurd rfl hne

/-- A client that has refused takes blocks and does nothing. -/
theorem settles_of_refused {env : Env D S} {c : RFBClient D S} {secType size : ℕ}
    (hlive : c.aborted = false) (hready : ready c = true)
    (hphase : c.phase = .expecting (.ended (.security secType) size)) {es : List Event}
    {reason : AuthFailure}
    (hlog : c.attrs.log = es ++ [.called (.vncAuthFailed reason), .loseConnection]) :
    Settles env c ((turn env).run c) := by
  obtain ⟨e, hphase', hlen, -⟩ := exists_of_ready hready
  obtain rfl : e = .ended (.security secType) size := Phase.expecting.inj (hphase'.symm.trans hphase)
  rw [run_turn _ hphase hlen]
  exact ⟨.refused hlive secType size hphase es reason hlog, rfl⟩

/-- A turn of the loop in the exchange, on what can be followed. -/
theorem settles_turn {c : RFBClient D S} {password : String} {key : Bytes}
    (h : Settled (base library decoders) c) (hready : ready c = true) (hin : InHandshake c)
    (hpassword : c.attrs.factory.password = some password) (hkey : vncDes password = .ok key)
    (hfollowable : Followable (base library decoders) c) :
    Settles (base library decoders) c ((turn (base library decoders)).run c) := by
  obtain ⟨e, hphase, hlen, hlive⟩ := exists_of_ready hready
  cases h with
  | aborted habort => exact absurd (hlive.symm.trans habort) (by simp)
  | refused _ secType size hrefused es reason hlog =>
    exact settles_of_refused hlive hready hrefused hlog
  | follows _ hlog hstands =>
    rcases hstands with hinitial | ⟨e', hphase', hfollows⟩
    · exact absurd (hphase.symm.trans hinitial) (by simp)
    obtain rfl : e = e' := Phase.expecting.inj (hphase.symm.trans hphase')
    rw [run_turn _ hphase hlen]
    have hgoes : GoesOn { c with packet := c.packet.drop e.len } := ⟨hlive, hlog⟩
    refine (settles_handle hgoes hphase hfollows ?_ ?_ hpassword hkey ?_ ?_).after rfl
    · rintro rfl
      exact hin.incomplete hphase
    · exact hin.chosen.of_chooses hready hphase hlen
    · rintro secType rfl
      exact hfollowable.result secType _ ⟨hphase, hlen, rfl⟩
    · rintro secType rfl
      exact hfollowable.reason secType _ ⟨hphase, hlen, rfl⟩

/-- A delivery, on what can be followed. -/
theorem settles_deliver {c : RFBClient D S} (data : Bytes) (h : Settled (base library decoders) c)
    (hlive : c.aborted = false) (hfollowable : Followable (base library decoders) (extend c data)) :
    Settles (base library decoders) c ((deliver (base library decoders) data).run c) := by
  cases hphase : c.phase with
  | expecting e =>
    rw [run_deliver_of_expecting _ hphase]
    cases h with
    | aborted habort => exact absurd (hlive.symm.trans habort) (by simp)
    | refused _ secType size hrefused es reason hlog =>
      exact ⟨.refused hlive secType size hrefused es reason hlog, rfl⟩
    | follows _ hlog hstands => exact ⟨.follows hlive hlog hstands, rfl⟩
  | initial =>
    have hgoes : GoesOn (extend c data) := by
      cases h with
      | aborted habort => exact absurd (hlive.symm.trans habort) (by simp)
      | refused _ secType size hrefused => exact absurd (hphase.symm.trans hrefused) (by simp)
      | follows _ hlog _ => exact ⟨hlive, hlog⟩
    rw [run_deliver_of_initial _ hphase, run_handleInitial]
    split_ifs with hheader hpartial
    · have hversion := hfollowable.version hphase hheader
      obtain ⟨version, hsome⟩ :=
        Option.isSome_iff_exists.mp ((negotiate_isSome_iff _).mpr hversion)
      rw [run_answerHeader, hsome]
      have hgreeted : GoesOn (greeted (extend c data) (announced ((extend c data).packet.take 12))
          version) := hgoes.after rfl rfl (List.forall_mem_singleton.2 rfl)
      refine settles_of_follows hgreeted rfl ?_ rfl
      split_ifs
      · exact .numberSecurityTypes
      · exact .auth
    · exact ⟨.follows hlive hgoes.log (.inl hphase), rfl⟩
    · exact (settles_abortConnection _ _).after rfl

/-- A turn that leaves a settled client was made on what can be followed. -/
theorem followable_of_diagnosed_turn {c : RFBClient D S} (h : Settled (base library decoders) c)
    (hready : ready c = true)
    (hdiagnosed : Diagnosed (base library decoders) ((turn (base library decoders)).run c)) :
    Followable (base library decoders) c := by
  obtain ⟨e, hphase, -, hlive⟩ := exists_of_ready hready
  refine ⟨?_, ?_, ?_⟩
  · intro hinitial
    exact absurd (hphase.symm.trans hinitial) (by simp)
  · -- A result out of range closes the connection with no word of it.
    intro secType block hhands
    refine Nat.not_lt.mp fun hgt => ?_
    have hlog : ∀ e ∈ c.attrs.log, e.givesUp = false := by
      cases h with
      | aborted habort => exact absurd (hlive.symm.trans habort) (by simp)
      | refused _ _ _ hrefused => exact absurd (hhands.1.symm.trans hrefused) (by simp [awaitingResult])
      | follows _ hlog _ => exact hlog
    rw [run_turn_of_hands _ hhands, run_handle_awaitingResult_of_gt hgt] at hdiagnosed
    cases hdiagnosed with
    | follows _ hlog' _ =>
      have hlose := hlog' .loseConnection (List.mem_append_right _ (List.mem_singleton.mpr rfl))
      exact absurd hlose (by simp [Event.givesUp])
    | aborted habort => exact absurd (hlive.symm.trans habort) (by simp)
    | refused _ _ _ _ es reason hlog' =>
      have hsplit : c.attrs.log ++ [.loseConnection] =
          (es ++ [.called (.vncAuthFailed reason)]) ++ [.loseConnection] := by
        rw [List.append_assoc]
        exact hlog'
      have hbefore := List.append_cancel_right hsplit
      have hfailed := hlog (.called (.vncAuthFailed reason)) (by rw [hbefore]; simp)
      exact absurd hfailed (by simp [Event.givesUp])
  · -- A reason over the bound raises.
    intro secType block hhands
    refine Nat.not_lt.mp fun hgt => ?_
    rw [run_turn_of_hands _ hhands, run_handle_awaitingReasonLength_of_gt hgt] at hdiagnosed
    exact hdiagnosed

/-- So was such a delivery, while the version header is not complete. -/
theorem followable_of_diagnosed_deliver {c : RFBClient D S} (data : Bytes) (hphase : c.phase = .initial)
    (hdiagnosed : Diagnosed (base library decoders) ((deliver (base library decoders) data).run c)) :
    Followable (base library decoders) (extend c data) := by
  refine ⟨?_, ?_, ?_⟩
  · intro _ hheader
    rw [run_deliver_of_initial _ hphase, run_handleInitial, if_pos hheader, run_answerHeader]
      at hdiagnosed
    refine (negotiate_isSome_iff _).mp ?_
    cases hnegotiate : negotiate (announced ((extend c data).packet.take 12)) with
    | some version => rfl
    | none =>
      rw [hnegotiate] at hdiagnosed
      exact absurd hdiagnosed not_false
  · intro secType block hhands
    exact absurd (hphase.symm.trans hhands.1) (by simp)
  · intro secType block hhands
    exact absurd (hphase.symm.trans hhands.1) (by simp)

/-- A handshake of a server that is no older than 3.3, whose SecurityResults are in range and whose
reasons fit a message is diagnosed at every point: nothing escapes, and the client follows, has
aborted, or has reported the failed authentication and closed the connection. There a handler call
keeps it so exactly if what it finds is of this kind. -/
theorem diagnosed_iff {factory : Factory} {decoding : D} {own : S} {received : Bytes}
    {d : Delivery D S} {password : String} (hpassword : factory.password = some password)
    (hascii : ∀ ch ∈ password.toList, ch.toNat < 128)
    (h : ReachesBy (fun c => InHandshake c ∧ Followable (base library decoders) c)
      (base library decoders) (fresh factory decoding own) received d) :
    Diagnosed (base library decoders) d ∧
      ∀ c, d = .ok () c →
        (ready c = true → InHandshake c →
          (Diagnosed (base library decoders) ((turn (base library decoders)).run c) ↔
            Followable (base library decoders) c)) ∧
        ∀ data, c.aborted = false → c.phase = .initial →
          (Diagnosed (base library decoders) ((deliver (base library decoders) data).run c) ↔
            Followable (base library decoders) (extend c data)) := by
  obtain ⟨key, hkey⟩ := vncDes_of_ascii fun ch hch => hascii ch (List.mem_of_mem_take hch)
  -- Along the run also the factory is the first one, so that the password is there.
  have hall : Diagnosed (base library decoders) d ∧ (client d).attrs.factory = factory := by
    induction h with
    | start => exact ⟨.follows rfl (List.forall_mem_nil _) (.inl rfl), rfl⟩
    | @delivered _ d data _ _ hlive hgood ih =>
      cases d with
      | error e c => exact absurd ih.1 not_false
      | ok _ c =>
        obtain ⟨hdiagnosed, hfactory⟩ := settles_deliver data ih.1 hlive hgood.2
        exact ⟨hdiagnosed, hfactory.trans ih.2⟩
    | @dropped _ d data _ _ _ ih =>
      cases d with
      | error e c => exact absurd ih.1 not_false
      | ok _ c => exact ih
    | turned _ hready hgood ih =>
      obtain ⟨hdiagnosed, hfactory⟩ := settles_turn ih.1 hready hgood.1
        ((congrArg Factory.password ih.2).trans hpassword) hkey hgood.2
      exact ⟨hdiagnosed, hfactory.trans ih.2⟩
  refine ⟨hall.1, ?_⟩
  rintro c rfl
  have hfactory : c.attrs.factory.password = some password :=
    (congrArg Factory.password hall.2).trans hpassword
  refine ⟨?_, ?_⟩
  · intro hready hin
    constructor
    · exact followable_of_diagnosed_turn hall.1 hready
    · intro hfollowable
      exact (settles_turn hall.1 hready hin hfactory hkey hfollowable).1
  · intro data hlive hphase
    constructor
    · exact followable_of_diagnosed_deliver data hphase
    · intro hfollowable
      exact (settles_deliver data hall.1 hlive hfollowable).1

end

/-- A server that greets with something else than a version header. -/
theorem diagnosed_iff_sample :
    let env : Env Unit Unit := base sampleLibrary fun _ => none
    let c₀ : RFBClient Unit Unit := fresh { password := some "pw" } () ()
    Diagnosed env ((deliver env [88]).run c₀) := by
  intro env c₀
  have hgood : InHandshake (extend c₀ [88]) ∧ Followable env (extend c₀ [88]) := by
    refine ⟨⟨by simp [c₀, extend, fresh], ?_⟩, ⟨?_, ?_, ?_⟩⟩
    · intro secType hready
      exact absurd hready (by decide)
    · intro _ hheader
      exact absurd hheader (by decide)
    · rintro secType block ⟨hphase, -⟩
      exact absurd hphase (by simp [c₀, extend, fresh])
    · rintro secType block ⟨hphase, -⟩
      exact absurd hphase (by simp [c₀, extend, fresh])
  have hreach : ReachesBy (fun c => InHandshake c ∧ Followable env c) env c₀ ([] ++ [88])
      ((deliver env [88]).run c₀) := .delivered _ .start rfl rfl hgood
  exact (diagnosed_iff rfl (by simp) hreach).1

/-- A server that announces 2.0: an exception escapes. -/
theorem not_diagnosed_old_version :
    let env : Env Unit Unit := base sampleLibrary fun _ => none
    let c₀ : RFBClient Unit Unit := fresh { password := some "pw" } () ()
    let sent : Bytes := [82, 70, 66, 32, 48, 48, 50, 46, 48, 48, 48, 10]
    Reaches env c₀ sent ((deliver env sent).run c₀) ∧
      (∃ c, (deliver env sent).run c₀ =
        .error ⟨.valueError, "max() arg is an empty sequence"⟩ c ∧ c.attrs.log = []) ∧
      ¬Diagnosed env ((deliver env sent).run c₀) := by
  intro env c₀ sent
  have hraised : (deliver env sent).run c₀ =
      .error ⟨.valueError, "max() arg is an empty sequence"⟩ (extend c₀ sent) := rfl
  have hreach : Reaches env c₀ ([] ++ sent) ((deliver env sent).run c₀) := .delivered sent .start rfl rfl
  refine ⟨hreach, ⟨_, hraised, rfl⟩, ?_⟩
  rw [hraised]
  exact not_false

end RFBClient

end VncDoTool
