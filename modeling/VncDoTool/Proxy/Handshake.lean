import VncDoTool.Capture.Modes
import VncDoTool.Capture.Stripping
import VncDoTool.Proxy.Server

/-!
# Two parsers of one handshake

The proxy parses the client's half of a handshake twice: `HandshakeScrubber` sees both
directions, `RFBServer` only the client's bytes and whether a password is configured.

* `FirstKnown`, `Expects`: where `RFBServer` expects ClientInit in a client's byte stream. It
  reads block after block until one names a version it knows. `log_receive`: there it makes its
  first callback, however the stream is cut.
* `awaitsClientInit`: the scrubber reads it at `Session.clientInitAt`.
* `agreesOnClientInit_iff`: when the two are the same place.
-/

namespace VncDoTool

namespace RFBServer

/-- The versions the parser knows, by bytes 8 to 10 of the block that names one. -/
def KnownVersion (block : Bytes) : Prop :=
  (block.drop 8).take 3 = digits 3 ∨ (block.drop 8).take 3 = digits 5 ∨
    (block.drop 8).take 3 = digits 7 ∨ (block.drop 8).take 3 = digits 8

instance : DecidablePred KnownVersion := fun _ =>
  inferInstanceAs (Decidable (_ ∨ _ ∨ _ ∨ _))

/-- Block `n` of twelve bytes is the first to name a version the parser knows. -/
structure FirstKnown (stream : Bytes) (n : ℕ) : Prop where
  known : KnownVersion (stream.drop (12 * n))
  unknown : ∀ j < n, ¬ KnownVersion (stream.drop (12 * j))

theorem FirstKnown.unique {stream : Bytes} {n n' : ℕ} (h : FirstKnown stream n)
    (h' : FirstKnown stream n') : n = n' := by
  rcases lt_trichotomy n n' with hlt | heq | hgt
  · exact absurd h.known (h'.unknown n hlt)
  · exact heq
  · exact absurd h'.known (h.unknown n' hgt)

/-- How far behind the start of the block that names its version the parser takes a byte for
ClientInit. -/
def serverClientInitAt (stream : Bytes) (passwordRequired : Bool) : ℕ :=
  if (stream.drop 8).take 3 = digits 3 ∨ (stream.drop 8).take 3 = digits 5 then
    12 + if passwordRequired then 16 else 0
  else 13 + if byteAt stream 12 = AuthTypes.vncAuthentication.value then 16 else 0

theorem serverClientInitAt_ge (stream : Bytes) (passwordRequired : Bool) :
    12 ≤ serverClientInitAt stream passwordRequired := by
  rw [serverClientInitAt]
  split_ifs <;> omega

/-- The parser expects ClientInit at `k`. -/
def Expects (stream : Bytes) (passwordRequired : Bool) (k : ℕ) : Prop :=
  ∃ n, FirstKnown stream n ∧
    k = 12 * n + serverClientInitAt (stream.drop (12 * n)) passwordRequired

theorem Expects.unique {stream : Bytes} {passwordRequired : Bool} {k k' : ℕ}
    (h : Expects stream passwordRequired k) (h' : Expects stream passwordRequired k') :
    k = k' := by
  obtain ⟨n, hfirst, rfl⟩ := h
  obtain ⟨n', hfirst', rfl⟩ := h'
  rw [hfirst.unique hfirst']

/-- Where a parser stands in a client's stream. -/
def Phase (stream : Bytes) (s : RFBServer) : Prop :=
  match s.handler with
  | .version => s.log = [] ∧ ∃ n, s.consumed = 12 * n ∧
      ∀ j < n, ¬ KnownVersion (stream.drop (12 * j))
  | .security => s.log = [] ∧ ∃ n, FirstKnown stream n ∧ s.consumed = 12 * n + 12 ∧
      serverClientInitAt (stream.drop (12 * n)) s.passwordRequired =
        13 + if byteAt stream s.consumed = AuthTypes.vncAuthentication.value then 16 else 0
  | .vncAuthResponse => s.log = [] ∧ Expects stream s.passwordRequired (s.consumed + 16)
  | .clientInit => s.log = [] ∧ Expects stream s.passwordRequired s.consumed
  | _ => ∃ k, Expects stream s.passwordRequired k ∧ k < s.consumed ∧
      ∃ messages, s.log = (k, .clientInit (byteAt stream k)) :: messages ∧
        ∀ e ∈ messages, k < e.1 ∧ e.2.IsMessage

/-- The invariant of a parser that has received `received` of the client's stream. -/
structure Following (stream received : Bytes) (s : RFBServer) : Prop where
  le : s.consumed ≤ received.length
  buffer : s.buffer = received.drop s.consumed
  phase : received <+: stream → Phase stream s

theorem byteAt_drop (b : Bytes) (n i : ℕ) : byteAt (b.drop n) i = byteAt b (n + i) := by
  simp [byteAt, List.getD_eq_getElem?_getD]

theorem Following.append {stream received : Bytes} {s : RFBServer}
    (h : Following stream received s) (data : Bytes) :
    Following stream (received ++ data) { s with buffer := s.buffer ++ data } where
  le := by
    have := h.le
    simp only [List.length_append]
    omega
  buffer := by
    simp [h.buffer, List.drop_append_of_le_length h.le]
  phase hpre := h.phase ((List.prefix_append received data).trans hpre)

/-- A handler that deletes keeps the invariant's account of the buffer. -/
theorem Following.of_deletes {stream received : Bytes} {s s' : RFBServer}
    (h : Following stream received s) (hd : Deletes s s')
    (hphase : received <+: stream → Phase stream s') : Following stream received s' where
  le := by
    have := h.le
    have := hd.ge
    rw [h.buffer, List.length_drop] at this
    omega
  buffer := by
    rw [hd.buffer, h.buffer, List.drop_drop]
    congr 1
    have := hd.le
    omega
  phase := hphase

/-- Behind ClientInit each handler keeps the phase. -/
theorem Phase.of_handled {stream : Bytes} {s s' : RFBServer} (hprotocol : s.handler.InProtocol)
    (h : Phase stream s) (hh : Handled s.consumed s s') : Phase stream s' := by
  have hprotocol' := hh.inProtocol hprotocol
  -- Whichever message is expected, the phase says the same of ClientInit and of the log.
  have hmessages : ∃ k, Expects stream s.passwordRequired k ∧ k < s.consumed ∧
      ∃ messages, s.log = (k, .clientInit (byteAt stream k)) :: messages ∧
        ∀ e ∈ messages, k < e.1 ∧ e.2.IsMessage := by
    rw [Phase] at h
    cases hhandler : s.handler <;> rw [hhandler] at h hprotocol <;>
      first | exact h | exact hprotocol.elim
  obtain ⟨k, hexpects, hlt, messages, hlog, hall⟩ := hmessages
  have hgoal : ∃ k, Expects stream s'.passwordRequired k ∧ k < s'.consumed ∧
      ∃ messages, s'.log = (k, .clientInit (byteAt stream k)) :: messages ∧
        ∀ e ∈ messages, k < e.1 ∧ e.2.IsMessage := by
    refine ⟨k, hh.passwordRequired ▸ hexpects, hlt.trans_le hh.le, ?_⟩
    rcases hh.log with hsame | ⟨c, hc, hlog'⟩
    · exact ⟨messages, hsame.trans hlog, hall⟩
    · refine ⟨messages ++ [(s.consumed, c)], by rw [hlog', hlog, List.cons_append], ?_⟩
      intro e he
      rcases List.mem_append.mp he with he | he
      · exact hall e he
      · obtain rfl : e = (s.consumed, c) := by simpa using he
        exact ⟨hlt, hc⟩
  rw [Phase]
  cases hhandler' : s'.handler <;> rw [hhandler'] at hprotocol' <;>
    first | exact hgoal | exact hprotocol'.elim

theorem deletes_handleVersion (s : RFBServer) : Deletes s s.handleVersion := by
  have h := Deletes.delete s 12
  simp only [handleVersion]
  split_ifs <;> first
    | exact ⟨h.le, h.ge, h.buffer, h.passwordRequired⟩

theorem consumed_handleVersion (s : RFBServer) :
    s.handleVersion.consumed = s.consumed + min 12 s.buffer.length := by
  simp only [handleVersion]
  split_ifs <;> rfl

theorem log_handleVersion (s : RFBServer) : s.handleVersion.log = s.log := by
  simp only [handleVersion]
  split_ifs <;> rfl

theorem handler_handleVersion (s : RFBServer) : s.handleVersion.handler =
    if ((s.buffer.take 12).drop 8).take 3 = digits 3 ∨
        ((s.buffer.take 12).drop 8).take 3 = digits 5 then
      if s.passwordRequired then .vncAuthResponse else .clientInit
    else if ((s.buffer.take 12).drop 8).take 3 = digits 7 ∨
        ((s.buffer.take 12).drop 8).take 3 = digits 8 then .security
    else s.handler := by
  simp only [handleVersion]
  split_ifs <;> simp_all

/-- The version a parser reads is the version in the stream. -/
theorem version_of_isPrefix {stream received : Bytes} (h : received <+: stream) {n : ℕ}
    (hlen : n + 12 ≤ received.length) :
    (((received.drop n).take 12).drop 8).take 3 = ((stream.drop n).drop 8).take 3 := by
  obtain ⟨t, rfl⟩ := h
  rw [List.drop_take, List.take_take, List.drop_drop, List.drop_drop,
    List.drop_append_of_le_length (by omega),
    List.take_append_of_le_length (by rw [List.length_drop]; omega)]
  rfl

/-- The byte a parser reads is the byte of the stream it has come to. -/
theorem byteAt_of_isPrefix {stream received : Bytes} (h : received <+: stream) {n : ℕ}
    (hlen : n < received.length) : byteAt (received.drop n) 0 = byteAt stream n := by
  obtain ⟨t, rfl⟩ := h
  rw [byteAt_append_left t hlen, byteAt_drop, Nat.add_zero]

/-- Every handler deletes from the front of the buffer. -/
theorem deletes_handle (s : RFBServer) : Deletes s s.handle.1 := by
  by_cases hprotocol : s.handler.InProtocol
  · exact (handled_handle hprotocol).toDeletes
  · rw [RFBServer.handle]
    cases hhandler : s.handler <;> rw [hhandler] at hprotocol <;> dsimp only
    case version => exact deletes_handleVersion s
    case security => exact (Deletes.delete s 1).arm _
    case vncAuthResponse => exact (Deletes.delete s 16).arm _
    case clientInit => exact ((Deletes.delete s 1).callback _ _).arm _
    all_goals exact absurd trivial hprotocol

/-- The first block that names a known version settles where ClientInit is expected. A block that
names none is skipped, and the next one taken for a version. -/
theorem phase_handleVersion {stream received : Bytes} {s : RFBServer} {n : ℕ}
    (hpre : received <+: stream) (hbuffer : s.buffer = received.drop s.consumed)
    (hneed : 12 ≤ s.buffer.length) (hhandler : s.handler = .version) (hlog : s.log = [])
    (hconsumed : s.consumed = 12 * n) (hunknown : ∀ j < n, ¬ KnownVersion (stream.drop (12 * j))) :
    Phase stream s.handleVersion := by
  have hlen := congrArg List.length hbuffer
  rw [List.length_drop] at hlen
  have hversion := version_of_isPrefix hpre (n := s.consumed) (by omega)
  have hdeleted : s.handleVersion.consumed = 12 * n + 12 := by
    rw [consumed_handleVersion, hconsumed, min_eq_left hneed]
  have hpassword := (deletes_handleVersion s).passwordRequired
  have harmed := handler_handleVersion s
  rw [hbuffer, hversion, hconsumed, hhandler] at harmed
  by_cases hknown : KnownVersion (stream.drop (12 * n))
  · -- What the parser goes on to expect is where `serverClientInitAt` puts ClientInit.
    have hfirst : FirstKnown stream n := ⟨hknown, hunknown⟩
    have hplace : ∀ k, k = 12 * n + serverClientInitAt (stream.drop (12 * n)) s.passwordRequired →
        Expects stream s.passwordRequired k := fun k hk => ⟨n, hfirst, hk⟩
    rw [Phase, harmed, hdeleted, log_handleVersion, hlog, hpassword]
    by_cases hold : ((stream.drop (12 * n)).drop 8).take 3 = digits 3 ∨
        ((stream.drop (12 * n)).drop 8).take 3 = digits 5
    · rw [if_pos hold]
      cases hrequired : s.passwordRequired with
      | false =>
        refine ⟨rfl, hrequired ▸ hplace _ ?_⟩
        rw [serverClientInitAt, if_pos hold, hrequired, if_neg Bool.false_ne_true]
      | true =>
        refine ⟨rfl, hrequired ▸ hplace _ ?_⟩
        rw [serverClientInitAt, if_pos hold, hrequired, if_pos rfl]
    · have hnew : ((stream.drop (12 * n)).drop 8).take 3 = digits 7 ∨
          ((stream.drop (12 * n)).drop 8).take 3 = digits 8 := by
        rcases hknown with h | h | h
        · exact absurd (Or.inl h) hold
        · exact absurd (Or.inr h) hold
        · exact h
      rw [if_neg hold, if_pos hnew]
      refine ⟨rfl, n, hfirst, rfl, ?_⟩
      rw [serverClientInitAt, if_neg hold, byteAt_drop]
  · -- No branch arms another handler: the parser waits for a version again.
    have hnone : ¬ (((stream.drop (12 * n)).drop 8).take 3 = digits 3 ∨
        ((stream.drop (12 * n)).drop 8).take 3 = digits 5) ∧
        ¬ (((stream.drop (12 * n)).drop 8).take 3 = digits 7 ∨
          ((stream.drop (12 * n)).drop 8).take 3 = digits 8) :=
      ⟨fun h => hknown (h.imp_right Or.inl), fun h => hknown (Or.inr (Or.inr h))⟩
    rw [if_neg hnone.1, if_neg hnone.2] at harmed
    rw [Phase, harmed, log_handleVersion, hdeleted]
    refine ⟨hlog, n + 1, rfl, fun j hj => ?_⟩
    rcases Nat.lt_succ_iff_lt_or_eq.mp hj with hlt | rfl
    · exact hunknown j hlt
    · exact hknown

/-- The invariant goes from handler to handler. -/
theorem Following.handle {stream received : Bytes} {s : RFBServer}
    (h : Following stream received s) (hneed : s.handler.need ≤ s.buffer.length) :
    Following stream received s.handle.1 := by
  have hbuffer := h.buffer
  have hlen := congrArg List.length hbuffer
  rw [List.length_drop] at hlen
  refine h.of_deletes (deletes_handle s) fun hpre => ?_
  have hphase := h.phase hpre
  by_cases hprotocol : s.handler.InProtocol
  · exact hphase.of_handled hprotocol (handled_handle hprotocol)
  cases hhandler : s.handler <;> rw [hhandler] at hneed hprotocol <;>
    simp only [Handler.need] at hneed <;> simp only [Phase, hhandler] at hphase <;>
    rw [RFBServer.handle, hhandler] <;> dsimp only
  case version =>
    obtain ⟨hlog, n, hconsumed, hunknown⟩ := hphase
    exact phase_handleVersion hpre hbuffer hneed hhandler hlog hconsumed hunknown
  case security =>
    obtain ⟨hlog, n, hfirst, hconsumed, hplace⟩ := hphase
    have hsectype : byteAt s.buffer 0 = byteAt stream s.consumed := by
      rw [hbuffer]
      exact byteAt_of_isPrefix hpre (by omega)
    rw [Phase, handleSecurity, handler_arm, hsectype]
    by_cases hvnc : byteAt stream s.consumed = AuthTypes.vncAuthentication.value
    · rw [if_pos hvnc] at hplace ⊢
      refine ⟨hlog, n, hfirst, ?_⟩
      simp only [passwordRequired_arm, passwordRequired_delete, consumed_arm, consumed_delete,
        hplace, hconsumed]
      omega
    · rw [if_neg hvnc] at hplace ⊢
      refine ⟨hlog, n, hfirst, ?_⟩
      simp only [passwordRequired_arm, passwordRequired_delete, consumed_arm, consumed_delete,
        hplace, hconsumed]
      omega
  case vncAuthResponse =>
    simp only [Phase, handleVNCAuthResponse, handler_arm, consumed_arm, consumed_delete, log_arm,
      log_delete, passwordRequired_arm, passwordRequired_delete, min_eq_left hneed]
    exact hphase
  case clientInit =>
    -- The first callback: nothing was logged before, and messages come behind it.
    obtain ⟨hlog, hexpects⟩ := hphase
    have hshared : byteAt s.buffer 0 = byteAt stream s.consumed := by
      rw [hbuffer]
      exact byteAt_of_isPrefix hpre (by omega)
    simp only [Phase, handleClientInit, handler_arm, consumed_arm, consumed_callback,
      consumed_delete, log_arm, log_callback, log_delete, hlog, hshared, passwordRequired_arm,
      passwordRequired_callback, passwordRequired_delete]
    exact ⟨s.consumed, hexpects, by omega, [], rfl, by simp⟩
  all_goals exact absurd trivial hprotocol

/-! ## The first callback -/

/-- The loop has stopped for lack of bytes, or behind ClientInit. -/
def Settled (s : RFBServer) : Prop :=
  s.handler.InProtocol ∨ s.buffer.length < s.handler.need

/-- Only the handlers behind ClientInit raise. -/
theorem inProtocol_of_raises {s s' : RFBServer} {e : ServerError} (h : s.handle = (s', some e)) :
    s.handler.InProtocol := by
  rw [RFBServer.handle] at h
  cases hhandler : s.handler <;> rw [hhandler] at h <;> first | cases h | trivial

theorem Runs.settled {s : RFBServer} {o : Outcome} (h : Runs s o) : Settled o.1 := by
  induction h with
  | stop h => exact .inr h
  | raise _ hhandle =>
    have hprotocol := inProtocol_of_raises hhandle
    have hhandled := (handled_handle hprotocol).inProtocol hprotocol
    rw [hhandle] at hhandled
    exact .inl hhandled
  | step _ _ _ ih => exact ih

theorem settled_receive {s : RFBServer} (h : Settled s) (chunks : List Bytes) :
    Settled (receive chunks s).1 := by
  induction chunks generalizing s with
  | nil => exact h
  | cons data chunks ih => exact ih (runs_dataReceived data s).settled

/-- A new parser waits for the version. -/
theorem following_new (stream : Bytes) (passwordRequired : Bool) :
    Following stream [] { passwordRequired } where
  le := Nat.zero_le _
  buffer := rfl
  phase _ := ⟨rfl, 0, rfl, fun j hj => absurd hj (Nat.not_lt_zero j)⟩

/-- However a client's stream is cut, the parser ends up where the invariant says. -/
theorem following_receive (chunks : List Bytes) (passwordRequired : Bool) :
    (receive chunks { passwordRequired }).1.passwordRequired = passwordRequired ∧
      Following chunks.flatten chunks.flatten (receive chunks { passwordRequired }).1 :=
  receive_induction
    (P := fun received s => s.passwordRequired = passwordRequired ∧
      Following chunks.flatten received s)
    (fun _ data _ h => ⟨h.1, h.2.append data⟩)
    (fun _ s h hneed => ⟨(deletes_handle s).passwordRequired.trans h.1, h.2.handle hneed⟩)
    [] ⟨rfl, following_new _ _⟩ chunks

/-- Wherever the loop has stopped, the first callback made is ClientInit's, with the byte the
parser expected there, and messages are called back only from behind it. A stream that reaches
that byte has made it. -/
theorem log_receive (chunks : List Bytes) (passwordRequired : Bool) :
    ((receive chunks { passwordRequired }).1.log = [] ∧
        ∀ k, Expects chunks.flatten passwordRequired k → chunks.flatten.length ≤ k) ∨
      ∃ k, Expects chunks.flatten passwordRequired k ∧
        ∃ messages, (receive chunks { passwordRequired }).1.log =
            (k, .clientInit (byteAt chunks.flatten k)) :: messages ∧
          ∀ e ∈ messages, k < e.1 ∧ e.2.IsMessage := by
  obtain ⟨hpassword, hfollowing⟩ := following_receive chunks passwordRequired
  have hsettled : Settled (receive chunks { passwordRequired }).1 :=
    settled_receive (.inr (by simp [Handler.need])) chunks
  revert hpassword hfollowing hsettled
  generalize (receive chunks { passwordRequired }).1 = s
  rintro rfl hfollowing hsettled
  have hphase := hfollowing.phase (List.prefix_refl _)
  have hle := hfollowing.le
  have hlen := congrArg List.length hfollowing.buffer
  rw [List.length_drop] at hlen
  cases hhandler : s.handler <;> simp only [Phase, hhandler] at hphase <;>
    simp only [Settled, hhandler, Handler.InProtocol, Handler.need, false_or] at hsettled
  -- Stopped in the handshake the stream ends before the byte.
  case version =>
    obtain ⟨hlog, n, hconsumed, hunknown⟩ := hphase
    refine .inl ⟨hlog, ?_⟩
    rintro k ⟨n', hfirst, rfl⟩
    have hn : n ≤ n' := Nat.le_of_not_lt fun hlt => hunknown n' hlt hfirst.known
    have hplace := serverClientInitAt_ge (chunks.flatten.drop (12 * n')) s.passwordRequired
    omega
  case security =>
    obtain ⟨hlog, n, hfirst, hconsumed, hplace⟩ := hphase
    refine .inl ⟨hlog, fun k hk => ?_⟩
    obtain rfl := hk.unique ⟨n, hfirst, rfl⟩
    rw [hplace]
    omega
  case vncAuthResponse =>
    refine .inl ⟨hphase.1, fun k hk => ?_⟩
    obtain rfl := hk.unique hphase.2
    omega
  case clientInit =>
    refine .inl ⟨hphase.1, fun k hk => ?_⟩
    obtain rfl := hk.unique hphase.2
    omega
  all_goals
    obtain ⟨k, hexpects, -, hlog⟩ := hphase
    exact .inr ⟨k, hexpects, hlog⟩

end RFBServer

/-! ## Where the scrubber reads ClientInit -/

namespace Session

open HandshakeScrubber

variable (s : Session)

/-- The messages before ClientInit, in turn order. -/
def beforeClientInit : List Event :=
  s.toNegotiation.turns ++ s.exchange ++ s.result

/-- The number of bytes the client has sent before ClientInit. -/
def clientInitAt : ℕ := (bytesOn .c2s s.beforeClientInit).length

/-- The client's bytes up to ClientInit. -/
theorem bytesOn_turns : bytesOn .c2s s.turns = bytesOn .c2s s.beforeClientInit ++ [s.shared] := by
  simp [turns, completion, beforeClientInit]

theorem bytesOn_beforeClientInit : bytesOn .c2s s.beforeClientInit =
    s.reply.bytes ++
      (if Ver.le (3, 7) s.version then [UInt8.ofNat s.kind.sectype.value] else []) ++
      s.client.bytes := by
  have hresult : bytesOn .c2s s.result = [] := by
    rw [result]
    split <;> simp
  by_cases h : Ver.le (3, 7) s.version <;>
    simp [beforeClientInit, Negotiation.turns, Negotiation.offered, exchange, h, hresult]

theorem clientInitAt_eq : s.clientInitAt =
    12 + (if Ver.le (3, 7) s.version then 1 else 0) + s.kind.clientLen := by
  rw [clientInitAt, bytesOn_beforeClientInit]
  by_cases h : Ver.le (3, 7) s.version <;> simp [h]
  omega

end Session

namespace HandshakeScrubber

/-- The scrubber waits for ClientInit: one byte of the client's, and then ServerInit. -/
def AwaitsClientInit (s : HandshakeScrubber) : Prop :=
  s.waiting = some ⟨.c2s, 1⟩ ∧ ∀ shared, (feed .c2s [shared] s).2.waiting = some ⟨.s2c, 24⟩

theorem SameReading.awaitsClientInit {s s' : HandshakeScrubber} (h : SameReading s s')
    (hs : s.AwaitsClientInit) : s'.AwaitsClientInit := by
  refine ⟨h.waiting_eq ▸ hs.1, fun shared => ?_⟩
  rw [← (sameReading_feed h .c2s [shared]).waiting_eq]
  exact hs.2 shared

theorem awaitsClientInit_initialisation (f : Fields) :
    (atRest (initialisation.run f)).AwaitsClientInit := by
  refine ⟨rfl, fun shared => ?_⟩
  have h : feed .c2s (Block.single shared).bytes (atRest (initialisation.run f)) = _ :=
    feed_message (.single shared) (by decide) rfl (feedLoop_of_idle ?_ .c2s)
  · rw [Block.bytes_single] at h
    rw [h]
    rfl
  · simp

/-- Whatever the setting, a scrubber that has seen a session up to ClientInit waits for it. -/
theorem awaitsClientInit (s : Session) (preserveAuth : Bool) {events : List Event}
    (h : arrivals events = arrivals s.beforeClientInit) :
    (feedAll events (init preserveAuth)).2.AwaitsClientInit := by
  refine (sameReading_init false preserveAuth events).awaitsClientInit ?_
  obtain ⟨recording, hresult⟩ := records_result s (f := s.kind.exchanged s.fields) rfl
  have hrecords := (records_exchange s).append hresult
  rw [feedAll_eq_of_arrivals h, Session.beforeClientInit, hrecords]
  exact awaitsClientInit_initialisation _

end HandshakeScrubber

/-! ## When the two agree -/

namespace RFBServer

open HandshakeScrubber

/-- The versions whose handshakes are followed. -/
def versions : List Ver := [(3, 3), (3, 7), (3, 8)]

/-- The digits the parser knows are the version's. -/
theorem snd_version {s : Session} {m : UInt8} (h : (s.reply.bytes.drop 8).take 3 = digits m)
    (hint : PyText.int (digits m) = some (m.toNat : ℤ)) : s.version.2 = m.toNat := by
  have hparses := s.parses
  rw [parseVersion, h, hint] at hparses
  cases hmajor : PyText.int ((s.reply.bytes.drop 4).take 3) with
  | none =>
    rw [hmajor] at hparses
    cases hparses
  | some major =>
    rw [hmajor] at hparses
    rw [← Option.some_injective _ hparses]

/-- A reply the parser knows, in a session of one of the versions: the digits of 3.3 are `003`, and
those of the later versions neither `003` nor `005`. -/
theorem old_iff {s : Session} (hversion : s.version ∈ versions)
    (hknown : KnownVersion s.reply.bytes) :
    ((s.reply.bytes.drop 8).take 3 = digits 3 ∨ (s.reply.bytes.drop 8).take 3 = digits 5) ↔
      s.version = (3, 3) := by
  have hminor : ∀ m : UInt8, (s.reply.bytes.drop 8).take 3 = digits m →
      PyText.int (digits m) = some (m.toNat : ℤ) → s.version.2 = m.toNat :=
    fun m => snd_version
  simp only [versions, List.mem_cons, List.not_mem_nil, or_false] at hversion
  constructor
  · intro hold
    -- The minor version is what `int` makes of the digits.
    rcases hold with h | h
    · have := hminor 3 h (by decide)
      rcases hversion with hv | hv | hv <;> rw [hv] at this ⊢ <;> simp at this
    · have := hminor 5 h (by decide)
      rcases hversion with hv | hv | hv <;> rw [hv] at this <;> simp at this
  · intro hv
    rcases hknown with h | h | h | h
    · exact .inl h
    · exact .inr h
    · have := hminor 7 h (by decide)
      rw [hv] at this
      simp at this
    · have := hminor 8 h (by decide)
      rw [hv] at this
      simp at this

/-- The versions are old, and dictate a type, or have the client choose one. -/
theorem le_iff {version : Ver} (hversion : version ∈ versions) :
    Ver.le (3, 7) version ↔ version ≠ (3, 3) := by
  simp only [versions, List.mem_cons, List.not_mem_nil, or_false] at hversion
  rcases hversion with rfl | rfl | rfl <;> decide

/-- What stands behind the block that names a version does not change what it names. -/
theorem knownVersion_append {block : Bytes} (h : 11 ≤ block.length) (later : Bytes) :
    KnownVersion (block ++ later) ↔ KnownVersion block := by
  rw [KnownVersion, KnownVersion, List.drop_append_of_le_length (by omega),
    List.take_append_of_le_length (by rw [List.length_drop]; omega)]

theorem firstKnown_append {stream : Bytes} {n : ℕ} (h : 12 * n + 11 ≤ stream.length)
    (later : Bytes) : FirstKnown (stream ++ later) n ↔ FirstKnown stream n := by
  have hblock : ∀ j ≤ n, KnownVersion ((stream ++ later).drop (12 * j)) ↔
      KnownVersion (stream.drop (12 * j)) := by
    intro j hj
    rw [List.drop_append_of_le_length (by omega)]
    exact knownVersion_append (by rw [List.length_drop]; omega) later
  constructor
  · exact fun hfirst => ⟨(hblock n le_rfl).mp hfirst.known,
      fun j hj => mt (hblock j hj.le).mpr (hfirst.unknown j hj)⟩
  · exact fun hfirst => ⟨(hblock n le_rfl).mpr hfirst.known,
      fun j hj => mt (hblock j hj.le).mp (hfirst.unknown j hj)⟩

theorem serverClientInitAt_append {stream : Bytes} (h : 12 < stream.length) (later : Bytes)
    (passwordRequired : Bool) : serverClientInitAt (stream ++ later) passwordRequired =
      serverClientInitAt stream passwordRequired := by
  rw [serverClientInitAt, serverClientInitAt, List.drop_append_of_le_length (by omega),
    List.take_append_of_le_length (by rw [List.length_drop]; omega), byteAt_append_left later h]

/-- The client's bytes begin with its reply. -/
theorem bytesOn_turns_reply (s : Session) : ∃ rest, bytesOn .c2s s.turns = s.reply.bytes ++ rest :=
  ⟨_, by rw [s.bytesOn_turns, s.bytesOn_beforeClientInit, List.append_assoc, List.append_assoc]⟩

/-- What a parser that sees only the client must know. Either the reply writes its version in the
digits the parser looks for, the exchange is not one the parser cannot skip, and before 3.7 the flag
says whether there is one; or the reply does not, and a Diffie-Hellman exchange, by what is in it,
makes up for it: the parser takes twelve bytes of it for a version, and the place it expects from
there is the right one. -/
def Informed (s : Session) (passwordRequired : Bool) : Prop :=
  (KnownVersion s.reply.bytes ∧ s.kind.sectype ≠ .diffieHellman ∧
      (s.version = (3, 3) → (passwordRequired = true ↔ s.kind.sectype = .vncAuthentication))) ∨
    (¬ KnownVersion s.reply.bytes ∧ s.kind.sectype = .diffieHellman ∧
      ∃ n, FirstKnown (bytesOn .c2s s.turns) n ∧
        12 * n + serverClientInitAt ((bytesOn .c2s s.turns).drop (12 * n)) passwordRequired =
          s.clientInitAt)

/-- With a reply the parser knows: how far its place is right. -/
theorem serverClientInitAt_eq_iff {s : Session} (hversion : s.version ∈ versions)
    (hknown : KnownVersion s.reply.bytes) (passwordRequired : Bool) :
    serverClientInitAt (bytesOn .c2s s.turns) passwordRequired = s.clientInitAt ↔
      s.kind.sectype ≠ .diffieHellman ∧
        (s.version = (3, 3) → (passwordRequired = true ↔ s.kind.sectype = .vncAuthentication)) := by
  have hdigits : ((bytesOn .c2s s.turns).drop 8).take 3 = (s.reply.bytes.drop 8).take 3 := by
    obtain ⟨rest, hrest⟩ := bytesOn_turns_reply s
    rw [hrest, List.drop_append_of_le_length (by simp),
      List.take_append_of_le_length (by simp)]
  have hard : ∀ head, 128 ≤ (AuthKind.ard head).clientLen := fun head => by
    simp [AuthKind.clientLen, ardCredentialsLen]
  rw [serverClientInitAt, hdigits, s.clientInitAt_eq]
  by_cases hold : s.version = (3, 3)
  · -- The type is dictated: the parser goes by its flag.
    rw [if_pos ((old_iff hversion hknown).mpr hold), if_neg fun h => (le_iff hversion).mp h hold]
    cases hkind : s.kind with
    | none => cases passwordRequired <;> simp [AuthKind.sectype, AuthKind.clientLen, hold]
    | vnc => cases passwordRequired <;> simp [AuthKind.sectype, AuthKind.clientLen, hold]
    | ard head =>
      have := hard head
      cases passwordRequired <;> simp [AuthKind.sectype] <;> omega
  · -- The client chooses: the parser reads the type, and knows the length of one response.
    have hnew := (le_iff hversion).mpr hold
    have hsectype : byteAt (bytesOn .c2s s.turns) 12 = s.kind.sectype.value := by
      rw [s.bytesOn_turns, s.bytesOn_beforeClientInit, if_pos hnew]
      have hbyte := s.kind.toNat_sectype
      simpa [byteAt, List.getD_eq_getElem?_getD, List.getElem?_append] using hbyte
    rw [if_neg (mt (old_iff hversion hknown).mp hold), if_pos hnew, hsectype]
    cases hkind : s.kind with
    | none => simp [AuthKind.sectype, AuthKind.clientLen, AuthTypes.value, hold]
    | vnc => simp [AuthKind.sectype, AuthKind.clientLen, hold]
    | ard head =>
      have := hard head
      simp [AuthKind.sectype, AuthTypes.value]
      omega

/-- The parser expects ClientInit where it is if and only if it is informed. -/
theorem expects_clientInitAt_iff {s : Session} (hversion : s.version ∈ versions)
    (passwordRequired : Bool) (later : Bytes) :
    Expects (bytesOn .c2s s.turns ++ later) passwordRequired s.clientInitAt ↔
      Informed s passwordRequired := by
  have hlength : (bytesOn .c2s s.turns).length = s.clientInitAt + 1 := by
    rw [s.bytesOn_turns, List.length_append, List.length_singleton, Session.clientInitAt]
  have hstream : Expects (bytesOn .c2s s.turns ++ later) passwordRequired s.clientInitAt ↔
      ∃ n, FirstKnown (bytesOn .c2s s.turns) n ∧
        12 * n + serverClientInitAt ((bytesOn .c2s s.turns).drop (12 * n)) passwordRequired =
          s.clientInitAt := by
    -- A place in the session is settled by the session.
    have hplace : ∀ n, 12 * n + 12 < (bytesOn .c2s s.turns).length →
        serverClientInitAt ((bytesOn .c2s s.turns ++ later).drop (12 * n)) passwordRequired =
          serverClientInitAt ((bytesOn .c2s s.turns).drop (12 * n)) passwordRequired := by
      intro n hn
      rw [List.drop_append_of_le_length (by omega)]
      exact serverClientInitAt_append (by rw [List.length_drop]; omega) later passwordRequired
    constructor
    · rintro ⟨n, hfirst, hn⟩
      have hge := serverClientInitAt_ge ((bytesOn .c2s s.turns ++ later).drop (12 * n))
        passwordRequired
      have hlt : 12 * n + 12 < (bytesOn .c2s s.turns).length := by omega
      rw [hplace n hlt] at hn
      exact ⟨n, (firstKnown_append (by omega) later).mp hfirst, hn.symm⟩
    · rintro ⟨n, hfirst, hn⟩
      have hge := serverClientInitAt_ge ((bytesOn .c2s s.turns).drop (12 * n)) passwordRequired
      refine ⟨n, (firstKnown_append (by omega) later).mpr hfirst, ?_⟩
      rw [hplace n (by omega), hn]
  have hzero : KnownVersion (bytesOn .c2s s.turns) ↔ KnownVersion s.reply.bytes := by
    obtain ⟨rest, hrest⟩ := bytesOn_turns_reply s
    rw [hrest]
    exact knownVersion_append (by simp) rest
  rw [hstream, Informed]
  by_cases hknown : KnownVersion s.reply.bytes
  · have hfirst : FirstKnown (bytesOn .c2s s.turns) 0 :=
      ⟨hzero.mpr hknown, fun j hj => absurd hj (Nat.not_lt_zero j)⟩
    rw [← serverClientInitAt_eq_iff hversion hknown]
    constructor
    · rintro ⟨n, hn, hplace⟩
      obtain rfl := hn.unique hfirst
      simpa [hknown] using hplace
    · rintro (⟨-, hplace⟩ | ⟨hunknown, -⟩)
      · exact ⟨0, hfirst, by simpa using hplace⟩
      · exact absurd hknown hunknown
  · constructor
    · rintro ⟨n, hn, hplace⟩
      refine .inr ⟨hknown, ?_, n, hn, hplace⟩
      have hpos : n ≠ 0 := by
        rintro rfl
        exact hknown (hzero.mp hn.known)
      -- A place behind the first block is too far back for a short exchange.
      rw [s.clientInitAt_eq, serverClientInitAt] at hplace
      cases hkind : s.kind with
      | none =>
        simp only [hkind, AuthKind.clientLen] at hplace
        split_ifs at hplace <;> omega
      | vnc =>
        simp only [hkind, AuthKind.clientLen] at hplace
        split_ifs at hplace <;> omega
      | ard head => rfl
    · rintro (⟨h, -⟩ | ⟨-, -, h⟩)
      · exact absurd h hknown
      · exact h

/-- The two parsers agree on a session: when every byte before ClientInit has reached a scrubber,
it waits for ClientInit, and the parser's first callback is ClientInit's, for the byte behind
just these. What it calls back later it reads from behind that byte. -/
def AgreesOnClientInit (s : Session) (preserveAuth passwordRequired : Bool)
    (chunks : List Bytes) : Prop :=
  ∀ events, arrivals events = arrivals s.beforeClientInit →
    (feedAll events (init preserveAuth)).2.AwaitsClientInit ∧
      ∃ messages, (receive chunks { passwordRequired }).1.log =
          ((bytesOn .c2s events).length, .clientInit s.shared.toNat) :: messages ∧
        ∀ e ∈ messages, (bytesOn .c2s events).length < e.1 ∧ e.2.IsMessage

/-- Whatever the setting, the flag and the chunks the client's bytes come in, the two parsers agree
on a session exactly when the one that sees only the client is informed. -/
theorem agreesOnClientInit_iff (s : Session) (hversion : s.version ∈ versions)
    (preserveAuth passwordRequired : Bool) (later : Bytes) {chunks : List Bytes}
    (hchunks : chunks.flatten = bytesOn .c2s s.turns ++ later) :
    AgreesOnClientInit s preserveAuth passwordRequired chunks ↔ Informed s passwordRequired := by
  rw [← expects_clientInitAt_iff hversion passwordRequired later, ← hchunks]
  have hlog := log_receive chunks passwordRequired
  constructor
  · intro h
    obtain ⟨-, messages, hagreed, -⟩ := h s.beforeClientInit rfl
    -- The place it was called back for is one the parser expected.
    rcases hlog with ⟨hnil, -⟩ | ⟨k, hexpects, messages', hserver, -⟩
    · rw [hnil] at hagreed
      cases hagreed
    · rw [hserver, List.cons.injEq, Prod.mk.injEq] at hagreed
      obtain rfl : k = s.clientInitAt := hagreed.1.1
      exact hexpects
  · intro h events hevents
    have hlength : (bytesOn .c2s events).length = s.clientInitAt := by
      rw [bytesOn_eq_onTap, hevents, ← bytesOn_eq_onTap, Session.clientInitAt]
    rw [hlength]
    refine ⟨awaitsClientInit s preserveAuth hevents, ?_⟩
    have hshared : byteAt chunks.flatten s.clientInitAt = s.shared.toNat := by
      rw [hchunks, s.bytesOn_turns, Session.clientInitAt]
      simp [byteAt, List.getD_eq_getElem?_getD]
    -- The stream reaches the byte, and there is one place to expect it.
    rcases hlog with ⟨-, hshort⟩ | ⟨k, hexpects, hserver⟩
    · have := hshort _ h
      rw [hchunks, s.bytesOn_turns, Session.clientInitAt] at this
      simp only [List.length_append, List.length_singleton] at this
      omega
    · obtain rfl := hexpects.unique h
      rwa [hshared] at hserver

/-- A 3.8 session with VNC authentication, its bytes cut inside the response: the parser skips the
response and reads the byte behind it for ClientInit. -/
theorem agreesOnClientInit_sample :
    AgreesOnClientInit Session.sample false false
      [(bytesOn .c2s Session.sample.turns).take 20, (bytesOn .c2s Session.sample.turns).drop 20,
        [4, 1]] :=
  (agreesOnClientInit_iff Session.sample (by decide) false false [4, 1]
    (by simp [← List.append_assoc])).mpr (.inl ⟨by decide, by decide, by decide⟩)

end RFBServer

/-- Encrypted credentials, and a key of two bytes. -/
def sampleCredentials : Bytes := [1, 4, 1, 0, 0, 0, 0, 0, 97] ++ List.replicate 121 0

theorem length_sampleCredentials : sampleCredentials.length = ardCredentialsLen + 2 := by
  rw [sampleCredentials, List.length_append, List.length_replicate]
  rfl

/-- A 3.8 session over Diffie-Hellman with keys of two bytes. -/
def Session.sampleArd : Session where
  greeting := Session.sample.greeting
  reply := Session.sample.reply
  version := Session.sample.version
  parses := Session.sample.parses
  types := [30]
  types_ne := by simp
  types_le := by decide
  kind := .ard (.of [0, 2, 0, 2] rfl)
  server := .of [5, 6, 7, 8] rfl
  client := .of sampleCredentials length_sampleCredentials
  shared := 1
  serverInit := .of (be16 640 ++ be16 480 ++ List.replicate 16 0 ++ be32 0) rfl
  name := []
  name_len := by decide

namespace RFBServer

open HandshakeScrubber

/-- The parser takes the first byte of the credentials for ClientInit, and calls back a key
event from the bytes behind it. -/
theorem log_sampleArd :
    (receive [bytesOn .c2s Session.sampleArd.turns] { passwordRequired := false }).1.log.take 2 =
      [(13, .clientInit 1), (14, .keyEvent 97 1)] := by
  decide +kernel

/-- Over Diffie-Hellman the two do not agree. -/
theorem not_agreesOnClientInit_sampleArd :
    ¬ AgreesOnClientInit Session.sampleArd false false
      [bytesOn .c2s Session.sampleArd.turns] := by
  intro h
  obtain ⟨-, messages, hagreed, -⟩ := h _ rfl
  have hlog := log_sampleArd
  rw [hagreed, List.take_succ_cons, List.cons.injEq, Prod.mk.injEq] at hlog
  exact absurd hlog.1.1 (by decide +kernel)

end RFBServer

end VncDoTool
