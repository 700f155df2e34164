import VncDoTool.Capture.Session

/-!
# Stripping a session

What the scrubber records of a session that follows the handshake: the same session with its
authentication replaced by the `none` type, and nothing else changed.

* `records_session`: the handshake of a session is recorded as that of `Session.stripped`, and
  the scrubber ends with the size ServerInit announced.
* `recording_of_arrivals`: the recording of a session and the traffic behind it, however both
  are cut into chunks.
-/

namespace VncDoTool

namespace Session

open HandshakeScrubber

variable (s : Session)

/-- A stripped session has a SecurityResult from 3.8 on. -/
theorem hasResult_stripped : s.stripped.HasResult ↔ Ver.le (3, 8) s.version := by
  simp [HasResult, stripped, Negotiation.stripped, AuthKind.sectype]

theorem result_stripped :
    s.stripped.result = if Ver.le (3, 8) s.version then [(.s2c, be32 0)] else [] :=
  if_congr s.hasResult_stripped rfl rfl

theorem completion_stripped : s.stripped.completion = s.stripped.result ++
    [(.c2s, [s.shared]), (.s2c, s.serverInit.bytes), (.s2c, s.name)] := rfl

theorem exchange_stripped : s.stripped.exchange = [(.s2c, []), (.s2c, []), (.c2s, [])] := rfl

/-- The attributes of the scrubber when the handshake is over. -/
def finished : Fields :=
  { s.kind.exchanged s.fields with
    width := some (u16At s.serverInit.bytes 0)
    height := some (u16At s.serverInit.bytes 2)
    inAuth := false
    recording := none }

/-- The bytes a stripped session shows of each direction. -/
theorem bytesOn_stripped_s2c : bytesOn .s2c s.stripped.turns =
    s.greeting.bytes ++
      (if Ver.le (3, 7) s.version then [1, 1] else be32 AuthTypes.none.value) ++
      (if Ver.le (3, 8) s.version then be32 0 else []) ++ s.serverInit.bytes ++ s.name := by
  have hoffered : bytesOn .s2c s.stripped.offered =
      if Ver.le (3, 7) s.version then [1, 1] else be32 AuthTypes.none.value := by
    by_cases h : Ver.le (3, 7) s.version <;>
      simp [Negotiation.offered, Session.stripped, Negotiation.stripped, h, AuthKind.sectype,
        AuthTypes.value]
  rw [turns, completion_stripped, result_stripped, exchange_stripped, bytesOn_append, bytesOn_append,
    Negotiation.turns, bytesOn_append, hoffered]
  by_cases h : Ver.le (3, 8) s.version <;> simp [h, stripped, Negotiation.stripped]

theorem bytesOn_stripped_c2s : bytesOn .c2s s.stripped.turns =
    s.reply.bytes ++ (if Ver.le (3, 7) s.version then [1] else []) ++ [s.shared] := by
  have hoffered : bytesOn .c2s s.stripped.offered =
      if Ver.le (3, 7) s.version then [1] else [] := by
    by_cases h : Ver.le (3, 7) s.version <;>
      simp [Negotiation.offered, Session.stripped, Negotiation.stripped, h, AuthKind.sectype,
        AuthTypes.value]
  rw [turns, completion_stripped, result_stripped, exchange_stripped, bytesOn_append, bytesOn_append,
    Negotiation.turns, bytesOn_append, hoffered]
  by_cases h : Ver.le (3, 8) s.version <;> simp [h, stripped, Negotiation.stripped]

/-- Stripping a stripped session changes nothing. -/
theorem stripped_stripped : s.stripped.stripped = s.stripped := rfl

end Session

namespace HandshakeScrubber

/-! ## The messages behind the exchange -/

/-- ClientInit, ServerInit and the name are recorded as they are. -/
theorem records_initialisation (s : Session) {f : Fields} (hf : f.preserveAuth = false)
    (hauth : f.inAuth = false) :
    Records [(.c2s, [s.shared]), (.s2c, s.serverInit.bytes), (.s2c, s.name)]
      [(.c2s, [s.shared]), (.s2c, s.serverInit.bytes), (.s2c, s.name)]
      (atRest (initialisation.run f))
      (atRest (.done { f with
        width := some (u16At s.serverInit.bytes 0)
        height := some (u16At s.serverInit.bytes 2)
        recording := none } ())) := by
  simp only [initialisation, Coroutine.run_bind, run_want, Coroutine.Step.bind_yielded,
    Coroutine.Step.bind_done]
  refine .message (.single s.shared) rfl (by decide) rfl ?_ ?_ ?_
  · simp
  · simp [recorded, hf, hauth]
  -- An empty name is not waited for.
  by_cases hname : s.name = []
  · have hlen : u32At s.serverInit.bytes 20 = 0 := by rw [s.name_len, hname, List.length_nil]
    refine .message s.serverInit rfl (by decide) rfl ?_ ?_ ?_
    · simp [hlen]
    · simp [hlen, recorded, hf, hauth]
    rw [hname]
    simp only [Coroutine.run_modify, Coroutine.Step.bind_done, hlen]
    exact (Records.of_nil _ _).congr (by simp)
  · have hlen : u32At s.serverInit.bytes 20 ≠ 0 := by
      rw [s.name_len]
      simpa using hname
    have hpos : 0 < u32At s.serverInit.bytes 20 := Nat.pos_of_ne_zero hlen
    refine .message s.serverInit rfl (by decide) rfl ?_ ?_ ?_
    · simp [hlen, hpos]
    · simp [hlen, recorded, hf, hauth]
    simp only [Coroutine.run_bind, Coroutine.run_modify, run_want, if_neg hlen,
      Coroutine.Step.bind_yielded, Coroutine.Step.bind_done]
    refine .message (.of s.name s.name_len.symm) rfl hpos rfl ?_ ?_ ?_
    · simp
    · simp [recorded, hf, hauth]
    simp

/-- Before 3.8 the `none` type has no SecurityResult, and ClientInit comes next. -/
theorem run_admission_of_not_hasResult {s : Session} (h : ¬ s.HasResult) (f : Fields) :
    (admission s.version s.kind.sectype.value).run f =
      initialisation.run { f with inAuth := false } := by
  simp only [Session.HasResult, not_or, not_not] at h
  simp [admission, securityResult, h]

/-- A SecurityResult is recorded as that of a `none` session, and ClientInit comes next. -/
theorem records_result (s : Session) {f : Fields} (hf : f.preserveAuth = false) :
    ∃ recording, Records s.result s.stripped.result
      (atRest ((admission s.version s.kind.sectype.value).run f))
      (atRest (initialisation.run { f with inAuth := false, recording := recording })) := by
  rw [s.result_stripped]
  by_cases hresult : s.HasResult
  · have hslot : ¬ (¬ Ver.le (3, 8) s.version ∧ s.kind.sectype.value = AuthTypes.none.value) := by
      rintro ⟨hle, hvalue⟩
      rcases hresult with h | h
      · exact hle h
      · cases hkind : s.kind <;> simp [hkind, AuthKind.sectype, AuthTypes.value] at h hvalue
    have hzero : u32At (be32 0) 0 = 0 := rfl
    rw [Session.result, if_pos hresult]
    refine ⟨some (if Ver.le (3, 8) s.version then be32 0 else []), Records.congr
      (?_ : Records _ [(.s2c, if Ver.le (3, 8) s.version then be32 0 else [])] _ _) ?_⟩
    · simp only [admission, securityResult, if_neg hslot, Coroutine.run_bind, run_want,
        Coroutine.run_modify, Coroutine.Step.bind_yielded, Coroutine.Step.bind_done]
      refine .message (.of (be32 0) (length_be32 0)) rfl (by decide)
        (?_ : _ = initialisation.run _) ?_ ?_ (.nil _)
      · simp [hzero]
      · simp [initialisation]
      · simp [recorded, hf, initialisation]
    · intro tap
      by_cases hle : Ver.le (3, 8) s.version <;> simp [hle]
  · have hle : ¬ Ver.le (3, 8) s.version := fun h => hresult (.inl h)
    refine ⟨f.recording, ?_⟩
    rw [run_admission_of_not_hasResult hresult, Session.result, if_neg hresult, if_neg hle]
    exact .nil _

/-- What follows the exchange: the SecurityResult of a `none` session, then the rest as it is. -/
theorem records_admission (s : Session) {f : Fields} (hf : f.preserveAuth = false) :
    Records s.completion s.stripped.completion
      (atRest ((admission s.version s.kind.sectype.value).run f))
      (atRest (.done { f with
        width := some (u16At s.serverInit.bytes 0)
        height := some (u16At s.serverInit.bytes 2)
        inAuth := false
        recording := none } ())) := by
  obtain ⟨recording, hresult⟩ := records_result s hf
  exact hresult.append (records_initialisation s hf rfl)

/-! ## Whole sessions -/

/-- The handshake up to the end of the exchange: its record shows a negotiation of the `none`
type. -/
theorem records_exchange (s : Session) :
    Records (s.toNegotiation.turns ++ s.exchange)
      (s.toNegotiation.stripped.turns ++ s.stripped.exchange) (init false)
      (atRest ((admission s.version s.kind.sectype.value).run (s.kind.exchanged s.fields))) := by
  have hpreserve : s.fields.preserveAuth = false := rfl
  obtain ⟨asked, answering, hidle, hhead, hserver, hclient⟩ :=
    exchange_phases s.version s.kind hpreserve
  have hfinal := (waits_admission s.version s.kind (s.kind.exchanged s.fields)).1
  have hexchange := (hhead.append (hserver.records hidle s.server)).append
    (hclient.records hfinal s.client)
  refine Records.congr ((records_negotiation s.toNegotiation).append hexchange) fun tap => ?_
  simp [Session.exchange_stripped]

/-- The handshake of a session is recorded as that of its stripped form. -/
theorem records_session (s : Session) :
    Records s.turns s.stripped.turns (init false) (atRest (.done s.finished ())) :=
  (records_exchange s).append (records_admission s rfl)

/-- A grammar that has ended lets everything pass. -/
theorem feedAll_done (f : Fields) (events : List Event) :
    Records events events (atRest (.done f ())) (atRest (.done f ())) := by
  induction events with
  | nil => exact .nil _
  | cons e events ih =>
    exact .cons (feed_of_not_watches (by simp) rfl e.2) ih

/-- A session and the traffic behind it, however they are cut into chunks. -/
theorem feedAll_of_arrivals (s : Session) (later : List Event) {events : List Event}
    (h : arrivals events = arrivals s.turns ++ arrivals later) :
    Records events (s.stripped.turns ++ later) (init false) (atRest (.done s.finished ())) := by
  have hcut : arrivals events = arrivals (s.turns ++ later) := by rw [h, arrivals_append]
  rw [Records, feedAll_eq_of_arrivals hcut]
  exact (records_session s).append (feedAll_done _ later)

/-- Flushing a scrubber at rest emits nothing. -/
theorem flush_atRest (step : Step) (tap : Tap) : (flush tap (atRest step)).1 = [] := by
  simp [flush]

/-- What is recorded is what `feed` returned if the scrubber ends at rest. -/
theorem Records.recording_eq {events outs : List Event} {s : HandshakeScrubber} {step : Step}
    (h : Records events outs s (atRest step)) (tap : Tap) :
    recording events s tap = bytesOn tap outs := by
  rw [recording, h]
  simp [flush_atRest]

/-- Stripping rewrites a session into one of the `none` type and nothing else: what is recorded
of each direction, the size noted, and that the recorded streams, fed back in their turn order,
are recorded unchanged. -/
theorem recording_session (s : Session) (later : List Event) {events : List Event}
    (h : arrivals events = arrivals s.turns ++ arrivals later) :
    recording events (init false) .s2c =
        s.greeting.bytes ++
          (if Ver.le (3, 7) s.version then [1, 1] else be32 AuthTypes.none.value) ++
          (if Ver.le (3, 8) s.version then be32 0 else []) ++
          s.serverInit.bytes ++ s.name ++ bytesOn .s2c later ∧
      recording events (init false) .c2s =
        s.reply.bytes ++ (if Ver.le (3, 7) s.version then [1] else []) ++ [s.shared] ++
          bytesOn .c2s later ∧
      (feedAll events (init false)).2.fields.width = some (u16At s.serverInit.bytes 0) ∧
      (feedAll events (init false)).2.fields.height = some (u16At s.serverInit.bytes 2) ∧
      ∀ replayed : List Event,
        arrivals replayed = arrivals s.stripped.turns ++ arrivals later →
        (∀ tap, bytesOn tap replayed = recording events (init false) tap) ∧
          recording replayed (init false) = recording events (init false) := by
  have hrecords := feedAll_of_arrivals s later h
  have hrecorded := fun tap => hrecords.recording_eq tap
  refine ⟨?_, ?_, ?_, ?_, fun replayed hreplayed => ⟨fun tap => ?_, funext fun tap => ?_⟩⟩
  · rw [hrecorded, bytesOn_append, s.bytesOn_stripped_s2c]
  · rw [hrecorded, bytesOn_append, s.bytesOn_stripped_c2s]
  · rw [hrecords]
    rfl
  · rw [hrecords]
    rfl
  · rw [hrecorded, bytesOn_eq_onTap, bytesOn_eq_onTap, hreplayed, arrivals_append]
  · have hagain := feedAll_of_arrivals s.stripped later hreplayed
    rw [hagain.recording_eq tap, hrecorded, s.stripped_stripped]

end HandshakeScrubber

/-- `"RFB 003.008\n"`. -/
def version38 : Bytes := [82, 70, 66, 32, 48, 48, 51, 46, 48, 48, 56, 10]

/-- A 3.8 session over VNC Authentication, with a screen of 640 by 480 and a two-byte name. -/
def Session.sample : Session where
  greeting := .of version38 rfl
  reply := .of version38 rfl
  version := (3, 8)
  parses := by decide
  types := [2, 30]
  types_ne := by simp
  types_le := by simp
  kind := .vnc
  server := .of (List.replicate 16 7) rfl
  client := .of (List.replicate 16 9) rfl
  shared := 1
  serverInit := .of (be16 640 ++ be16 480 ++ List.replicate 16 0 ++ be32 2) rfl
  name := [104, 105]
  name_len := by decide

namespace HandshakeScrubber

/-- The sample session, each message in a chunk of its own, and a key event behind it. -/
theorem recording_session_sample :
    recording (Session.sample.turns ++ [(.c2s, [4, 1])]) (init false) .c2s =
      version38 ++ [1, 1, 4, 1] :=
  (recording_session Session.sample [(.c2s, [4, 1])] (arrivals_append _ _)).2.1.trans (by decide)

end HandshakeScrubber

end VncDoTool
