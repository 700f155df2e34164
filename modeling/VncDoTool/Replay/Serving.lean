import VncDoTool.Client.Joining
import VncDoTool.Replay.Pacing

/-!
# What a replay serves a client of its own version

A replay of a stripped recording, and a client that speaks the version of the recording.

* `ReplayProtocol.Plays`: what a replay permits, as one side of a dialogue; `plays_handshake`: from a
  fresh scrubber on it is that of a server of the None type.
* `ReplayProtocol.Serves`: a replay between two chunks of such a client; it has closed nothing.
-/

namespace VncDoTool

namespace ReplayProtocol

open Replay HandshakeScrubber Dialogue RFBClient

variable {capture : Capture} {received later : Bytes} {r r' : ReplayProtocol} {f : Fields}
  {segment reply name : Bytes} {d : Dialogue UInt8 UInt8} {version : Ver} {shared : UInt8}

/-! ## The dialogue -/

/-- A message of the server, and what may be sent behind it. -/
theorem permitted_message {n : ℕ} {k : Block n → Fields → Step} (x : Block n) (s2c c2s : Bytes) :
    permitted (.yielded f ⟨.s2c, n⟩ k) (x.bytes ++ s2c) c2s =
      x.bytes.length + permitted (k x { f with recording := none }) s2c c2s := by
  have hroom : n ≤ (x.bytes ++ s2c).length := by
    rw [List.length_append, x.length_bytes]
    omega
  have hblock : Block.ofPrefix n (x.bytes ++ s2c) hroom = x := by
    apply Block.ext
    rw [Block.bytes_ofPrefix, List.take_left' x.length_bytes]
  rw [permitted_server rfl hroom]
  dsimp only
  rw [hblock, List.drop_left' x.length_bytes, x.length_bytes]

/-- A message of the client, and what may be sent behind it. -/
theorem permitted_reply {n : ℕ} {k : Block n → Fields → Step} (x : Block n) (s2c c2s : Bytes) :
    permitted (.yielded f ⟨.c2s, n⟩ k) s2c (x.bytes ++ c2s) =
      permitted (k x { f with recording := none }) s2c c2s := by
  have hroom : n ≤ (x.bytes ++ c2s).length := by
    rw [List.length_append, x.length_bytes]
    omega
  have hblock : Block.ofPrefix n (x.bytes ++ c2s) hroom = x := by
    apply Block.ext
    rw [Block.bytes_ofPrefix, List.take_left' x.length_bytes]
  rw [permitted_client rfl hroom]
  dsimp only
  rw [hblock, List.drop_left' x.length_bytes]

/-- From `step` on a replay sends the segments of the dialogue, each once it has the replies to those
before it, and then waits to be asked for a framebuffer before it sends what is `later`. -/
def Plays (later : Bytes) (step : Step) (d : Dialogue UInt8 UInt8) : Prop :=
  Grants (permitted step (said d ++ later)) d fun c2s => if Asks c2s then later.length else 0

/-- A segment and the reply to it. -/
theorem Plays.turn {step step' next : Step} (h : Plays later next d)
    (hsegment : ∀ s2c c2s, permitted step (segment ++ s2c) c2s =
      segment.length + permitted step' s2c c2s)
    (hreply : ∀ s2c c2s, permitted step' s2c (reply ++ c2s) = permitted next s2c c2s) :
    Plays later step ((segment, reply) :: d) := by
  refine ⟨fun heard => ?_, permitted next (said d ++ later), fun heard => ?_, h⟩
  · rw [said_cons, List.append_assoc, hsegment]
    exact Nat.le_add_right _ _
  · rw [said_cons, List.append_assoc, hsegment, hreply]

/-- A segment that wants no reply. -/
theorem Plays.turn_nil {step next : Step} (h : Plays later next d)
    (hsegment : ∀ s2c c2s, permitted step (segment ++ s2c) c2s =
      segment.length + permitted next s2c c2s) :
    Plays later step ((segment, []) :: d) := h.turn hsegment fun _ _ => rfl

/-- Behind the handshake the request decides. -/
theorem plays_done (later : Bytes) (hwidth : f.width.isSome = true) :
    Plays later (.done f ()) [] := by
  funext c2s
  show permitted _ later c2s = _
  rw [permitted]
  by_cases hasks : Asks c2s
  · rw [if_pos hasks, if_neg fun hnot => hnot.2 hasks]
  · rw [if_neg hasks, if_pos ⟨hwidth, hasks⟩]

/-- ServerInit and the name, once ClientInit is there. -/
theorem plays_initialisation (later : Bytes) (serverInit : Block 24)
    (hname : u32At serverInit.bytes 20 = name.length) (f : Fields) :
    ∃ next, Plays later next [(serverInit.bytes, []), (name, [])] ∧
      ∀ s2c c2s, permitted (initialisation.run f) s2c (shared :: c2s) = permitted next s2c c2s := by
  refine ⟨_, ?_, fun s2c c2s => permitted_reply (.single shared) s2c c2s⟩
  simp only [Coroutine.run_bind, run_want, Coroutine.Step.bind_yielded, Coroutine.Step.bind_done,
    Coroutine.run_modify]
  refine .turn_nil ?_ fun s2c c2s => permitted_message serverInit s2c c2s
  dsimp only
  rw [hname]
  by_cases hempty : name.length = 0
  · -- a name of no bytes is not read
    obtain rfl := List.length_eq_zero_iff.mp hempty
    exact (plays_done later rfl).turn_nil fun s2c c2s => (Nat.zero_add _).symm
  · rw [if_neg hempty]
    exact (plays_done later rfl).turn_nil fun s2c c2s => permitted_message (.of name rfl) s2c c2s

/-- Before 3.8 the None type has no SecurityResult. -/
theorem run_session_of_lt (h : ¬Ver.le (3, 8) version) (f : Fields) :
    (session version AuthTypes.none.value).run f = initialisation.run
      { f with securityType := some AuthTypes.none.value, inAuth := false } := by
  unfold session authenticate admission HandshakeScrubber.securityResult
  simp [h, AuthTypes.value]

/-- From 3.8 on it has one. -/
theorem run_session_of_le (h : Ver.le (3, 8) version) (f : Fields) :
    (session version AuthTypes.none.value).run f = .yielded
      { f with securityType := some AuthTypes.none.value, inAuth := false } ⟨.s2c, 4⟩
      fun result f => (if u32At result.bytes 0 = 0 then do
          record (be32 0)
          initialisation
        else pure ()).run f := by
  have hslot : ¬(¬Ver.le (3, 8) version ∧ AuthTypes.none.value = AuthTypes.none.value) :=
    fun hnone => hnone.1 h
  unfold session authenticate admission HandshakeScrubber.securityResult
  rw [if_neg hslot]
  show Coroutine.Step.yielded _ _ _ = _
  congr 1
  funext result f
  by_cases hzero : u32At (Block.bytes result) 0 = 0
  · simp [hzero, h]
  · simp [hzero, h]

/-- What is sent behind the greeting once the client has replied to it. -/
theorem plays_secure (later : Bytes) (version : Ver) (shared : UInt8) (serverInit : Block 24)
    (hname : u32At serverInit.bytes 20 = name.length) (f : Fields) :
    Plays later ((secure version).run f) (noneDialogue version shared serverInit.bytes name) := by
  have hinit := fun f => @plays_initialisation name shared later serverInit hname f
  unfold noneDialogue secure offer
  by_cases hlisted : Ver.le (3, 7) version
  · -- the list of types, and the choice of the client
    rw [if_neg (not_not_intro hlisted), if_pos hlisted]
    by_cases hresult : Ver.le (3, 8) version
    · -- From 3.8 on a SecurityResult comes between the choice and ClientInit.
      rw [if_neg (not_not_intro hresult)]
      have hsession : Plays later ((session version AuthTypes.none.value).run { f with
          securityTypes := [AuthTypes.none.value]
          recording := some [UInt8.ofNat AuthTypes.none.value] })
          [(be32 0, [shared]), (serverInit.bytes, []), (name, [])] := by
        rw [run_session_of_le hresult]
        obtain ⟨next, hplays, hreply⟩ := hinit { f with
          securityTypes := [AuthTypes.none.value]
          recording := some (be32 0)
          securityType := some AuthTypes.none.value
          inAuth := false }
        exact hplays.turn (fun s2c c2s => permitted_message (.of (be32 0) rfl) s2c c2s) hreply
      refine .turn_nil ?_ fun s2c c2s => permitted_message (.single 1) s2c c2s
      exact hsession.turn (fun s2c c2s => permitted_message (n := 1) (.single 1) s2c c2s)
        fun s2c c2s => permitted_reply (.single 1) s2c c2s
    · rw [if_pos hresult]
      have hsession := run_session_of_lt hresult { f with
        securityTypes := [AuthTypes.none.value]
        recording := some [UInt8.ofNat AuthTypes.none.value] }
      obtain ⟨next, hplays, hreply⟩ := hinit { f with
        securityTypes := [AuthTypes.none.value]
        recording := some [UInt8.ofNat AuthTypes.none.value]
        securityType := some AuthTypes.none.value
        inAuth := false }
      rw [← hsession] at hreply
      refine .turn_nil ?_ fun s2c c2s => permitted_message (.single 1) s2c c2s
      exact hplays.turn (fun s2c c2s => permitted_message (n := 1) (.single 1) s2c c2s)
        fun s2c c2s => (permitted_reply (.single 1) s2c (shared :: c2s)).trans (hreply s2c c2s)
  · -- Under 3.3 the server dictates the type, and nothing is chosen.
    have hresult : ¬Ver.le (3, 8) version := fun h => hlisted (Ver.le_trans (by decide) h)
    rw [if_pos hlisted, if_neg hlisted]
    have hsession := run_session_of_lt hresult { f with
      securityTypes := [AuthTypes.none.value]
      recording := some (be32 AuthTypes.none.value) }
    obtain ⟨next, hplays, hreply⟩ := hinit { f with
      securityTypes := [AuthTypes.none.value]
      recording := some (be32 AuthTypes.none.value)
      securityType := some AuthTypes.none.value
      inAuth := false }
    rw [← hsession] at hreply
    exact hplays.turn
      (fun s2c c2s => permitted_message (.of (be32 AuthTypes.none.value) rfl) s2c c2s) hreply

/-- What a client of this program makes of the versions of a server. -/
theorem version_of_negotiate {versionServer : Ver} (h : negotiate versionServer = some version) :
    version = (3, 3) ∨ version = (3, 7) ∨ version = (3, 8) := by
  unfold negotiate at h
  obtain ⟨found, hfound, rfl⟩ := Option.map_eq_some_iff.mp h
  have hmem := List.mem_of_find?_eq_some hfound
  simp only [supportedServerVersions, List.mem_cons, List.not_mem_nil, or_false] at hmem
  rcases hmem with rfl | rfl | rfl | rfl | rfl | rfl | rfl <;> decide

/-- The reply of such a client names its version. -/
theorem parseVersion_versionMessage {versionServer : Ver} (h : negotiate versionServer = some version) :
    parseVersion (versionMessage version) = some version := by
  rcases version_of_negotiate h with rfl | rfl | rfl <;> decide

/-- The reply, as a block. -/
def replyOf (version : Ver) : Block 12 := .of (versionMessage version) rfl

/-- The grammar once the greeting is there. -/
def replying (f : Fields) : Step :=
  .yielded f ⟨.c2s, 12⟩ fun clientHead f => (match parseVersion clientHead.bytes with
    | none => giveUp ("could not parse the client's version reply " ++ PyText.repr clientHead.bytes)
    | some negotiated => do
      Coroutine.modify fun f => { f with negotiatedVersion := some negotiated }
      secure negotiated).run f

/-- Where the grammar goes on the reply of a client of this program. -/
theorem resume_replying (hparses : parseVersion (versionMessage version) = some version) (f : Fields) :
    ((match parseVersion (replyOf version).bytes with
    | none => giveUp ("could not parse the client's version reply " ++
        PyText.repr (replyOf version).bytes)
    | some negotiated => do
      Coroutine.modify fun f => { f with negotiatedVersion := some negotiated }
      secure negotiated).run f : Step) =
      (secure version).run { f with negotiatedVersion := some version } := by
  rw [show (replyOf version).bytes = versionMessage version from rfl, hparses]
  rfl

/-- A replay waits for the greeting of its recording first, and then for the reply of the client. -/
theorem step_init : (init false).step = .yielded { preserveAuth := false } ⟨.s2c, 12⟩
    fun serverHead f => replying { f with
      protocolVersion := some (PyText.rstripNewline (PyText.decodeAscii serverHead.bytes)) } := rfl

/-- From a fresh scrubber on a replay of a stripped recording is a server of the None type. -/
theorem plays_handshake (later : Bytes) (greeting : Block 12)
    (hparses : parseVersion (versionMessage version) = some version) (shared : UInt8)
    (serverInit : Block 24) (hname : u32At serverInit.bytes 20 = name.length) :
    Plays later (init false).step (handshake greeting version shared serverInit name) := by
  have hsecure := plays_secure later version shared serverInit hname
    { preserveAuth := false
      protocolVersion := some (PyText.rstripNewline (PyText.decodeAscii greeting.bytes))
      negotiatedVersion := some version }
  rw [step_init]
  refine hsecure.turn (fun s2c c2s => permitted_message greeting s2c c2s) fun s2c c2s => ?_
  refine (permitted_reply (replyOf version) s2c c2s).trans ?_
  rw [resume_replying hparses]

/-! ## No mismatch -/

/-- A replay that has found the version of the client to be the recorded one, or has not read it
yet. -/
inductive Agrees (received : Bytes) (r : ReplayProtocol) : Prop
  | greeting (hstep : r.scrubber.step = (init false).step) (hbuffer : r.buffer = received)
  | reply (f : Fields) (hstep : r.scrubber.step = replying f) (hbuffer : r.buffer = received)
  | checked (h : r.versionChecked = true)

/-- The version is looked at once. -/
theorem versionMismatch_of_checked (h : r.versionChecked = true) :
    r.versionMismatch capture = (false, r) := by
  unfold versionMismatch
  cases r.scrubber.fields.negotiatedVersion with
  | none => rfl
  | some negotiated =>
    dsimp only
    rw [if_pos h]

/-- The recorded version is no mismatch. -/
theorem versionMismatch_of_same (hcapture : capture.negotiatedVersion = some version)
    (h : r.scrubber.fields.negotiatedVersion = some version) :
    r.versionMismatch capture = (false, { r with versionChecked := true }) := by
  unfold versionMismatch
  rw [h]
  dsimp only
  by_cases hchecked : r.versionChecked = true
  · rw [if_pos hchecked, ← hchecked]
  · rw [if_neg hchecked, hcapture]
    dsimp only
    rw [if_pos rfl]

/-- Settling the security type starts by waiting for the server. -/
theorem idle_secure (version : Ver) (f : Fields) :
    HandshakeScrubber.Idle ((secure version).run f) ∧ ((secure version).run f).state = f := by
  unfold secure offer
  by_cases hlisted : Ver.le (3, 7) version
  · simp [hlisted]
  · simp [hlisted]

/-- A round that closes nothing. -/
def Unbroken (received : Bytes) : Round → Prop
  | .again r => Agrees received r
  | .leave _ => True
  | .stop r => r.closed = false ∧ Agrees received r

/-- A round of the loop finds no mismatch. -/
theorem unbroken_round (hpaces : Paces capture received r)
    (hcapture : capture.negotiatedVersion = some version)
    (hparses : parseVersion (versionMessage version) = some version)
    (hreply : received.take 12 <+: versionMessage version) (h : Agrees received r) :
    Unbroken received (r.round capture) := by
  unfold round
  cases h with
  | greeting hstep hbuffer =>
    have hwaiting : r.scrubber.waiting = some ⟨.s2c, 12⟩ := by
      unfold waiting
      rw [hstep]
      rfl
    rw [hwaiting]
    dsimp only
    split
    · trivial
    next hall =>
      have hlength : ((capture.s2c.drop r.pos).take 12).length = 12 := by
        rw [List.length_take] at hall ⊢
        omega
      have hexact := (feed_exact hpaces.rest (hstep.trans step_init) (by decide)
        (.of ((capture.s2c.drop r.pos).take 12) hlength)).2
      exact .reply _ hexact hbuffer
  | reply f hstep hbuffer =>
    have hwaiting : r.scrubber.waiting = some ⟨.c2s, 12⟩ := by
      unfold waiting
      rw [hstep]
      rfl
    rw [hwaiting]
    dsimp only
    split
    · exact ⟨hpaces.closed, .reply f hstep hbuffer⟩
    next hall =>
      -- the reply is there, and it is that of the recorded version
      have hchunk : r.buffer.take 12 = (replyOf version).bytes := by
        rw [hbuffer] at hall ⊢
        refine hreply.eq_of_length ?_
        rw [List.length_take, show (versionMessage version).length = 12 from rfl]
        omega
      have hexact := (feed_exact hpaces.rest hstep (by decide) (replyOf version)).2
      rw [resume_replying hparses, feedLoop_of_idle (idle_secure version _).1] at hexact
      have hsame : (feed .c2s (r.buffer.take 12) r.scrubber).2.fields.negotiatedVersion =
          some version := by
        rw [hchunk]
        unfold fields
        rw [hexact, (idle_secure version _).2]
      rw [versionMismatch_of_same hcapture hsame]
      exact .checked rfl
  | checked h =>
    cases r.scrubber.waiting with
    | none => trivial
    | some w =>
      obtain ⟨tap, n⟩ := w
      cases tap with
      | s2c =>
        dsimp only
        split
        · trivial
        · exact .checked h
      | c2s =>
        dsimp only
        split
        · exact ⟨hpaces.closed, .checked h⟩
        · rw [versionMismatch_of_checked (by exact h)]
          exact .checked h

/-- Serving the session closes nothing, and looks at no version. -/
theorem serveSession_keeps (capture : Capture) (r : ReplayProtocol) :
    (r.serveSession capture).closed = r.closed ∧
      (r.serveSession capture).versionChecked = r.versionChecked := by
  unfold serveSession write
  dsimp only
  split_ifs <;> exact ⟨rfl, rfl⟩

/-- Where the loop is left, it has read the version, or has nothing more to send. -/
theorem agrees_serveSession (hpaces : Paces capture received r) (h : Agrees received r)
    (hopen : (r.serveSession capture).exhausted = false) :
    Agrees received (r.serveSession capture) := by
  -- A loop that waits for bytes of the handshake has sent all it may.
  have hwaits : ∀ {w : Want}, r.scrubber.waiting = some w →
      r.serveSession capture = emptied capture r r.buffer false := by
    intro w hwaiting
    have hawaiting : r.awaitingRequest = false := by
      by_contra hnot
      have hdone := (hpaces.awaiting (Bool.eq_true_of_not_eq_false hnot)).1
      rw [hwaiting] at hdone
      cases hdone
    refine serveSession_open capture r hawaiting fun hboth => ?_
    rw [hwaiting] at hboth
    cases hboth.1
  cases h with
  | greeting hstep hbuffer =>
    rw [hwaits (w := ⟨.s2c, 12⟩) (by unfold waiting; rw [hstep]; rfl)] at hopen
    cases hopen
  | reply f hstep hbuffer =>
    rw [hwaits (w := ⟨.c2s, 12⟩) (by unfold waiting; rw [hstep]; rfl)] at hopen
    cases hopen
  | checked h => exact .checked ((serveSession_keeps capture r).2.trans h)

/-- The loop closes nothing. -/
theorem agrees_advanceLoop (hcapture : capture.negotiatedVersion = some version)
    (hparses : parseVersion (versionMessage version) = some version)
    (hreply : received.take 12 <+: versionMessage version) {fuel : ℕ}
    (hpaces : Paces capture received r) (h : Agrees received r)
    (hloop : advanceLoop capture fuel r = some r') :
    r'.closed = false ∧ (r'.exhausted = false → Agrees received r') := by
  induction fuel generalizing r with
  | zero => cases hloop
  | succ fuel ih =>
    have hunbroken := unbroken_round hpaces hcapture hparses hreply h
    rw [advanceLoop] at hloop
    obtain ⟨r₁, hround, hpaces₁, -, -⟩ | ⟨hround, -⟩ | ⟨r₁, hround, -, -⟩ := paces_round hpaces
    · rw [hround] at hunbroken hloop
      exact ih hpaces₁ hunbroken hloop
    · rw [hround] at hloop
      obtain rfl := Option.some.inj hloop
      exact ⟨(serveSession_keeps capture r).1.trans hpaces.closed, agrees_serveSession hpaces h⟩
    · rw [hround] at hunbroken hloop
      obtain rfl := Option.some.inj hloop
      exact ⟨hunbroken.1, fun _ => hunbroken.2⟩

/-! ## Between two chunks -/

/-- More fuel changes nothing. -/
theorem advanceLoop_mono {fuel fuel' : ℕ} (hle : fuel ≤ fuel')
    (hloop : advanceLoop capture fuel r = some r') : advanceLoop capture fuel' r = some r' := by
  induction fuel generalizing r fuel' with
  | zero => cases hloop
  | succ fuel ih =>
    obtain ⟨fuel', rfl⟩ : ∃ n, fuel' = n + 1 := ⟨fuel' - 1, by omega⟩
    rw [advanceLoop] at hloop ⊢
    cases hround : r.round capture with
    | again r₁ =>
      rw [hround] at hloop
      exact ih (by omega) hloop
    | leave r₁ =>
      rw [hround] at hloop
      exact hloop
    | stop r₁ =>
      rw [hround] at hloop
      exact hloop

theorem advance_mono {fuel fuel' : ℕ} (hle : fuel ≤ fuel') (h : advance capture fuel r = some r') :
    advance capture fuel' r = some r' := by
  unfold advance at h ⊢
  split_ifs at h ⊢ with hexhausted
  · exact h
  · exact advanceLoop_mono hle h

/-- A chunk is noted, and looked at by a replay that has something left to send. -/
theorem exists_dataReceived_eq (capture : Capture) (r : ReplayProtocol) (data : Bytes) :
    ∃ served, ∀ fuel, dataReceived capture fuel r data =
      if r.exhausted = true then some { r with served := served }
      else advanceLoop capture fuel { r with served := served, buffer := r.buffer ++ data } := by
  refine ⟨if data = [] then r.served else true, fun fuel => ?_⟩
  unfold dataReceived advance
  by_cases hempty : data = []
  · rw [if_pos hempty, if_pos hempty]
    dsimp only
    by_cases hexhausted : r.exhausted = true
    · rw [if_pos hexhausted, if_pos hexhausted]
    · rw [if_neg hexhausted, if_neg hexhausted, if_neg (by exact hexhausted)]
  · rw [if_neg hempty, if_neg hempty]
    dsimp only
    by_cases hexhausted : r.exhausted = true
    · rw [if_pos hexhausted, if_pos hexhausted]
    · rw [if_neg hexhausted, if_neg hexhausted, if_neg (by exact hexhausted)]

theorem dataReceived_mono {fuel fuel' : ℕ} (hle : fuel ≤ fuel') {data : Bytes}
    (h : dataReceived capture fuel r data = some r') : dataReceived capture fuel' r data = some r' := by
  obtain ⟨served, heq⟩ := exists_dataReceived_eq capture r data
  rw [heq] at h ⊢
  by_cases hexhausted : r.exhausted = true
  · rw [if_pos hexhausted] at h ⊢
    exact h
  · rw [if_neg hexhausted] at h ⊢
    exact advanceLoop_mono hle h

/-- A replay between two chunks of a client of its version: it has sent exactly what the client may
have, and has closed nothing. -/
structure Serves (capture : Capture) (received : Bytes) (r : ReplayProtocol) : Prop where
  settled : Settled capture received r
  live : r.closed = false
  agrees : r.exhausted = false → Agrees received r

/-- The start of a connection. -/
theorem serves_start (hcapture : capture.negotiatedVersion = some version)
    (hparses : parseVersion (versionMessage version) = some version) {fuel : ℕ}
    (hstart : advance capture fuel {} = some r) : Serves capture [] r := by
  obtain ⟨n, r₁, hall, hsettled, -⟩ := exists_advance (paces_start capture)
  have hsame := hall (max n fuel) (le_max_left _ _)
  rw [advance_mono (le_max_right _ _) hstart] at hsame
  obtain rfl := Option.some.inj hsame
  have hloop : advanceLoop capture fuel {} = some r := hstart
  have hnothing : ([] : Bytes).take 12 <+: versionMessage version := List.nil_prefix
  have hagrees := agrees_advanceLoop hcapture hparses hnothing (paces_start capture)
    (.greeting rfl rfl) hloop
  exact ⟨hsettled, hagrees.1, hagrees.2⟩

/-- A chunk in the buffer of an open replay. -/
theorem Paces.receive (h : Paces capture received r) (served : Bool) (data : Bytes) :
    Paces capture (received ++ data) { r with served := served, buffer := r.buffer ++ data } := by
  refine ⟨h.written, h.pos, h.exhausted, h.closed, h.poised, h.rest, h.awaiting, fun more => ?_⟩
  have howed := h.owed (data ++ more)
  rw [← List.append_assoc, ← List.append_assoc] at howed
  exact howed

/-- A chunk of the client. -/
theorem Serves.dataReceived (h : Serves capture received r)
    (hcapture : capture.negotiatedVersion = some version)
    (hparses : parseVersion (versionMessage version) = some version) {data : Bytes}
    (hreply : (received ++ data).take 12 <+: versionMessage version) {fuel : ℕ}
    (hdata : ReplayProtocol.dataReceived capture fuel r data = some r') :
    Serves capture (received ++ data) r' ∧ r.written <+: r'.written := by
  -- More fuel than it takes changes nothing, so the run at hand is the one there is.
  obtain ⟨n, r₁, hall, hsettled, hgoes⟩ := exists_dataReceived h.settled data
  have hsame := hall (max n fuel) (le_max_left _ _)
  rw [dataReceived_mono (le_max_right _ _) hdata] at hsame
  obtain rfl := Option.some.inj hsame
  suffices hagrees : r'.closed = false ∧ (r'.exhausted = false → Agrees (received ++ data) r') from
    ⟨⟨hsettled, hagrees.1, hagrees.2⟩, hgoes.2⟩
  obtain ⟨served, heq⟩ := exists_dataReceived_eq capture r data
  rw [heq] at hdata
  by_cases hexhausted : r.exhausted = true
  · rw [if_pos hexhausted] at hdata
    obtain rfl := Option.some.inj hdata
    refine ⟨h.live, fun hopen => ?_⟩
    rw [show r.exhausted = false from hopen] at hexhausted
    cases hexhausted
  · rw [if_neg hexhausted] at hdata
    have hopen := Bool.eq_false_of_not_eq_true hexhausted
    have hpaces := (h.settled.open_ hopen).receive served data
    refine agrees_advanceLoop hcapture hparses hreply hpaces ?_ hdata
    cases h.agrees hopen with
    | greeting hstep hbuffer => exact .greeting hstep (congrArg (· ++ data) hbuffer)
    | reply f hstep hbuffer => exact .reply f hstep (congrArg (· ++ data) hbuffer)
    | checked h => exact .checked h

/-- What it has sent is what the client may have. -/
theorem Serves.written_eq (h : Serves capture received r) :
    r.written.flatten = capture.s2c.take (permitted (init false).step capture.s2c received) := by
  rw [← h.settled.prompt h.live]
  exact h.settled.written

end ReplayProtocol

end VncDoTool
