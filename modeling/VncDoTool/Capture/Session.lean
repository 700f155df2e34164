import VncDoTool.Capture.Segmentation

/-!
# Sessions that follow the handshake

A proxied session in which each side speaks only when the RFB handshake gives it the turn,
through one of the three authentications the scrubber can follow.

* `AuthKind`, `Negotiation`, `Session`: the messages of such a session. Every field carries its
  length, and a session the proof that its ServerInit announces the name that follows.
* `Session.turns`: the messages in turn order.
* `feedAll_negotiation`, `feed_exchange_server`, `feed_exchange_client`, `feedAll_completion`:
  what the scrubber does with each part of a session.
* `feedAll_turns`: the whole session, from a fresh scrubber to the end of its grammar.
-/

namespace VncDoTool

/-- The authentication of a session. A Diffie-Hellman exchange opens with the generator and
the key size, which are not secret. -/
inductive AuthKind : Type
  | none
  | vnc
  | ard (head : Block 4)

namespace AuthKind

/-- The security type that selects the exchange. -/
def sectype : AuthKind → AuthTypes
  | .none => .none
  | .vnc => .vncAuthentication
  | .ard _ => .diffieHellman

/-- What the server sends of the exchange in the clear. -/
def head : AuthKind → Bytes
  | .ard head => head.bytes
  | _ => []

/-- The length of the server's part of the exchange: the challenge, or modulus and key. -/
def serverLen : AuthKind → ℕ
  | .none => 0
  | .vnc => 16
  | .ard head => u16At head.bytes 2 + u16At head.bytes 2

/-- The length of the client's part: the response, or credentials and key. -/
def clientLen : AuthKind → ℕ
  | .none => 0
  | .vnc => 16
  | .ard head => ardCredentialsLen + u16At head.bytes 2

theorem sectype_ne_invalid (kind : AuthKind) : kind.sectype.value ≠ AuthTypes.invalid.value := by
  cases kind <;> simp [sectype, AuthTypes.value]

theorem sectype_lt (kind : AuthKind) : kind.sectype.value < 256 := by
  cases kind <;> simp [sectype, AuthTypes.value]

theorem toNat_sectype (kind : AuthKind) :
    (UInt8.ofNat kind.sectype.value).toNat = kind.sectype.value := by
  rw [UInt8.toNat_ofNat', Nat.mod_eq_of_lt kind.sectype_lt]

theorem clientLen_pos {kind : AuthKind} (h : kind ≠ .none) : 0 < kind.clientLen := by
  cases kind with
  | none => exact absurd rfl h
  | vnc => decide
  | ard head => simp only [clientLen, ardCredentialsLen]; omega

/-- The attributes of the scrubber when the exchange is over. -/
def exchanged (kind : AuthKind) (f : HandshakeScrubber.Fields) : HandshakeScrubber.Fields :=
  { f with
    securityType := some kind.sectype.value
    inAuth := true
    recording := match kind with
      | AuthKind.none => f.recording
      | _ => Option.none }

end AuthKind

/-- The handshake up to the choice of a security type. -/
structure Negotiation : Type where
  greeting : Block 12
  reply : Block 12
  version : Ver
  /-- The reply names the version. -/
  parses : HandshakeScrubber.parseVersion reply.bytes = some version
  /-- The types the server lists from 3.7 on; before, it dictates the one of `kind`. -/
  types : Bytes
  types_ne : types ≠ []
  types_le : types.length ≤ 255
  kind : AuthKind

namespace Negotiation

open HandshakeScrubber

variable (n : Negotiation)

/-- The messages that settle the security type, in turn order. -/
def offered : List Event :=
  if Ver.le (3, 7) n.version then
    [(.s2c, [UInt8.ofNat n.types.length]), (.s2c, n.types),
      (.c2s, [UInt8.ofNat n.kind.sectype.value])]
  else [(.s2c, be32 n.kind.sectype.value)]

/-- The messages of a negotiation, in turn order. -/
def turns : List Event :=
  [(.s2c, n.greeting.bytes), (.c2s, n.reply.bytes)] ++ n.offered

/-- What a stripped capture shows instead: the same greeting and reply, and an offer of the
`none` type. -/
def stripped : Negotiation :=
  { n with
    types := [UInt8.ofNat AuthTypes.none.value]
    types_ne := by simp
    types_le := by simp
    kind := .none }

/-- The security types the scrubber notes. -/
def noted : List ℕ :=
  if Ver.le (3, 7) n.version then n.types.map UInt8.toNat else [n.kind.sectype.value]

/-- The attributes of the scrubber once the versions are settled. -/
def opened : Fields where
  preserveAuth := false
  protocolVersion := some (PyText.rstripNewline (PyText.decodeAscii n.greeting.bytes))
  negotiatedVersion := some n.version

/-- The attributes of the scrubber when the negotiation is over. -/
def fields : Fields :=
  { n.opened with
    securityTypes := n.noted
    recording := some (if Ver.le (3, 7) n.version then [UInt8.ofNat AuthTypes.none.value]
      else be32 AuthTypes.none.value) }

end Negotiation

/-- A whole session up to the end of the server's name. -/
structure Session : Type extends Negotiation where
  /-- The server's part of the exchange behind its clear head. -/
  server : Block kind.serverLen
  /-- The client's part of the exchange. -/
  client : Block kind.clientLen
  /-- ClientInit. -/
  shared : UInt8
  serverInit : Block 24
  name : Bytes
  name_len : u32At serverInit.bytes 20 = name.length

namespace Session

open HandshakeScrubber

variable (s : Session)

/-- Whether a SecurityResult follows: in every case but `none` before 3.8. -/
def HasResult : Prop := Ver.le (3, 8) s.version ∨ s.kind.sectype ≠ .none

instance : Decidable s.HasResult :=
  inferInstanceAs (Decidable (_ ∨ s.kind.sectype ≠ AuthTypes.none))

/-- The messages of the authentication exchange, in turn order. -/
def exchange : List Event :=
  [(.s2c, s.kind.head), (.s2c, s.server.bytes), (.c2s, s.client.bytes)]

/-- The SecurityResult, where there is one. -/
def result : List Event := if s.HasResult then [(.s2c, be32 0)] else []

/-- The messages behind the exchange, in turn order. -/
def completion : List Event :=
  s.result ++ [(.c2s, [s.shared]), (.s2c, s.serverInit.bytes), (.s2c, s.name)]

/-- The messages of the session, in turn order. -/
def turns : List Event := s.toNegotiation.turns ++ s.exchange ++ s.completion

/-- The session a stripped capture shows: nothing but the authentication differs. -/
def stripped : Session :=
  { s.toNegotiation.stripped with
    server := ⟨[], rfl⟩
    client := ⟨[], rfl⟩
    shared := s.shared
    serverInit := s.serverInit
    name := s.name
    name_len := s.name_len }

end Session

namespace HandshakeScrubber

/-! ## Feeding whole turns -/

/-- A scrubber that holds nothing back. -/
def atRest (step : Step) : HandshakeScrubber := ⟨step, fun _ => []⟩

@[simp] theorem step_atRest (step : Step) : (atRest step).step = step := rfl

@[simp] theorem pending_atRest (step : Step) (tap : Tap) : (atRest step).pending tap = [] := rfl

theorem init_eq_atRest (preserveAuth : Bool) :
    init preserveAuth = atRest (grammar.run { preserveAuth := preserveAuth }) := rfl

@[simp] theorem run_want (tap : Tap) (nbytes : ℕ) (f : Fields) :
    (want tap nbytes).run f =
      .yielded f ⟨tap, nbytes⟩ fun x f' => .done f' x := rfl

@[simp] theorem run_record (data : Bytes) (f : Fields) :
    (record data).run f = .done { f with recording := some data } () := rfl

@[simp] theorem watches_yielded (f : Fields) (w : Want) (k : Answer w → Fields → Step)
    (tap : Tap) : Watches (.yielded f w k) tap ↔ w.tap = tap := by
  simp [Watches]

@[simp] theorem not_watches_done (f : Fields) (tap : Tap) :
    ¬ Watches (.done f () : Step) tap := by
  simp [Watches]

/-- A turn that the loop consumes to its last byte leaves the scrubber at rest. -/
theorem feed_turn {tap : Tap} {data out : Bytes} {step step' : Step} (hw : Watches step tap)
    (hdata : data ≠ []) (h : feedLoop tap step data = (step', [], out)) :
    feed tap data (atRest step) = (out, atRest step') := by
  rw [feed_of_watches (by simpa using hw) hdata]
  simp [h, atRest]

/-- The loop on a want that the buffer starts with. -/
theorem feedLoop_want {tap : Tap} {nbytes : ℕ} {f : Fields}
    {k : Block nbytes → Fields → Step} (x : Block nbytes) (rest : Bytes) :
    feedLoop tap (.yielded f ⟨tap, nbytes⟩ k) (x.bytes ++ rest) =
      ((feedLoop tap (k x { f with recording := none }) rest).1,
        (feedLoop tap (k x { f with recording := none }) rest).2.1,
        recorded f (k x { f with recording := none }).state x.bytes ++
          (feedLoop tap (k x { f with recording := none }) rest).2.2) :=
  feedLoop_block (w := ⟨tap, nbytes⟩) x rest

/-- A step that some byte is needed to resume. -/
def Idle (step : Step) : Prop := ∀ w, step.request = some w → 0 < w.nbytes

@[simp] theorem idle_yielded (f : Fields) (w : Want) (k : Answer w → Fields → Step) :
    Idle (.yielded f w k) ↔ 0 < w.nbytes := by
  simp [Idle]

@[simp] theorem idle_done (f : Fields) : Idle (.done f () : Step) := by
  simp [Idle]

/-- An empty buffer does not move an idle step. -/
theorem feedLoop_of_idle {step : Step} (h : Idle step) (tap : Tap) :
    feedLoop tap step [] = (step, [], []) := by
  cases step with
  | done f a => rfl
  | failed f e => exact e.elim
  | yielded f w k => exact feedLoop_of_short (by simpa using h)

/-- A message that answers the want of a scrubber at rest. `next` is where the grammar goes,
`next'` where it is once the empty wants behind the message are answered too. -/
theorem feed_message {tap : Tap} {nbytes : ℕ} {f : Fields} {k : Block nbytes → Fields → Step}
    {next next' : Step} (x : Block nbytes) (hpos : 0 < nbytes)
    (hnext : k x { f with recording := none } = next)
    (hsettle : feedLoop tap next [] = (next', [], [])) :
    feed tap x.bytes (atRest (.yielded f ⟨tap, nbytes⟩ k)) =
      (recorded f next.state x.bytes, atRest next') := by
  have hne : x.bytes ≠ [] := by
    rw [← List.length_pos_iff, x.length_bytes]
    exact hpos
  have hloop : feedLoop tap (.yielded f ⟨tap, nbytes⟩ k) (x.bytes ++ []) = _ :=
    feedLoop_want x []
  rw [List.append_nil, hnext, hsettle, List.append_nil] at hloop
  exact feed_turn (by simp) hne hloop

/-- Feeding `events` records what the messages `outs` carry, and leaves `s'`. -/
def Records (events outs : List Event) (s s' : HandshakeScrubber) : Prop :=
  feedAll events s = (fun tap => bytesOn tap outs, s')

namespace Records

variable {s s' s'' : HandshakeScrubber} {events events' outs outs' : List Event}

@[simp] theorem nil (s : HandshakeScrubber) : Records [] [] s s := rfl

theorem append (h : Records events outs s s') (h' : Records events' outs' s' s'') :
    Records (events ++ events') (outs ++ outs') s s'' := by
  rw [Records] at *
  rw [feedAll_append, h]
  simp [h']

theorem single {tap : Tap} {data out : Bytes} (h : feed tap data s = (out, s')) :
    Records [(tap, data)] [(tap, out)] s s' := by
  rw [Records, feedAll_singleton, h]
  refine Prod.ext (funext fun t => ?_) rfl
  by_cases ht : t = tap
  · subst ht; simp
  · simp [ht, Ne.symm ht]

theorem cons {tap : Tap} {data out : Bytes} (h : feed tap data s = (out, s'))
    (h' : Records events outs s' s'') :
    Records ((tap, data) :: events) ((tap, out) :: outs) s s'' :=
  append (single h) h'


/-- An empty chunk changes nothing. -/
theorem of_nil (tap : Tap) (s : HandshakeScrubber) : Records [(tap, [])] [] s s := by
  rw [Records, feedAll_singleton, feed_nil]
  simp

/-- Feeding the message a scrubber at rest waits for. -/
theorem message {tap : Tap} {nbytes : ℕ} {f : Fields} {k : Block nbytes → Fields → Step}
    {next : Step} {data out : Bytes} (x : Block nbytes) (hdata : x.bytes = data)
    (hpos : 0 < nbytes) (hnext : k x { f with recording := none } = next) (hidle : Idle next)
    (hout : recorded f next.state data = out) (h : Records events outs (atRest next) s') :
    Records ((tap, data) :: events) ((tap, out) :: outs)
      (atRest (.yielded f ⟨tap, nbytes⟩ k)) s' := by
  subst hdata hout
  exact cons (feed_message x hpos hnext (feedLoop_of_idle hidle tap)) h

theorem congr (h : Records events outs s s') (houts : ∀ tap, bytesOn tap outs = bytesOn tap outs') :
    Records events outs' s s' := by
  rw [Records] at *
  simp [h, houts]

end Records

/-! ## The exchange -/

/-- `Absorbs tap n step final`: inside the exchange, the next `n` bytes on `tap` take the
grammar from `step` to `final` whatever they are, and record nothing. -/
inductive Absorbs (tap : Tap) : ℕ → Step → Step → Prop
  | refl (step : Step) : Absorbs tap 0 step step
  | want {f : Fields} {nbytes m : ℕ} {k : Block nbytes → Fields → Step} {next final : Step}
      (hpreserve : f.preserveAuth = false) (hauth : f.inAuth = true)
      (hnext : ∀ x, k x { f with recording := none } = next)
      (hrecording : next.state.recording = none) (h : Absorbs tap m next final) :
      Absorbs tap (nbytes + m) (.yielded f ⟨tap, nbytes⟩ k) final

namespace Absorbs

variable {tap : Tap} {n : ℕ} {step final : Step}

/-- A grammar with bytes left to absorb waits for them. -/
theorem watches (h : Absorbs tap n step final) (hpos : 0 < n) : Watches step tap := by
  cases h with
  | refl => exact absurd hpos (Nat.lt_irrefl 0)
  | want => simp

/-- Two buffers of one length, no longer than what is absorbed, take the loop to the same
step, record nothing and leave as many bytes. -/
theorem feedLoop_eq (h : Absorbs tap n step final) (hfinal : Idle final) (a a' : Bytes)
    (hlen : a.length = a'.length) (hle : a.length ≤ n) :
    ∃ step' r r', feedLoop tap step a = (step', r, []) ∧ feedLoop tap step a' = (step', r', []) ∧
      r.length = r'.length ∧ Absorbs tap (n - a.length + r.length) step' final ∧
      (a.length = n → step' = final ∧ r = [] ∧ r' = []) := by
  induction h generalizing a a' with
  | refl step =>
    obtain rfl : a = [] := List.eq_nil_of_length_eq_zero (by omega)
    obtain rfl : a' = [] := List.eq_nil_of_length_eq_zero (by simpa using hlen.symm)
    have hloop := feedLoop_of_idle hfinal tap
    exact ⟨step, [], [], hloop, hloop, rfl, .refl step, fun _ => ⟨rfl, rfl, rfl⟩⟩
  | @want f nbytes m k next final hpreserve hauth hnext hrecording h ih =>
    by_cases hfill : nbytes ≤ a.length
    · -- the front of each buffer fills the want; go on with the rest
      have hfill' : nbytes ≤ a'.length := hlen ▸ hfill
      obtain ⟨step', r, r', hr, hr', hrr, habs, hend⟩ :=
        ih hfinal (a.drop nbytes) (a'.drop nbytes) (by simp [hlen])
          (by simp only [List.length_drop]; omega)
      have hstep : ∀ (b : Bytes) (hb : nbytes ≤ b.length) (q : Bytes),
          feedLoop tap next (b.drop nbytes) = (step', q, []) →
          feedLoop tap (.yielded f ⟨tap, nbytes⟩ k) b = (step', q, []) := by
        intro b hb q hq
        have hsplit : b = (Block.ofPrefix nbytes b hb).bytes ++ b.drop nbytes := by simp
        rw [hsplit, feedLoop_want, hnext, hq]
        simp [recorded, hpreserve, hauth, hrecording]
      refine ⟨step', r, r', hstep a hfill r hr, hstep a' hfill' r' hr', hrr, ?_, ?_⟩
      · have hcount : nbytes + m - a.length + r.length =
            m - (a.drop nbytes).length + r.length := by
          simp only [List.length_drop]
          omega
        rw [hcount]
        exact habs
      · intro htotal
        exact hend (by simp only [List.length_drop]; omega)
    · -- too short for the want: both are held back
      have hshort : a.length < nbytes := by omega
      refine ⟨_, a, a', feedLoop_of_short hshort, feedLoop_of_short (by simpa [hlen] using hshort), hlen, ?_, ?_⟩
      · rw [show nbytes + m - a.length + a.length = nbytes + m by omega]
        exact .want hpreserve hauth hnext hrecording h
      · intro htotal
        omega

end Absorbs

/-- A phase of the exchange at rest: all it absorbs is still to come. -/
def Ready (tap : Tap) (n : ℕ) (step final : Step) : Prop :=
  Absorbs tap n step final ∧ (n = 0 → step = final)

/-- Wait for a number of bytes, and go on whatever they are. -/
def awaits (tap : Tap) (nbytes : ℕ) (next : Fields → Step) (f : Fields) : Step :=
  .yielded f ⟨tap, nbytes⟩ fun _ f' => next f'

@[simp] theorem state_awaits (tap : Tap) (nbytes : ℕ) (next : Fields → Step) (f : Fields) :
    (awaits tap nbytes next f).state = f := rfl

@[simp] theorem idle_awaits (tap : Tap) (nbytes : ℕ) (next : Fields → Step) (f : Fields) :
    Idle (awaits tap nbytes next f) ↔ 0 < nbytes := idle_yielded ..

namespace Absorbs

variable {tap : Tap} {n nbytes : ℕ} {f f' : Fields} {step final : Step}

/-- A wait inside the exchange is absorbed, with what is absorbed behind it. -/
theorem awaits (tap : Tap) (nbytes : ℕ) {next : Fields → Step} (hpreserve : f.preserveAuth = false)
    (hauth : f.inAuth = true) (hf' : f' = { f with recording := none })
    (hnext : (next f').state.recording = none) (h : Absorbs tap n (next f') final) :
    Absorbs tap (nbytes + n) (awaits tap nbytes next f) final := by
  subst hf'
  exact .want hpreserve hauth (fun _ => rfl) hnext h

/-- Reading nothing settles an absorbing step: its empty wants are answered at once. -/
theorem settle (h : Absorbs tap n step final) (hfinal : Idle final) :
    ∃ step', feedLoop tap step [] = (step', [], []) ∧ Ready tap n step' final := by
  obtain ⟨step', r, r', hloop, -, -, habs, hdone⟩ :=
    h.feedLoop_eq hfinal [] [] rfl (Nat.zero_le n)
  have hr : r = [] := by
    have hnil := feedLoop_nil tap step
    rwa [hloop] at hnil
  subst hr
  exact ⟨step', hloop, habs, fun h => (hdone h.symm).1⟩

end Absorbs

namespace Ready

variable {tap : Tap} {n : ℕ} {step final : Step}

/-- Everything a phase absorbs goes unrecorded, and completes it. -/
theorem records (h : Ready tap n step final) (hfinal : Idle final) (data : Block n) :
    Records [(tap, data.bytes)] [] (atRest step) (atRest final) := by
  by_cases hn : n = 0
  · have hdata : data.bytes = [] := List.eq_nil_of_length_eq_zero (by simp [hn])
    rw [hdata, h.2 hn]
    exact .of_nil tap _
  · obtain ⟨step', r, r', hloop, -, -, -, hdone⟩ :=
      h.1.feedLoop_eq hfinal data.bytes data.bytes rfl (by simp)
    obtain ⟨rfl, rfl, -⟩ := hdone (by simp)
    have hne : data.bytes ≠ [] := by
      rw [← List.length_pos_iff, data.length_bytes]
      omega
    have hfeed := feed_turn (h.1.watches (by omega)) hne hloop
    exact (Records.single hfeed).congr (by simp)

end Ready

/-! ## The negotiation -/

/-- A step that waits for input and has recorded nothing since the attributes `f`. -/
def Waits (f : Fields) (step : Step) : Prop :=
  Idle step ∧ step.state.recording = f.recording


/-- From 3.7 on the offer and the choice become those of the `none` type. -/
theorem records_offer_listed {negotiated : Ver} (hlisted : Ver.le (3, 7) negotiated)
    {types : Bytes} (hne : types ≠ []) (hle : types.length ≤ 255) (sectype : UInt8)
    {f f' : Fields} (hf : f.preserveAuth = false)
    (hf' : f' = { f with
      securityTypes := types.map UInt8.toNat
      recording := some [UInt8.ofNat AuthTypes.none.value] })
    {K : Option ℕ → Fields → Step} (hK : Waits f' (K (some sectype.toNat) f')) :
    Records [(.s2c, [UInt8.ofNat types.length]), (.s2c, types), (.c2s, [sectype])]
      [(.s2c, []), (.s2c, [1, 1]), (.c2s, [1])] (atRest (((offer negotiated).run f).bind K))
      (atRest (K (some sectype.toNat) f')) := by
  have hlen : (UInt8.ofNat types.length).toNat = types.length := by
    rw [UInt8.toNat_ofNat', Nat.mod_eq_of_lt (by omega)]
  have hpos : 0 < types.length := List.length_pos_iff.mpr hne
  simp only [offer, if_pos hlisted, Coroutine.run_bind, run_want, Coroutine.Step.bind_yielded,
    Coroutine.Step.bind_done]
  refine .message (.single (UInt8.ofNat types.length)) rfl (by decide) rfl ?_ ?_ ?_
  · simp [hlen, hne, hpos]
  · simp [hlen, hne, recorded, hf]
  simp only [Block.bytes_single, byteAt_cons_zero, hlen, if_neg hpos.ne', Coroutine.run_bind,
    run_record, run_want, Coroutine.Step.bind_yielded, Coroutine.Step.bind_done]
  refine .message (.of types hlen.symm) rfl (by rwa [hlen]) rfl ?_ ?_ ?_
  · simp
  · simp [recorded, hf]
    rfl
  simp only [Block.bytes_of, Coroutine.run_modify, Coroutine.Step.bind_yielded,
    Coroutine.Step.bind_done]
  refine .message (.single sectype) rfl (by decide) (?_ : _ = K (some sectype.toNat) f') hK.1
    ?_ (.nil _)
  · simp [hf']
  · rw [recorded, hK.2, hf']
    simp [hf]
    rfl

/-- Before 3.7 the server dictates the type, and the record says `none`. -/
theorem records_offer_dictated {negotiated : Ver} (hlisted : ¬ Ver.le (3, 7) negotiated)
    {sectype : ℕ} (hne : sectype ≠ AuthTypes.invalid.value) (hlt : sectype < 2 ^ 32)
    {f f' : Fields} (hf : f.preserveAuth = false)
    (hf' : f' = { f with
      securityTypes := [sectype]
      recording := some (be32 AuthTypes.none.value) })
    {K : Option ℕ → Fields → Step} (hK : Waits f' (K (some sectype) f')) :
    Records [(.s2c, be32 sectype)] [(.s2c, be32 AuthTypes.none.value)]
      (atRest (((offer negotiated).run f).bind K)) (atRest (K (some sectype) f')) := by
  have hauth : u32At (be32 sectype) 0 = sectype := by
    simpa using u32At_be32 hlt []
  simp only [offer, if_neg hlisted, Coroutine.run_bind, run_want, Coroutine.Step.bind_yielded,
    Coroutine.Step.bind_done]
  refine .message (.of (be32 sectype) (length_be32 _)) rfl (by decide)
    (?_ : _ = K (some sectype) f') hK.1 ?_ (.nil _)
  · simp only [Block.bytes_of, hauth, if_neg hne, Coroutine.run_bind, Coroutine.run_modify,
      run_record, Coroutine.run_pure, Coroutine.Step.bind_done, hf']
  · rw [recorded, hK.2, hf']
    simp [hf]

/-- A session of a followed type starts by waiting for input. -/
theorem waits_session (negotiated : Ver) (kind : AuthKind) (f : Fields) :
    Waits f ((session negotiated kind.sectype.value).run f) := by
  cases kind with
  | none =>
    by_cases h : Ver.le (3, 8) negotiated <;> constructor <;>
      simp [session, authenticate, admission, securityResult, initialisation, AuthKind.sectype,
        AuthTypes.value, h]
  | vnc => constructor <;> simp [session, authenticate, AuthKind.sectype, AuthTypes.value]
  | ard head => constructor <;> simp [session, authenticate, AuthKind.sectype, AuthTypes.value]

/-- The version exchange passes verbatim. -/
theorem records_versions (n : Negotiation) :
    Records [(.s2c, n.greeting.bytes), (.c2s, n.reply.bytes)]
      [(.s2c, n.greeting.bytes), (.c2s, n.reply.bytes)] (init false)
      (atRest ((secure n.version).run n.opened)) := by
  have hwaits : ∀ f, Waits f ((secure n.version).run f) := by
    intro f
    by_cases hlisted : Ver.le (3, 7) n.version <;> constructor <;> simp [secure, offer, hlisted]
  rw [init_eq_atRest, grammar]
  simp only [Coroutine.run_bind, run_want, Coroutine.Step.bind_yielded, Coroutine.Step.bind_done]
  refine .message n.greeting rfl (by decide) rfl ?_ ?_ ?_
  · simp
  · simp [recorded]
  simp only [Coroutine.run_modify, Coroutine.Step.bind_done]
  refine .message n.reply rfl (by decide) (?_ : _ = (secure n.version).run n.opened)
    (hwaits _).1 ?_ (.nil _)
  · simp only [n.parses, Coroutine.run_bind, Coroutine.run_modify, Coroutine.Step.bind_done,
      Negotiation.opened]
  · rw [recorded, (hwaits _).2]
    simp [Negotiation.opened]

/-- Whatever the server offers and the client chooses, the record shows an offer of the `none`
type and its choice. -/
theorem records_offered (n : Negotiation) :
    Records n.offered n.stripped.offered (atRest ((secure n.version).run n.opened))
      (atRest ((session n.version n.kind.sectype.value).run n.fields)) := by
  have hwaits := waits_session n.version n.kind n.fields
  by_cases hlisted : Ver.le (3, 7) n.version
  · have hfields : n.fields = { n.opened with
        securityTypes := n.types.map UInt8.toNat
        recording := some [UInt8.ofNat AuthTypes.none.value] } := by
      simp [Negotiation.fields, Negotiation.noted, hlisted]
    have hoffer := records_offer_listed hlisted n.types_ne n.types_le
      (UInt8.ofNat n.kind.sectype.value) rfl hfields
      (K := fun a => (chosen n.version a).run)
      (by rw [AuthKind.toNat_sectype]; exact hwaits)
    rw [AuthKind.toNat_sectype] at hoffer
    rw [Negotiation.offered, if_pos hlisted]
    refine Records.congr hoffer fun tap => ?_
    cases tap <;> simp [Negotiation.stripped, Negotiation.offered, hlisted, AuthKind.sectype,
      AuthTypes.value]
  · have hfields : n.fields = { n.opened with
        securityTypes := [n.kind.sectype.value]
        recording := some (be32 AuthTypes.none.value) } := by
      simp [Negotiation.fields, Negotiation.noted, hlisted]
    have hoffer := records_offer_dictated hlisted n.kind.sectype_ne_invalid
      (n.kind.sectype_lt.trans (by decide)) rfl hfields
      (K := fun a => (chosen n.version a).run)
      hwaits
    rw [Negotiation.offered, if_neg hlisted]
    refine Records.congr hoffer fun tap => ?_
    simp [Negotiation.stripped, Negotiation.offered, hlisted, AuthKind.sectype]

/-- The negotiation: what is recorded of it is the negotiation of the `none` type. -/
theorem records_negotiation (n : Negotiation) :
    Records n.turns n.stripped.turns (init false)
      (atRest ((session n.version n.kind.sectype.value).run n.fields)) :=
  (records_versions n).append (records_offered n)

/-! ## The phases of the exchange -/

/-- What follows an exchange starts by waiting for input. -/
theorem waits_admission (negotiated : Ver) (kind : AuthKind) (f : Fields) :
    Waits f ((admission negotiated kind.sectype.value).run f) := by
  by_cases h : Ver.le (3, 8) negotiated <;> cases kind <;> constructor <;>
    simp [admission, securityResult, initialisation, AuthKind.sectype, AuthTypes.value, h]

/-- The rest of a Diffie-Hellman exchange with keys of `keyLen` bytes. -/
def keyed (negotiated : Ver) (keyLen : ℕ) : Fields → Step :=
  awaits .s2c keyLen (awaits .s2c keyLen (awaits .c2s ardCredentialsLen (awaits .c2s keyLen
    (admission negotiated AuthTypes.diffieHellman.value).run)))

/-- The exchange of a followed type: its clear head, then what the server and the client send
under it, none of which is recorded. -/
theorem exchange_phases (negotiated : Ver) (kind : AuthKind) {f : Fields}
    (hf : f.preserveAuth = false) :
    ∃ asked answering,
      Idle answering ∧
      Records [(.s2c, kind.head)] [] (atRest ((session negotiated kind.sectype.value).run f))
        (atRest asked) ∧
      Ready .s2c kind.serverLen asked answering ∧
      Ready .c2s kind.clientLen answering
        ((admission negotiated kind.sectype.value).run (kind.exchanged f)) := by
  have hpreserve : (kind.exchanged f).preserveAuth = false := hf
  have hfinal := waits_admission negotiated kind (kind.exchanged f)
  cases kind with
  | none =>
    exact ⟨_, _, hfinal.1, .of_nil _ _, ⟨.refl _, fun _ => rfl⟩, ⟨.refl _, fun _ => rfl⟩⟩
  | vnc =>
    have hclient := Absorbs.awaits .c2s 16 hpreserve rfl rfl hfinal.2
      (.refl _)
    have hserver := Absorbs.awaits .s2c 16
      (f := { f with securityType := some AuthTypes.vncAuthentication.value, inAuth := true })
      hf rfl rfl rfl
      (.refl (awaits .c2s 16 (admission negotiated AuthTypes.vncAuthentication.value).run
        (AuthKind.vnc.exchanged f)))
    exact ⟨_, _, by simp, .of_nil _ _, ⟨hserver, by simp [AuthKind.serverLen]⟩,
      ⟨hclient, by simp [AuthKind.clientLen]⟩⟩
  | ard head =>
    have hclient := Absorbs.awaits .c2s ardCredentialsLen hpreserve rfl rfl
      rfl (.awaits .c2s (u16At head.bytes 2) hpreserve rfl rfl hfinal.2 (.refl _))
    have hserver := Absorbs.awaits .s2c (u16At head.bytes 2) hpreserve rfl rfl
      rfl (.awaits .s2c (u16At head.bytes 2) hpreserve rfl rfl rfl
        (.refl (awaits .c2s ardCredentialsLen (awaits .c2s (u16At head.bytes 2)
          (admission negotiated AuthTypes.diffieHellman.value).run)
          ((AuthKind.ard head).exchanged f))))
    -- keys of no bytes are read with the head already
    obtain ⟨asked, hloop, hready⟩ := hserver.settle (by simp [ardCredentialsLen])
    refine ⟨asked, _, by simp [ardCredentialsLen], ?_, hready,
      ⟨hclient, by simp [AuthKind.clientLen, ardCredentialsLen]⟩⟩
    have hfeed := feed_message (k := fun head => keyed negotiated (u16At head.bytes 2))
      (f := { f with securityType := some AuthTypes.diffieHellman.value, inAuth := true }) head
      (by decide) rfl hloop
    exact (Records.single hfeed).congr (by simp [recorded, hf, keyed])

end HandshakeScrubber

end VncDoTool
