import VncDoTool.Capture.Stripping

/-!
# Credentials and the recorded streams

Two proxied sessions that differ only inside their authentication exchange, cut along one
schedule of chunks.

* `cut`: the chunks a schedule makes of two byte streams.
* `InTurn`: the handshake arrives in turn up to the end of the server's part of the exchange.
* `recording_eq_of_inTurn`: such a session is recorded without a trace of its exchange.
* `exists_recording_ne`: when the client's part arrives before the server's is complete, its
  first byte passes through and is recorded.
* `recording_discloses_challenge`: out of turn a recording does depend on the exchange.
-/

namespace VncDoTool

open HandshakeScrubber

/-! ## Schedules -/

/-- The chunks a schedule makes of two byte streams: for each entry the direction, and how many
of its remaining bytes. -/
def cut : List (Tap × ℕ) → (Tap → Bytes) → List Event
  | [], _ => []
  | (tap, size) :: schedule, streams =>
    (tap, (streams tap).take size) ::
      cut schedule (Function.update streams tap ((streams tap).drop size))

/-- A schedule takes each direction from the front of its stream. -/
theorem onTap_cut_isPrefix (schedule : List (Tap × ℕ)) (streams : Tap → Bytes) (tap : Tap) :
    onTap tap (arrivals (cut schedule streams)) <+: streams tap := by
  induction schedule generalizing streams with
  | nil => simp [cut]
  | cons e schedule ih =>
    obtain ⟨t, size⟩ := e
    have hrest := ih (Function.update streams t ((streams t).drop size))
    rw [cut, arrivals_cons, onTap_append, onTap_map]
    by_cases h : t = tap
    · subst h
      rw [Function.update_self] at hrest
      rw [if_pos rfl]
      conv_rhs => rw [← List.take_append_drop size (streams t)]
      exact (List.prefix_append_right_inj _).mpr hrest
    · rw [if_neg h, List.nil_append]
      simpa [Ne.symm h] using hrest

/-- The order of arrival, direction by direction, depends on the lengths of the streams only. -/
theorem order_cut (schedule : List (Tap × ℕ)) (streams streams' : Tap → Bytes)
    (h : ∀ tap, (streams tap).length = (streams' tap).length) :
    (arrivals (cut schedule streams)).map Prod.fst =
      (arrivals (cut schedule streams')).map Prod.fst := by
  induction schedule generalizing streams streams' with
  | nil => rfl
  | cons e schedule ih =>
    obtain ⟨t, size⟩ := e
    have hrest := ih (Function.update streams t ((streams t).drop size))
      (Function.update streams' t ((streams' t).drop size)) fun tap => by
        by_cases ht : tap = t
        · subst ht; simp [h]
        · simp [ht, h]
    simp only [cut, arrivals_cons, List.map_append, hrest]
    congr 1
    simp [Function.comp_def, List.map_const', h]

/-- Arrivals taken from the same streams in the same order are the same bytes. -/
theorem prefix_of_order {l m : List (Tap × UInt8)} (streams : Tap → Bytes)
    (hl : ∀ tap, onTap tap l <+: streams tap) (hm : ∀ tap, onTap tap m <+: streams tap)
    (h : l.map Prod.fst <+: m.map Prod.fst) : l <+: m := by
  induction l generalizing m streams with
  | nil => exact ⟨m, rfl⟩
  | cons x l ih =>
    obtain ⟨t, b⟩ := x
    cases m with
    | nil => simp at h
    | cons y m =>
      obtain ⟨t', b'⟩ := y
      simp only [List.map_cons, List.cons_prefix_cons] at h
      obtain ⟨rfl, h⟩ := h
      have hlt := hl t
      have hmt := hm t
      simp only [onTap_cons, if_true] at hlt hmt
      obtain ⟨rest, hrest⟩ := hlt
      rw [← hrest, List.cons_append, List.cons_prefix_cons] at hmt
      obtain ⟨rfl, hmt⟩ := hmt
      refine List.cons_prefix_cons.mpr ⟨rfl, ?_⟩
      refine ih (Function.update streams t (onTap t l ++ rest)) (fun tap => ?_)
        (fun tap => ?_) h
      · by_cases ht : tap = t
        · subst ht
          simp
        · have := hl tap
          simpa [onTap_cons, Ne.symm ht, ht] using this
      · by_cases ht : tap = t
        · subst ht
          simpa using hmt
        · have := hm tap
          simpa [onTap_cons, Ne.symm ht, ht] using this

namespace HandshakeScrubber

/-! ## Recordings in parts -/

/-- A recording is what the first part feeds out, and the recording of the rest. -/
theorem recording_append (e₁ e₂ : List Event) (s : HandshakeScrubber) :
    recording (e₁ ++ e₂) s = fun tap => (feedAll e₁ s).1 tap ++ recording e₂ (feedAll e₁ s).2 tap := by
  funext tap
  rw [recording, recording, feedAll_append]
  simp

theorem recording_cons (e : Event) (events : List Event) (s : HandshakeScrubber) :
    recording (e :: events) s = fun tap =>
      (if e.1 = tap then (feed e.1 e.2 s).1 else []) ++ recording events (feed e.1 e.2 s).2 tap := by
  rw [← List.singleton_append, recording_append, feedAll_singleton]
  funext tap
  by_cases h : e.1 = tap
  · subst h; simp
  · simp [h, Ne.symm h]

/-- Two ways of cutting the same arrivals have one recording. -/
theorem recording_eq_of_arrivals {e₁ e₂ : List Event} (h : arrivals e₁ = arrivals e₂)
    (s : HandshakeScrubber) : recording e₁ s = recording e₂ s := by
  rw [recording, recording, feedAll_eq_of_arrivals h]

/-- An absorbing step belongs to the exchange of a stripped capture. -/
theorem Absorbs.flush_eq_nil {tap t : Tap} {n : ℕ} {s : HandshakeScrubber} {final : Step}
    (h : Absorbs tap n s.step final) (hpos : 0 < n) : (flush t s).1 = [] := by
  obtain ⟨step, pending⟩ := s
  cases h with
  | refl => exact absurd hpos (Nat.lt_irrefl 0)
  | want hpreserve =>
    by_cases hp : pending t = [] <;> simp [flush, fields, hpreserve, hp]

/-- Part of what a phase absorbs, or all of it, leaves no trace. -/
theorem Ready.recording_eq_nil {tap : Tap} {n : ℕ} {step final : Step}
    (h : Ready tap n step final) (hfinal : Idle final) {data : Bytes} (hle : data.length ≤ n)
    (t : Tap) : recording [(tap, data)] (atRest step) t = [] := by
  by_cases hdata : data = []
  · rw [hdata, recording_cons]
    simp [recording, flush_atRest]
  have hpos : 0 < data.length := List.length_pos_iff.mpr hdata
  obtain ⟨step', r, r', hloop, -, -, habs, hdone⟩ := h.1.feedLoop_eq hfinal _ _ rfl hle
  have hwatch := h.1.watches (by omega)
  by_cases htotal : data.length = n
  · obtain ⟨rfl, rfl, -⟩ := hdone htotal
    rw [recording_cons, feed_turn hwatch hdata hloop]
    simp [recording, flush_atRest]
  · have hmore : 0 < n - data.length + r.length := by omega
    have hwatch' := habs.watches hmore
    rw [recording_cons, feed_of_watches (by simpa using hwatch) hdata]
    simp only [step_atRest, pending_atRest, List.nil_append, hloop, if_pos hwatch', recording,
      feedAll_nil, ite_self]
    exact Absorbs.flush_eq_nil (s := ⟨step', _⟩) habs hmore

/-- Two scrubbers in the client's part of an exchange, `n` bytes before its end: they stand at
one step and hold back as many bytes, of the client only. -/
structure Alike (n : ℕ) (final : Step) (s s' : HandshakeScrubber) : Prop where
  step : s.step = s'.step
  s2c : s.pending .s2c = []
  s2c' : s'.pending .s2c = []
  c2s : (s.pending .c2s).length = (s'.pending .c2s).length
  absorbs : Absorbs .c2s (n + (s.pending .c2s).length) s.step final

/-- A phase at rest is alike itself. -/
theorem Ready.alike {n : ℕ} {step final : Step} (h : Ready .c2s n step final) :
    Alike n final (atRest step) (atRest step) :=
  ⟨rfl, rfl, rfl, rfl, by simpa using h.1⟩

/-- A byte of the client's part, which may differ: nothing is recorded. With the last one the
two scrubbers are one. -/
theorem Alike.feed_c2s {n : ℕ} {final : Step} {s s' : HandshakeScrubber}
    (h : Alike (n + 1) final s s') (hfinal : Idle final) (b b' : UInt8) :
    (feed .c2s [b] s).1 = [] ∧ (feed .c2s [b'] s').1 = [] ∧
      Alike n final (feed .c2s [b] s).2 (feed .c2s [b'] s').2 ∧
      (n = 0 → (feed .c2s [b] s).2 = atRest final ∧ (feed .c2s [b'] s').2 = atRest final) := by
  obtain ⟨step, pending⟩ := s
  obtain ⟨step', pending'⟩ := s'
  obtain ⟨hstep, hs2c, hs2c', hc2s, habs⟩ := h
  simp only at hstep hs2c hs2c' hc2s habs
  subst hstep
  have hwatch : Watches step .c2s := habs.watches (by omega)
  obtain ⟨next, r, r', hr, hr', hrr, hnext, hdone⟩ := habs.feedLoop_eq hfinal
    (pending .c2s ++ [b]) (pending' .c2s ++ [b']) (by simp [hc2s])
    (by simp only [List.length_append, List.length_singleton]; omega)
  have hlen : (pending .c2s ++ [b]).length = (pending .c2s).length + 1 := by simp
  have hcount : n + 1 + (pending .c2s).length - (pending .c2s ++ [b]).length + r.length =
      n + r.length := by omega
  rw [hcount] at hnext
  have hend : n = 0 → next = final ∧ r = [] ∧ r' = [] := fun hn => hdone (by omega)
  -- what is left of the buffers stays pending, or is nothing
  have hfeed : ∀ (p : Tap → Bytes) (x : UInt8) (q : Bytes), p .s2c = [] →
      feedLoop .c2s step (p .c2s ++ [x]) = (next, q, []) → (n = 0 → q = []) →
      feed .c2s [x] ⟨step, p⟩ = ([], ⟨next, Function.update p .c2s q⟩) := by
    intro p x q hp hq hq0
    rw [feed_of_watches (by simpa using hwatch) (by simp)]
    simp only [hq]
    by_cases hw : Watches next .c2s
    · rw [if_pos hw]
    · have hn : n = 0 := by
        by_contra hn
        exact hw (hnext.watches (by omega))
      rw [if_neg hw, hq0 hn, List.append_nil]
  have hrest : ∀ p : Tap → Bytes, p .s2c = [] → Function.update p .c2s [] = fun _ => [] := by
    intro p hp
    funext t
    cases t <;> simp [hp]
  rw [hfeed pending b r hs2c hr fun hn => (hend hn).2.1,
    hfeed pending' b' r' hs2c' hr' fun hn => (hend hn).2.2]
  refine ⟨rfl, rfl, ⟨rfl, ?_, ?_, ?_, ?_⟩, fun hn => ?_⟩
  · simpa using hs2c
  · simpa using hs2c'
  · simpa using hrr
  · simpa using hnext
  · obtain ⟨rfl, rfl, rfl⟩ := hend hn
    rw [hrest pending hs2c, hrest pending' hs2c']
    exact ⟨rfl, rfl⟩

theorem Alike.symm {n : ℕ} {final : Step} {s s' : HandshakeScrubber} (h : Alike n final s s') :
    Alike n final s' s :=
  ⟨h.step.symm, h.s2c', h.s2c, h.c2s.symm, by
    have habs := h.absorbs
    rwa [h.step, h.c2s] at habs⟩

/-- A byte of the server passes through in the client's part. -/
theorem Alike.feed_s2c {n : ℕ} {final : Step} {s s' : HandshakeScrubber}
    (h : Alike (n + 1) final s s') (data : Bytes) : feed .s2c data s = (data, s) := by
  refine feed_of_not_watches (fun hw => ?_) h.s2c data
  obtain ⟨w, hrequest, htap⟩ := h.absorbs.watches (by omega)
  obtain ⟨w', hrequest', htap'⟩ := hw
  rw [hrequest] at hrequest'
  cases hrequest'
  rw [htap] at htap'
  cases htap'

/-- The client's part and what follows it, in whatever order the two directions arrive: two runs
that differ in the client's part only have one recording. -/
theorem Alike.recording_eq {final : Step} (hfinal : Idle final) {l l' : List (Tap × UInt8)}
    {n : ℕ} {s s' : HandshakeScrubber} {s2c x x' rest : Bytes}
    (horder : l.map Prod.fst = l'.map Prod.fst)
    (hs2c : onTap .s2c l <+: s2c) (hs2c' : onTap .s2c l' <+: s2c)
    (hc2s : onTap .c2s l <+: x ++ rest) (hc2s' : onTap .c2s l' <+: x' ++ rest)
    (hx : x.length = n) (hx' : x'.length = n) (h : Alike n final s s') (hzero : n = 0 → s = s') :
    recording (bytewise l) s = recording (bytewise l') s' := by
  induction l generalizing l' n s s' s2c x x' with
  | nil =>
    obtain rfl : l' = [] := by simpa using horder.symm
    by_cases hn : n = 0
    · rw [hzero hn]
    · funext tap
      have hflush := h.absorbs.flush_eq_nil (t := tap) (by omega)
      have hflush' := h.symm.absorbs.flush_eq_nil (t := tap) (by omega)
      simp [recording, bytewise, hflush, hflush']
  | cons e l ih =>
    obtain ⟨t, b⟩ := e
    cases l' with
    | nil => simp at horder
    | cons e' l' =>
      obtain ⟨t', b'⟩ := e'
      simp only [List.map_cons, List.cons.injEq] at horder
      obtain ⟨rfl, horder⟩ := horder
      cases n with
      | zero =>
        -- the exchange is over: the two runs are one
        obtain rfl : x = [] := List.eq_nil_of_length_eq_zero hx
        obtain rfl : x' = [] := List.eq_nil_of_length_eq_zero hx'
        have hpre : (t, b) :: l <+: (t, b') :: l' := by
          refine prefix_of_order (fun tap => if tap = .s2c then s2c else rest)
            (fun tap => ?_) (fun tap => ?_) (by simp [horder])
          · cases tap
            · simpa using hs2c
            · simpa using hc2s
          · cases tap
            · simpa using hs2c'
            · simpa using hc2s'
        have hlen : l.length = l'.length := by simpa using congrArg List.length horder
        rw [hpre.eq_of_length (by simp [hlen]), hzero rfl]
      | succ n =>
        rw [bytewise, bytewise, List.map_cons, List.map_cons, recording_cons, recording_cons]
        cases t with
        | s2c =>
          rw [onTap_cons, if_pos rfl] at hs2c hs2c'
          rw [onTap_cons, if_neg (by simp)] at hc2s hc2s'
          obtain ⟨u, rfl⟩ := hs2c
          rw [List.cons_append, List.cons_prefix_cons] at hs2c'
          obtain ⟨rfl, hs2c'⟩ := hs2c'
          rw [h.feed_s2c, h.symm.feed_s2c]
          have hrest := ih horder (List.prefix_append _ u) hs2c' hc2s hc2s' hx hx' h hzero
          simp only [bytewise] at hrest
          simp [hrest]
        | c2s =>
          rw [onTap_cons, if_neg (by simp)] at hs2c hs2c'
          rw [onTap_cons, if_pos rfl] at hc2s hc2s'
          cases x with
          | nil => simp at hx
          | cons y x =>
            cases x' with
            | nil => simp at hx'
            | cons y' x' =>
              rw [List.cons_append, List.cons_prefix_cons] at hc2s hc2s'
              obtain ⟨hout, hout', hnext, hdone⟩ := h.feed_c2s hfinal b b'
              have hrest := ih horder hs2c hs2c' hc2s.2 hc2s'.2 (by simpa using hx)
                (by simpa using hx') hnext fun hn => by rw [(hdone hn).1, (hdone hn).2]
              simp only [bytewise] at hrest
              simp [hout, hout', hrest]

end HandshakeScrubber

/-! ## Sessions with two exchanges -/

/-- The secret part of an authentication exchange. -/
structure Exchange (kind : AuthKind) : Type where
  server : Block kind.serverLen
  client : Block kind.clientLen

namespace Negotiation

variable (n : Negotiation)

/-- The two byte streams of a session: the negotiation, the exchange, and any traffic behind. -/
def streams (x : Exchange n.kind) (rest : Tap → Bytes) : Tap → Bytes
  | .s2c => bytesOn .s2c n.turns ++ n.kind.head ++ x.server.bytes ++ rest .s2c
  | .c2s => bytesOn .c2s n.turns ++ x.client.bytes ++ rest .c2s

/-- The directions of the bytes of a negotiation, in turn order. -/
def order : List Tap := (arrivals n.turns).map Prod.fst

end Negotiation

/-- The scrubber gave a session up. -/
def Aborted (events : List Event) : Prop :=
  (feedAll events (init false)).2.fields.abortReason ≠ none

/-- Two sessions cut along one schedule are both given up, or their recordings are the same. It
is asked of sessions with one negotiation and one traffic behind it, whose exchanges may differ;
a session without a followed exchange has no twin but itself. -/
def SameRecording (schedule : List (Tap × ℕ)) (streams streams' : Tap → Bytes) : Prop :=
  (Aborted (cut schedule streams) ∧ Aborted (cut schedule streams')) ∨
    recording (cut schedule streams) (init false) = recording (cut schedule streams') (init false)

/-- Of two orders, the shorter is how the longer begins. -/
def InStep (order order' : List Tap) : Prop := order <+: order' ∨ order' <+: order

/-- The order in which a schedule delivers the bytes of two streams. -/
def deliveryOrder (schedule : List (Tap × ℕ)) (streams : Tap → Bytes) : List Tap :=
  (arrivals (cut schedule streams)).map Prod.fst

/-- A session delivered in turn to the end of the server's part of its exchange: no byte of the
negotiation comes before its turn, and none of the client's part before the server's is
complete. -/
def InTurn (n : Negotiation) (delivery : List Tap) : Prop :=
  InStep delivery (n.order ++ List.replicate (n.kind.head.length + n.kind.serverLen) .s2c)

namespace HandshakeScrubber

variable (n : Negotiation) (x x' : Exchange n.kind) (rest : Tap → Bytes)

/-- The opening of a session: the negotiation and the server's part of the exchange. -/
def opening (n : Negotiation) (x : Exchange n.kind) : List Event :=
  n.turns ++ [(.s2c, n.kind.head ++ x.server.bytes)]

theorem order_opening : (arrivals (opening n x)).map Prod.fst =
    n.order ++ List.replicate (n.kind.head.length + n.kind.serverLen) .s2c := by
  simp [opening, Negotiation.order, Function.comp_def, List.map_const']

theorem onTap_opening (tap : Tap) :
    onTap tap (arrivals (opening n x)) <+: n.streams x rest tap := by
  rw [← bytesOn_eq_onTap]
  cases tap <;> simp [opening, Negotiation.streams]

/-- The phases of an opening: the negotiation with the clear head of the exchange, what the
server sends under it, and what the client does. -/
theorem opening_phases : ∃ asked answering,
    Idle answering ∧
      Records (n.turns ++ [(.s2c, n.kind.head)]) n.stripped.turns (init false) (atRest asked) ∧
      Ready .s2c n.kind.serverLen asked answering ∧
      Ready .c2s n.kind.clientLen answering
        ((admission n.version n.kind.sectype.value).run (n.kind.exchanged n.fields)) := by
  obtain ⟨asked, answering, hidle, hhead, hserver, hclient⟩ :=
    exchange_phases n.version n.kind (f := n.fields) rfl
  refine ⟨asked, answering, hidle, ?_, hserver, hclient⟩
  simpa using (records_negotiation n).append hhead

theorem streams_s2c :
    n.streams x rest .s2c = onTap .s2c (arrivals (opening n x)) ++ rest .s2c := by
  rw [← bytesOn_eq_onTap]
  simp [opening, Negotiation.streams]

theorem streams_c2s :
    n.streams x rest .c2s =
      onTap .c2s (arrivals (opening n x)) ++ (x.client.bytes ++ rest .c2s) := by
  rw [← bytesOn_eq_onTap]
  simp [opening, Negotiation.streams]

theorem arrivals_head_isPrefix :
    arrivals (n.turns ++ [(.s2c, n.kind.head)]) <+: arrivals (opening n x) := by
  simp [opening]

/-- The opening as a whole. -/
theorem records_opening : ∃ answering final,
    Idle answering ∧ Idle final ∧
      (∀ x : Exchange n.kind,
        Records (opening n x) n.stripped.turns (init false) (atRest answering)) ∧
      Ready .c2s n.kind.clientLen answering final := by
  obtain ⟨asked, answering, hidle, hhead, hserver, hclient⟩ := opening_phases n
  refine ⟨answering, _, hidle, (waits_admission n.version n.kind _).1, fun x => ?_, hclient⟩
  have hparts := hhead.append (hserver.records hidle x.server)
  rw [List.append_nil] at hparts
  have hcut : arrivals (opening n x) =
      arrivals ((n.turns ++ [(.s2c, n.kind.head)]) ++ [(.s2c, x.server.bytes)]) := by
    simp [opening]
  rw [Records, feedAll_eq_of_arrivals hcut]
  exact hparts

/-- A recording that ends inside the server's part of the exchange shows nothing of it. -/
theorem recording_opening_isPrefix {events : List Event}
    (h : arrivals events <+: arrivals (opening n x))
    (hlen : (arrivals (n.turns ++ [(.s2c, n.kind.head)])).length ≤ (arrivals events).length) :
    recording events (init false) = fun tap => bytesOn tap n.stripped.turns := by
  obtain ⟨asked, answering, hidle, hhead, hserver, -⟩ := opening_phases n
  have hopening : arrivals (opening n x) = arrivals (n.turns ++ [(.s2c, n.kind.head)]) ++
      x.server.bytes.map fun b => (.s2c, b) := by
    simp [opening]
  rw [hopening] at h
  obtain ⟨r, hr⟩ := List.prefix_of_prefix_length_le (List.prefix_append _ _) h hlen
  rw [← hr, List.prefix_append_right_inj, List.prefix_map_iff] at h
  obtain ⟨v, hv, rfl⟩ := h
  have hcut : arrivals events =
      arrivals ((n.turns ++ [(.s2c, n.kind.head)]) ++ [(.s2c, v)]) := by
    rw [← hr, arrivals_append]
    simp
  have hle : v.length ≤ n.kind.serverLen := by simpa using hv.length_le
  rw [recording_eq_of_arrivals hcut, recording_append, hhead]
  funext tap
  simp [hserver.recording_eq_nil hidle hle]

/-- Delivered in turn, the exchange leaves no trace in the recording. -/
theorem recording_eq_of_inTurn {schedule : List (Tap × ℕ)}
    (h : InTurn n (deliveryOrder schedule (n.streams x rest))) :
    recording (cut schedule (n.streams x rest)) (init false) =
      recording (cut schedule (n.streams x' rest)) (init false) := by
  have hl := onTap_cut_isPrefix schedule (n.streams x rest)
  have hl' := onTap_cut_isPrefix schedule (n.streams x' rest)
  have horder := order_cut schedule (n.streams x rest)
    (n.streams x' rest) fun tap => by cases tap <;> simp [Negotiation.streams]
  have hlen : (arrivals (cut schedule (n.streams x rest))).length =
      (arrivals (cut schedule (n.streams x' rest))).length := by
    simpa using congrArg List.length horder
  rcases h with h | h
  · -- the session ends inside the opening
    have hp : arrivals (cut schedule (n.streams x rest)) <+: arrivals (opening n x) :=
      prefix_of_order _ hl (onTap_opening n x rest) (by rw [order_opening]; exact h)
    have hp' : arrivals (cut schedule (n.streams x' rest)) <+: arrivals (opening n x') :=
      prefix_of_order _ hl' (onTap_opening n x' rest)
        (by rw [order_opening, ← horder]; exact h)
    by_cases hhead : (arrivals (n.turns ++ [(.s2c, n.kind.head)])).length ≤
        (arrivals (cut schedule (n.streams x rest))).length
    · rw [recording_opening_isPrefix n x hp hhead,
        recording_opening_isPrefix n x' hp' (hlen ▸ hhead)]
    · -- nothing of the exchange has arrived but its clear head
      have hshort : ∀ (y : Exchange n.kind) {l : List (Tap × UInt8)},
          l <+: arrivals (opening n y) →
          l.length ≤ (arrivals (n.turns ++ [(.s2c, n.kind.head)])).length →
          l <+: arrivals (n.turns ++ [(.s2c, n.kind.head)]) := by
        intro y l hy hle
        exact List.prefix_of_prefix_length_le hy (arrivals_head_isPrefix n y) hle
      have hleft := hshort x hp (by omega)
      have hright := hshort x' hp' (by omega)
      have heq := List.prefix_of_prefix_length_le hleft hright hlen.le
      exact recording_eq_of_arrivals (heq.eq_of_length hlen) _
  · -- the opening is complete: the rest is the client's part and what follows
    obtain ⟨r, hr⟩ : arrivals (opening n x) <+: arrivals (cut schedule (n.streams x rest)) :=
      prefix_of_order _ (onTap_opening n x rest) hl (by rw [order_opening]; exact h)
    obtain ⟨r', hr'⟩ : arrivals (opening n x') <+: arrivals (cut schedule (n.streams x' rest)) :=
      prefix_of_order _ (onTap_opening n x' rest) hl' (by rw [order_opening, ← horder]; exact h)
    obtain ⟨answering, final, hanswering, hfinal, hopening, hclient⟩ := records_opening n 
    have hcut : ∀ (y : Exchange n.kind) {events : List Event} {q : List (Tap × UInt8)},
        arrivals (opening n y) ++ q = arrivals events → recording events (init false) = fun tap =>
          bytesOn tap n.stripped.turns ++ recording (bytewise q) (atRest answering) tap := by
      intro y events q hq
      have harrivals : arrivals events = arrivals (opening n y ++ bytewise q) := by
        rw [← hq, arrivals_append, arrivals_bytewise]
      rw [recording_eq_of_arrivals harrivals, recording_append, hopening y]
    have htaps : ∀ (y : Exchange n.kind) {q : List (Tap × UInt8)},
        (∀ tap, onTap tap (arrivals (opening n y) ++ q) <+: n.streams y rest tap) →
        onTap .s2c q <+: rest .s2c ∧ onTap .c2s q <+: y.client.bytes ++ rest .c2s := by
      intro y q hq
      have hs2c := hq .s2c
      have hc2s := hq .c2s
      rw [onTap_append, streams_s2c, List.prefix_append_right_inj] at hs2c
      rw [onTap_append, streams_c2s, List.prefix_append_right_inj] at hc2s
      exact ⟨hs2c, hc2s⟩
    have hx := htaps x (hr ▸ hl)
    have hx' := htaps x' (hr' ▸ hl')
    have hrest : r.map Prod.fst = r'.map Prod.fst := by
      rw [← hr, ← hr', List.map_append, List.map_append, order_opening, order_opening] at horder
      exact List.append_cancel_left horder
    rw [hcut x hr, hcut x' hr', hclient.alike.recording_eq hfinal hrest hx.1 hx'.1 hx.2 hx'.2
      (by simp) (by simp) fun _ => rfl]

theorem Watches.eq {step : Step} {t t' : Tap} (h : Watches step t) (h' : Watches step t') :
    t = t' := by
  obtain ⟨w, hrequest, rfl⟩ := h
  obtain ⟨w', hrequest', rfl⟩ := h'
  rw [hrequest] at hrequest'
  cases hrequest'
  rfl

/-- A feed leaves what the other direction holds back alone. -/
theorem pending_feed_of_ne {tap t : Tap} (h : t ≠ tap) (data : Bytes) (s : HandshakeScrubber) :
    (feed tap data s).2.pending t = s.pending t := by
  by_cases hdata : data = []
  · simp [hdata]
  by_cases hw : Watches s.step tap
  · rw [feed_of_watches hw hdata]
    dsimp only
    split <;> simp [h]
  · simp [feed, hdata, hw, h]

/-! ## What out-of-turn bytes disclose -/

/-- An order in step with a negotiation but not with the opening breaks off where the client
speaks too early. -/
theorem exists_early_client {order negotiation : List Tap} {m : ℕ}
    (hstep : InStep order negotiation)
    (hturn : ¬ InStep order (negotiation ++ List.replicate m .s2c)) :
    ∃ j < m, negotiation ++ List.replicate j .s2c ++ [.c2s] <+: order := by
  rcases hstep with h | ⟨r, rfl⟩
  · exact absurd (Or.inl (h.trans (List.prefix_append _ _))) hturn
  have hbehind : ¬ InStep r (List.replicate m .s2c) := by
    simpa [InStep, List.prefix_append_right_inj] using hturn
  clear hturn
  suffices hsuffices : ∃ j < m, List.replicate j Tap.s2c ++ [.c2s] <+: r by
    obtain ⟨j, hj, hr⟩ := hsuffices
    exact ⟨j, hj, by simpa [List.append_assoc, List.prefix_append_right_inj] using hr⟩
  induction m generalizing r with
  | zero => exact absurd (Or.inr ⟨_, rfl⟩) hbehind
  | succ m ih =>
    cases r with
    | nil => exact absurd (Or.inl ⟨_, rfl⟩) hbehind
    | cons t r =>
      cases t with
      | c2s => exact ⟨0, Nat.succ_pos m, by simp⟩
      | s2c =>
        have hr : ¬ InStep r (List.replicate m .s2c) := by
          simpa [InStep, List.replicate_succ] using hbehind
        obtain ⟨j, hj, hpre⟩ := ih r hr
        exact ⟨j + 1, Nat.succ_lt_succ hj, by simpa [List.replicate_succ] using hpre⟩

/-- What always holds of a grammar still holds after a feed. -/
theorem always_feed {P : Fields → Prop} (hP : ∀ f, P f → P { f with recording := none })
    (tap : Tap) (data : Bytes) {s : HandshakeScrubber} (h : s.step.Always P) :
    (feed tap data s).2.step.Always P := by
  have hloop : ∀ (step : Step) (buf : Bytes), step.Always P →
      (feedLoop tap step buf).1.Always P := by
    intro step
    induction step with
    | done f a => exact fun _ h => h
    | failed f e => exact e.elim
    | yielded f w k ih =>
      intro buf h
      rw [feedLoop]
      split
      · exact ih _ _ _ (h.2 _ _ (hP f h.1))
      · exact h
  by_cases hdata : data = []
  · simpa [hdata] using h
  by_cases hw : Watches s.step tap
  · rw [feed_of_watches hw hdata]
    dsimp only
    split <;> exact hloop _ _ h
  · simpa [feed, hdata, hw] using h

theorem always_feedAll {P : Fields → Prop} (hP : ∀ f, P f → P { f with recording := none })
    (events : List Event) {s : HandshakeScrubber} (h : s.step.Always P) :
    (feedAll events s).2.step.Always P := by
  induction events generalizing s with
  | nil => exact h
  | cons e events ih => exact ih (always_feed hP e.1 e.2 h)

/-- Past the negotiation of a followed type nothing gives a session up. -/
theorem keeps_session (negotiated : Ver) (kind : AuthKind) :
    Coroutine.Keeps (fun f => f.abortReason = none)
      (session negotiated kind.sectype.value) := by
  have hwant : ∀ tap nbytes, Coroutine.Keeps (fun f => f.abortReason = none) (want tap nbytes) :=
    fun tap nbytes => .yield (Want.mk tap nbytes)
  have hrecord : ∀ data, Coroutine.Keeps (fun f => f.abortReason = none) (record data) :=
    fun data => .modify fun _ h => h
  have hauthenticate : Coroutine.Keeps (fun f => f.abortReason = none)
      (authenticate kind.sectype.value) := by
    cases kind with
    | none => exact .pure true
    | vnc => exact .bind (hwant _ _) fun _ => .bind (hwant _ _) fun _ => .pure true
    | ard head =>
      exact .bind (hwant _ _) fun _ => .bind (hwant _ _) fun _ => .bind (hwant _ _) fun _ =>
        .bind (hwant _ _) fun _ => .bind (hwant _ _) fun _ => .pure true
  have hresult : Coroutine.Keeps (fun f => f.abortReason = none)
      (securityResult negotiated kind.sectype.value) := by
    refine .ite (.pure true) (.bind (hwant _ _) fun _ => .ite ?_ ?_)
    · exact .bind (hrecord _) fun _ => .pure true
    · exact .ite (.pure false) (.bind (hrecord _) fun _ => .pure false)
  have hinitialisation : Coroutine.Keeps (fun f => f.abortReason = none) initialisation := by
    refine .bind (hwant _ _) fun _ => .bind (hwant _ _) fun _ => .bind (.modify fun _ h => h)
      fun _ => .ite (.pure ()) (.bind (hwant _ _) fun _ => .pure ())
  refine .bind (.modify fun _ h => h) fun _ => .bind hauthenticate fun ok => .ite ?_ (.pure ())
  exact .bind (.modify fun _ h => h) fun _ => .bind hresult fun ok => .ite hinitialisation (.pure ())

/-- A session of a followed type that is in step with its negotiation is not given up. -/
theorem not_aborted {events : List Event} (h : arrivals n.turns <+: arrivals events) :
    ¬ Aborted events := by
  obtain ⟨r, hr⟩ := h
  have hcut : arrivals events = arrivals (n.turns ++ bytewise r) := by simp [hr]
  have hkeeps := keeps_session n.version n.kind n.fields rfl
  rw [Aborted, not_not, feedAll_eq_of_arrivals hcut, feedAll_append, records_negotiation n]
  exact (always_feedAll (s := atRest _) (fun _ h => h) (bytewise r) hkeeps).state

/-- While a byte of the server's opening is missing, the client's bytes pass through. -/
theorem records_early_client {v w : Bytes} (hw : w ≠ [])
    (h : v ++ w = n.kind.head ++ x.server.bytes) (b : UInt8) :
    ∃ s, Records (n.turns ++ [(.s2c, v)] ++ [(.c2s, [b])]) (n.stripped.turns ++ [(.c2s, [b])])
      (init false) s := by
  obtain ⟨answering, -, -, -, hopening, -⟩ := records_opening n
  have hturns := records_negotiation n
  set s₀ := atRest ((session n.version n.kind.sectype.value).run n.fields)
  have hall := hopening x
  rw [opening, ← h, Records, feedAll_append, hturns, feedAll_singleton, feed_append] at hall
  have hout := congrFun (congrArg Prod.fst hall) .s2c
  simp only [Function.update_self, List.append_right_eq_self, List.append_eq_nil_iff] at hout
  obtain ⟨hv, hrest⟩ := hout
  have hwatch : Watches (feed .s2c v s₀).2.step .s2c := by
    by_contra hwatch
    rw [feed, if_neg hw, if_neg hwatch] at hrest
    simp [hw] at hrest
  have hpending : (feed .s2c v s₀).2.pending .c2s = [] := pending_feed_of_ne (by simp) v s₀
  have hclient := feed_of_not_watches (fun h' => absurd (hwatch.eq h') (by simp)) hpending [b]
  have hserver : feed .s2c v s₀ = ([], (feed .s2c v s₀).2) := Prod.ext hv rfl
  refine ⟨_, ((hturns.append (.single hserver)).append (.single hclient)).congr fun tap => ?_⟩
  simp

/-- A delivery in step with the negotiation whose client speaks too early records the first
byte of the client's part. -/
theorem recording_early_client {schedule : List (Tap × ℕ)} {b : UInt8} {client : Bytes}
    (hclient : x.client.bytes = b :: client) {j : ℕ}
    (hj : j < n.kind.head.length + n.kind.serverLen)
    (h : n.order ++ List.replicate j .s2c ++ [.c2s] <+:
      deliveryOrder schedule (n.streams x rest)) :
    ¬ Aborted (cut schedule (n.streams x rest)) ∧
      ∃ tail, recording (cut schedule (n.streams x rest)) (init false) .c2s =
        bytesOn .c2s n.stripped.turns ++ b :: tail := by
  -- the server's bytes that came first, and those still missing
  obtain ⟨v, w, hvw, hv, hw⟩ : ∃ v w, v ++ w = n.kind.head ++ x.server.bytes ∧ v.length = j ∧
      w ≠ [] := by
    refine ⟨_, _, List.take_append_drop j _, ?_, ?_⟩
    · rw [List.length_take, List.length_append, Block.length_bytes]
      omega
    · rw [← List.length_pos_iff, List.length_drop, List.length_append, Block.length_bytes]
      omega
  obtain ⟨s, hs⟩ := records_early_client n x hw hvw b
  have horder : (arrivals (n.turns ++ [(.s2c, v)] ++ [(.c2s, [b])])).map Prod.fst =
      n.order ++ List.replicate j .s2c ++ [.c2s] := by
    simp [Negotiation.order, Function.comp_def, List.map_const', hv]
  obtain ⟨r, hr⟩ : arrivals (n.turns ++ [(.s2c, v)] ++ [(.c2s, [b])]) <+:
      arrivals (cut schedule (n.streams x rest)) := by
    refine prefix_of_order _ (fun tap => ?_) (onTap_cut_isPrefix schedule (n.streams x rest))
      (by rw [horder]; exact h)
    rw [← bytesOn_eq_onTap]
    cases tap with
    | s2c =>
      have hstream : n.streams x rest .s2c = bytesOn .s2c n.turns ++ (v ++ (w ++ rest .s2c)) := by
        rw [← List.append_assoc v, hvw]
        simp [Negotiation.streams]
      simp [hstream, List.prefix_append_right_inj]
    | c2s =>
      simp [Negotiation.streams, hclient, List.prefix_append_right_inj]
  have hcut : arrivals (cut schedule (n.streams x rest)) =
      arrivals (n.turns ++ [(.s2c, v)] ++ [(.c2s, [b])] ++ bytewise r) := by
    rw [← hr, arrivals_append _ (bytewise r), arrivals_bytewise]
  refine ⟨not_aborted n ?_, recording (bytewise r) s .c2s, ?_⟩
  · rw [hcut]
    simp
  · rw [recording_eq_of_arrivals hcut, recording_append, hs]
    simp

/-- Delivered in step with the negotiation but not in turn, a session has a twin whose recording
differs. -/
theorem exists_recording_ne (hkind : n.kind ≠ .none) {schedule : List (Tap × ℕ)}
    (hstep : InStep (deliveryOrder schedule (n.streams x rest)) n.order)
    (hturn : ¬ InTurn n (deliveryOrder schedule (n.streams x rest))) :
    ∃ x' : Exchange n.kind, ¬ SameRecording schedule (n.streams x rest) (n.streams x' rest) := by
  obtain ⟨j, hj, hearly⟩ := exists_early_client hstep hturn
  have hpos := AuthKind.clientLen_pos hkind
  obtain ⟨b, client, hclient⟩ : ∃ b client, x.client.bytes = b :: client := by
    refine List.exists_cons_of_ne_nil ?_
    rw [← List.length_pos_iff, Block.length_bytes]
    exact hpos
  have hlen : ((b + 1) :: client).length = n.kind.clientLen := by
    rw [← x.client.length_bytes, hclient]
    simp
  let x' : Exchange n.kind := { x with client := .of ((b + 1) :: client) hlen }
  have hearly' : n.order ++ List.replicate j .s2c ++ [.c2s] <+:
      deliveryOrder schedule (n.streams x' rest) := by
    rw [deliveryOrder, order_cut schedule _ (n.streams x rest)]
    · exact hearly
    · intro tap
      cases tap <;> simp [Negotiation.streams]
  obtain ⟨hkept, tail, hrecording⟩ := recording_early_client n x rest hclient hj hearly
  obtain ⟨-, tail', hrecording'⟩ := recording_early_client n x' rest
    (by simp [x'] : x'.client.bytes = (b + 1) :: client) hj hearly'
  refine ⟨x', fun h => ?_⟩
  rcases h with ⟨habort, -⟩ | hsame
  · exact hkept habort
  · have hbyte := congrFun hsame .c2s
    rw [hrecording, hrecording', List.append_right_inj, List.cons.injEq] at hbyte
    exact absurd hbyte.1 (by simp)

/-- When credentials are kept out of a recording. A session delivered in turn, to the end of the
server's part of its exchange, is recorded like every other session with the same negotiation and
traffic; and where the negotiation is in step, being in turn is necessary. -/
theorem sameRecording_of_inTurn_iff (schedule : List (Tap × ℕ)) :
    (InTurn n (deliveryOrder schedule (n.streams x rest)) →
        ∀ x', SameRecording schedule (n.streams x rest) (n.streams x' rest)) ∧
      (n.kind ≠ .none → InStep (deliveryOrder schedule (n.streams x rest)) n.order →
        ((∀ x', SameRecording schedule (n.streams x rest) (n.streams x' rest)) ↔
          InTurn n (deliveryOrder schedule (n.streams x rest)))) := by
  refine ⟨fun h x' => Or.inr (recording_eq_of_inTurn n x x' rest h), fun hkind hstep => ⟨?_, ?_⟩⟩
  · intro hsame
    by_contra hturn
    obtain ⟨x', hx'⟩ := exists_recording_ne n x rest hkind hstep hturn
    exact hx' (hsame x')
  · exact fun h x' => Or.inr (recording_eq_of_inTurn n x x' rest h)

end HandshakeScrubber

/-! ## A challenge sent with the greeting -/

/-- `"RFB 003.003\n"`. -/
def version33 : Bytes := [82, 70, 66, 32, 48, 48, 51, 46, 48, 48, 51, 10]

/-- A 3.3 negotiation of VNC Authentication. -/
def Negotiation.sample : Negotiation where
  greeting := .of version33 rfl
  reply := .of version33 rfl
  version := (3, 3)
  parses := by decide
  types := [2]
  types_ne := by simp
  types_le := by simp
  kind := .vnc

/-- An exchange whose challenge and response repeat one byte. -/
def Exchange.sample (b : UInt8) : Exchange .vnc where
  server := .of (List.replicate 16 b) List.length_replicate
  client := .of (List.replicate 16 b) List.length_replicate

namespace HandshakeScrubber

/-- The server's greeting, type and challenge reach the scrubber before the client's reply: the
challenge is recorded. -/
theorem recording_discloses_challenge :
    ¬ ∀ (n : Negotiation) (x x' : Exchange n.kind) (rest : Tap → Bytes)
      (schedule : List (Tap × ℕ)),
      SameRecording schedule (n.streams x rest) (n.streams x' rest) := by
  intro h
  rcases h .sample (.sample 7) (.sample 8) (fun _ => []) [(.s2c, 32), (.c2s, 12), (.c2s, 16)]
    with ⟨habort, -⟩ | hsame
  · exact habort (by decide)
  · exact absurd (congrFun hsame .s2c) (by decide)

/-- The same session delivered in turn, for two exchanges. -/
theorem sameRecording_sample :
    SameRecording [(.s2c, 12), (.c2s, 12), (.s2c, 20), (.c2s, 16)]
      (Negotiation.sample.streams (.sample 7) fun _ => [])
      (Negotiation.sample.streams (.sample 8) fun _ => []) :=
  (sameRecording_of_inTurn_iff Negotiation.sample (.sample 7) (fun _ => [])
    [(.s2c, 12), (.c2s, 12), (.s2c, 20), (.c2s, 16)]).1 (Or.inr (by decide)) (.sample 8)

end HandshakeScrubber

end VncDoTool
