import Mathlib.Data.List.Induction
import VncDoTool.Replay.Protocol

/-!
# The pace of a replay

How much of a recording a client may have been sent, by the bytes it has sent itself, and that a replay
sends exactly that.

* `ReplayProtocol.permitted`: the limit, read off the grammar of the handshake.
* `ReplayProtocol.Paces`: what holds in the loop of `advance`; `ReplayProtocol.paces_round`.
* `ReplayProtocol.replay_paced`: every connection.
-/

namespace VncDoTool

namespace ReplayProtocol

open Replay HandshakeScrubber

/-! ## The limit -/

/-- How much of a recording a client may have once it has sent `c2s`: from a point of the grammar on,
each step of the server's once the client has sent what is asked of it before that step; what follows
the handshake once it has asked for a framebuffer, or at once where the grammar never saw ServerInit. A
recording that ends within a step may be sent to its end. -/
def permitted : Step → (s2c c2s : Bytes) → ℕ
  | .done f _, s2c, c2s => if f.width.isSome ∧ ¬Asks c2s then 0 else s2c.length
  | .failed _ _, s2c, _ => s2c.length
  | .yielded f w k, s2c, c2s =>
    if w.tap = .s2c then
      if h : w.nbytes ≤ s2c.length then
        w.nbytes + permitted (k (Block.ofPrefix w.nbytes s2c h) { f with recording := none })
          (s2c.drop w.nbytes) c2s
      else s2c.length
    else if h : w.nbytes ≤ c2s.length then
      permitted (k (Block.ofPrefix w.nbytes c2s h) { f with recording := none }) s2c
        (c2s.drop w.nbytes)
    else 0

variable {f : Fields} {w : Want} {k : Answer w → Fields → Step} {s2c c2s : Bytes}

theorem permitted_server (htap : w.tap = .s2c) (h : w.nbytes ≤ s2c.length) :
    permitted (.yielded f w k) s2c c2s =
      w.nbytes + permitted (k (Block.ofPrefix w.nbytes s2c h) { f with recording := none })
        (s2c.drop w.nbytes) c2s := by
  rw [permitted, if_pos htap, dif_pos h]

theorem permitted_truncated (htap : w.tap = .s2c) (h : ¬w.nbytes ≤ s2c.length) :
    permitted (.yielded f w k) s2c c2s = s2c.length := by
  rw [permitted, if_pos htap, dif_neg h]

theorem permitted_client (htap : w.tap = .c2s) (h : w.nbytes ≤ c2s.length) :
    permitted (.yielded f w k) s2c c2s =
      permitted (k (Block.ofPrefix w.nbytes c2s h) { f with recording := none }) s2c
        (c2s.drop w.nbytes) := by
  rw [permitted, if_neg (by rw [htap]; decide), dif_pos h]

theorem permitted_awaiting (htap : w.tap = .c2s) (h : ¬w.nbytes ≤ c2s.length) :
    permitted (.yielded f w k) s2c c2s = 0 := by
  rw [permitted, if_neg (by rw [htap]; decide), dif_neg h]

theorem tap_cases (tap : Tap) : tap = .s2c ∨ tap = .c2s := by
  cases tap with
  | s2c => exact .inl rfl
  | c2s => exact .inr rfl

/-- No more than there is. -/
theorem permitted_le (step : Step) (s2c c2s : Bytes) : permitted step s2c c2s ≤ s2c.length := by
  induction step generalizing s2c c2s with
  | done f a =>
    rw [permitted]
    split
    · exact Nat.zero_le _
    · exact Nat.le_refl _
  | failed f e => exact e.elim
  | yielded f w k ih =>
    rcases tap_cases w.tap with htap | htap
    · by_cases h : w.nbytes ≤ s2c.length
      · have hrest := ih (Block.ofPrefix w.nbytes s2c h) { f with recording := none }
          (s2c.drop w.nbytes) c2s
        rw [List.length_drop] at hrest
        rw [permitted_server htap h]
        omega
      · exact Nat.le_of_eq (permitted_truncated htap h)
    · by_cases h : w.nbytes ≤ c2s.length
      · rw [permitted_client htap h]
        exact ih _ _ _ _
      · rw [permitted_awaiting htap h]
        exact Nat.zero_le _

/-- A request that was found is found again with more behind it. -/
theorem asks_append {buffer : Bytes} (h : Asks buffer) (more : Bytes) : Asks (buffer ++ more) := by
  rw [← saw_iff_asks] at h ⊢
  exact (saw_append buffer more).1 h

/-- More from the client takes nothing back. -/
theorem permitted_mono (step : Step) (s2c c2s more : Bytes) :
    permitted step s2c c2s ≤ permitted step s2c (c2s ++ more) := by
  induction step generalizing s2c c2s with
  | done f a =>
    rw [permitted, permitted]
    by_cases hholds : f.width.isSome ∧ ¬Asks c2s
    · rw [if_pos hholds]
      exact Nat.zero_le _
    · have hopen : ¬(f.width.isSome ∧ ¬Asks (c2s ++ more)) := fun hboth =>
        hholds ⟨hboth.1, fun hasks => hboth.2 (asks_append hasks more)⟩
      rw [if_neg hholds, if_neg hopen]
  | failed f e => exact e.elim
  | yielded f w k ih =>
    rcases tap_cases w.tap with htap | htap
    · by_cases h : w.nbytes ≤ s2c.length
      · rw [permitted_server htap h, permitted_server htap h]
        exact Nat.add_le_add_left (ih _ _ _ _) _
      · rw [permitted_truncated htap h, permitted_truncated htap h]
    · by_cases h : w.nbytes ≤ c2s.length
      · have hmore : w.nbytes ≤ (c2s ++ more).length := by
          rw [List.length_append]
          omega
        have hsame : Block.ofPrefix w.nbytes (c2s ++ more) hmore = Block.ofPrefix w.nbytes c2s h :=
          Block.ext (List.take_append_of_le_length h)
        rw [permitted_client htap h, permitted_client htap hmore, hsame,
          List.drop_append_of_le_length h]
        exact ih _ _ _ _
      · rw [permitted_awaiting htap h]
        exact Nat.zero_le _

/-- Empty wants do not count. -/
theorem permitted_settled (tap : Tap) (step : Step) (s2c c2s : Bytes) :
    permitted (feedLoop tap step []).1 s2c c2s = permitted step s2c c2s := by
  induction step generalizing s2c c2s with
  | done f a => rfl
  | failed f e => exact e.elim
  | yielded f w k ih =>
    by_cases hempty : w.tap = tap ∧ w.nbytes ≤ ([] : Bytes).length
    · obtain ⟨rfl, hzero⟩ := hempty
      have hnone : w.nbytes = 0 := Nat.le_zero.mp hzero
      have hblock : ∀ (bytes : Bytes) h, Block.ofPrefix w.nbytes bytes h =
          Block.ofPrefix w.nbytes [] hzero := by
        intro bytes h
        apply Block.ext
        rw [Block.bytes_ofPrefix, Block.bytes_ofPrefix, hnone, List.take_zero, List.take_zero]
      have hdrop : ∀ bytes : Bytes, bytes.drop w.nbytes = bytes := by
        intro bytes
        rw [hnone, List.drop_zero]
      rw [feedLoop, dif_pos ⟨rfl, hzero⟩]
      dsimp only
      rw [hdrop, ih]
      rcases tap_cases w.tap with htap | htap
      · rw [permitted_server htap (by omega), hblock s2c (by omega), hdrop]
        omega
      · rw [permitted_client htap (by omega), hblock c2s (by omega), hdrop]
    · rw [feedLoop, dif_neg hempty]

/-! ## The loop -/

/-- A scrubber that holds nothing back and is fed what it waits for holds nothing back again. -/
theorem feed_exact {s : HandshakeScrubber} (hrest : ∀ tap, s.pending tap = [])
    (hstep : s.step = .yielded f w k) (hpos : 0 < w.nbytes) (x : Answer w) :
    (∀ tap, (feed w.tap x.bytes s).2.pending tap = []) ∧
      (feed w.tap x.bytes s).2.step =
        (feedLoop w.tap (k x { f with recording := none }) []).1 := by
  have hne : x.bytes ≠ [] := by
    rw [← List.length_pos_iff, x.length_bytes]
    exact hpos
  have hwatch : Watches s.step w.tap := by
    rw [hstep]
    exact ⟨w, rfl, rfl⟩
  have hloop := feedLoop_block (f := f) (k := k) x []
  have hleft := feedLoop_nil w.tap (k x { f with recording := none })
  rw [List.append_nil] at hloop
  have hupdate : ∀ tap, Function.update s.pending w.tap [] tap = [] := by
    intro tap
    by_cases heq : tap = w.tap
    · rw [heq, Function.update_self]
    · rw [Function.update_of_ne heq, hrest]
  rw [feed_of_watches hwatch hne, hrest, List.nil_append, hstep, hloop]
  dsimp only
  rw [hleft]
  split
  · exact ⟨hupdate, rfl⟩
  · exact ⟨hupdate, rfl⟩

variable {capture : Capture} {received : Bytes} {r r' : ReplayProtocol}

/-- A replay in the loop of `advance`, or between two chunks, after the client has sent `received`. -/
structure Paces (capture : Capture) (received : Bytes) (r : ReplayProtocol) : Prop where
  written : r.written.flatten = capture.s2c.take r.pos
  pos : r.pos ≤ capture.s2c.length
  exhausted : r.exhausted = false
  closed : r.closed = false
  poised : Poised r.scrubber
  /-- The scrubber is only ever fed what it waits for. -/
  rest : ∀ tap, r.scrubber.pending tap = []
  awaiting : r.awaitingRequest = true →
    r.scrubber.waiting = none ∧ r.scrubber.fields.width.isSome = true
  /-- What the client may have is what it has been sent, and what it may have from here on. -/
  owed : ∀ more, permitted (HandshakeScrubber.init false).step capture.s2c (received ++ more) =
    r.pos + permitted r.scrubber.step (capture.s2c.drop r.pos) (r.buffer ++ more)

/-- A replay that waits for more of the client, or for nothing any more. -/
structure Settled (capture : Capture) (received : Bytes) (r : ReplayProtocol) : Prop where
  written : r.written.flatten = capture.s2c.take r.pos
  /-- No more than the client may have has been sent, and no less unless the connection is being
  closed. -/
  pos : r.pos ≤ permitted (HandshakeScrubber.init false).step capture.s2c received
  prompt : r.closed = false →
    r.pos = permitted (HandshakeScrubber.init false).step capture.s2c received
  open_ : r.exhausted = false → Paces capture received r
  full : r.exhausted = true → r.closed = false → r.pos = capture.s2c.length

/-! ## Rounds -/

/-- A step of the server's that the recording has whole is sent. -/
theorem paces_server (h : Paces capture received r) (hstep : r.scrubber.step = .yielded f w k)
    (htap : w.tap = .s2c) (hall : w.nbytes ≤ (capture.s2c.drop r.pos).length) :
    Paces capture received { r.write ((capture.s2c.drop r.pos).take w.nbytes) with
      pos := r.pos + w.nbytes
      scrubber := (feed .s2c ((capture.s2c.drop r.pos).take w.nbytes) r.scrubber).2 } := by
  have hpos : 0 < w.nbytes := h.poised.idle w (by rw [hstep]; rfl)
  have hexact := feed_exact h.rest hstep hpos (Block.ofPrefix w.nbytes (capture.s2c.drop r.pos) hall)
  rw [htap, Block.bytes_ofPrefix] at hexact
  have hlength := hall
  rw [List.length_drop] at hlength
  refine ⟨?_, ?_, h.exhausted, h.closed, poised_feed h.poised _ _, hexact.1, ?_, ?_⟩
  · show (r.written ++ [(capture.s2c.drop r.pos).take w.nbytes]).flatten = _
    rw [List.flatten_append, h.written, List.flatten_singleton, List.take_add]
  · have hroom := h.pos
    dsimp only
    omega
  · -- a replay that awaits the request is at no step
    intro hawaiting
    have hnone := (h.awaiting hawaiting).1
    unfold waiting at hnone
    rw [hstep] at hnone
    exact absurd hnone (by simp)
  · intro more
    have howed := h.owed more
    rw [hstep, permitted_server htap hall] at howed
    dsimp only
    rw [howed, hexact.2, permitted_settled, List.drop_drop, Nat.add_assoc]
    rfl

/-- A step of the client's that has arrived is taken. -/
theorem paces_client (h : Paces capture received r) (hstep : r.scrubber.step = .yielded f w k)
    (htap : w.tap = .c2s) (hall : w.nbytes ≤ r.buffer.length) :
    Paces capture received { r with
      buffer := r.buffer.drop w.nbytes
      scrubber := (feed .c2s (r.buffer.take w.nbytes) r.scrubber).2 } := by
  have hpos : 0 < w.nbytes := h.poised.idle w (by rw [hstep]; rfl)
  have hexact := feed_exact h.rest hstep hpos (Block.ofPrefix w.nbytes r.buffer hall)
  rw [htap, Block.bytes_ofPrefix] at hexact
  refine ⟨h.written, h.pos, h.exhausted, h.closed, poised_feed h.poised _ _, hexact.1, ?_, ?_⟩
  · intro hawaiting
    have hnone := (h.awaiting hawaiting).1
    unfold waiting at hnone
    rw [hstep] at hnone
    exact absurd hnone (by simp)
  · intro more
    have hmore : w.nbytes ≤ (r.buffer ++ more).length := by
      rw [List.length_append]
      omega
    have hsame : Block.ofPrefix w.nbytes (r.buffer ++ more) hmore =
        Block.ofPrefix w.nbytes r.buffer hall := Block.ext (List.take_append_of_le_length hall)
    have howed := h.owed more
    rw [hstep, permitted_client htap hmore, hsame, List.drop_append_of_le_length hall] at howed
    dsimp only
    rw [howed, hexact.2, permitted_settled]

/-- What is known of a version changes nothing else. -/
theorem paces_versionChecked (h : Paces capture received r) (checked : Bool) :
    Paces capture received { r with versionChecked := checked } :=
  ⟨h.written, h.pos, h.exhausted, h.closed, h.poised, h.rest, h.awaiting, h.owed⟩

/-- A mismatch closes the connection; otherwise the replay goes on. -/
theorem versionMismatch_cases (capture : Capture) (r : ReplayProtocol) :
    (∃ checked, r.versionMismatch capture = (false, { r with versionChecked := checked })) ∨
      r.versionMismatch capture =
        (true, { r with versionChecked := true, closed := true, exhausted := true }) := by
  unfold versionMismatch
  cases r.scrubber.fields.negotiatedVersion with
  | none => exact .inl ⟨r.versionChecked, rfl⟩
  | some negotiated =>
    dsimp only
    split
    next hchecked => exact .inl ⟨r.versionChecked, rfl⟩
    · cases capture.negotiatedVersion with
      | none => exact .inl ⟨true, rfl⟩
      | some archived =>
        dsimp only
        split
        · exact .inl ⟨true, rfl⟩
        · exact .inr rfl

/-- An open replay has sent no more than the client may have. -/
theorem Paces.pos_le (h : Paces capture received r) :
    r.pos ≤ permitted (HandshakeScrubber.init false).step capture.s2c received := by
  have howed := h.owed []
  rw [List.append_nil] at howed
  rw [howed]
  exact Nat.le_add_right _ _

/-- A replay that waits for the client. -/
theorem Paces.settled (h : Paces capture received r)
    (hnone : permitted r.scrubber.step (capture.s2c.drop r.pos) r.buffer = 0) :
    Settled capture received r where
  written := h.written
  pos := h.pos_le
  prompt := by
    intro _
    have howed := h.owed []
    rw [List.append_nil, List.append_nil, hnone, Nat.add_zero] at howed
    exact howed.symm
  open_ := fun _ => h
  full := fun hexhausted => absurd (h.exhausted.symm.trans hexhausted) (by simp)

/-- A replay that closes the connection. -/
theorem Paces.settled_closed (h : Paces capture received r) :
    Settled capture received { r with versionChecked := true, closed := true, exhausted := true } where
  written := h.written
  pos := h.pos_le
  prompt := fun hopen => absurd hopen (by simp)
  open_ := fun hopen => absurd hopen (by simp)
  full := fun _ hopen => absurd hopen (by simp)

/-! ## The session -/

/-- A replay goes on from one point to another: it has sent more. -/
def Goes (r r' : ReplayProtocol) : Prop := r.pos ≤ r'.pos ∧ r.written <+: r'.written

theorem Goes.refl (r : ReplayProtocol) : Goes r r := ⟨Nat.le_refl _, List.prefix_rfl⟩

theorem Goes.trans {r₁ r₂ r₃ : ReplayProtocol} (h : Goes r₁ r₂) (h' : Goes r₂ r₃) : Goes r₁ r₃ :=
  ⟨h.1.trans h'.1, h.2.trans h'.2⟩

/-- Where the session is served: the handshake is over, or the recording ends within a step. -/
def AtEnd (capture : Capture) (r : ReplayProtocol) : Prop :=
  r.scrubber.waiting = none ∨ ∃ w, r.scrubber.waiting = some w ∧ w.tap = .s2c ∧
    ¬w.nbytes ≤ (capture.s2c.drop r.pos).length

/-- A replay that has sent the rest of its recording. -/
def emptied (capture : Capture) (r : ReplayProtocol) (buffer : Bytes) (awaiting : Bool) :
    ReplayProtocol :=
  let r₁ : ReplayProtocol := { r with buffer := buffer, awaitingRequest := awaiting }
  { (if capture.s2c.drop r.pos = [] then r₁ else
      { r₁.write (capture.s2c.drop r.pos) with pos := capture.s2c.length }) with exhausted := true }

/-- Behind the handshake the request decides. -/
theorem serveSession_awaiting (capture : Capture) (r : ReplayProtocol)
    (hdone : r.scrubber.waiting = none) (hwidth : r.scrubber.fields.width.isSome = true) :
    r.serveSession capture =
      if (sawUpdateRequest r.buffer).1 = true then
        emptied capture r (sawUpdateRequest r.buffer).2 true
      else { r with buffer := (sawUpdateRequest r.buffer).2, awaitingRequest := true } := by
  have hawaits : (if ¬r.awaitingRequest = true ∧ r.scrubber.waiting.isNone = true ∧
      r.scrubber.fields.width.isSome = true then { r with awaitingRequest := true } else r) =
        { r with awaitingRequest := true } := by
    cases hawaiting : r.awaitingRequest with
    | false => exact if_pos ⟨by simp, by rw [hdone]; rfl, hwidth⟩
    | true =>
      refine (if_neg fun hnot => hnot.1 rfl).trans ?_
      rw [← hawaiting]
  unfold serveSession
  dsimp only
  rw [hawaits]
  by_cases hsaw : (sawUpdateRequest r.buffer).1 = true
  · rw [if_pos hsaw, if_neg (fun hnot => hnot.2 hsaw), if_pos rfl]
    rfl
  · rw [if_neg hsaw, if_pos ⟨rfl, hsaw⟩, if_pos rfl]

/-- Where the handshake was lost sight of, or ends with the recording, nothing is waited for. -/
theorem serveSession_open (capture : Capture) (r : ReplayProtocol)
    (hawaiting : r.awaitingRequest = false)
    (hopen : ¬(r.scrubber.waiting = none ∧ r.scrubber.fields.width.isSome = true)) :
    r.serveSession capture = emptied capture r r.buffer false := by
  have hawaits : (if ¬r.awaitingRequest = true ∧ r.scrubber.waiting.isNone = true ∧
      r.scrubber.fields.width.isSome = true then { r with awaitingRequest := true } else r) = r :=
    if_neg fun hall => hopen ⟨Option.isNone_iff_eq_none.mp hall.2.1, hall.2.2⟩
  have hfalse : ¬r.awaitingRequest = true := by
    rw [hawaiting]
    exact Bool.false_ne_true
  have hsame : ({ r with buffer := r.buffer, awaitingRequest := false } : ReplayProtocol) = r := by
    rw [← hawaiting]
  unfold serveSession emptied
  dsimp only
  rw [hawaits, hsame, if_neg (fun hnot => hfalse hnot.1), if_neg hfalse]

/-- The rest of the recording is sent where the client may have it. -/
theorem settled_emptied (h : Paces capture received r)
    (hall : permitted r.scrubber.step (capture.s2c.drop r.pos) r.buffer =
      (capture.s2c.drop r.pos).length) (buffer : Bytes) (awaiting : Bool) :
    Settled capture received (emptied capture r buffer awaiting) ∧
      Goes r (emptied capture r buffer awaiting) := by
  have howed := h.owed []
  rw [List.append_nil, List.append_nil, hall, List.length_drop, Nat.add_sub_cancel' h.pos] at howed
  unfold emptied
  dsimp only
  split
  next hnothing =>
    -- all of it has been sent already
    have hend : r.pos = capture.s2c.length := Nat.le_antisymm h.pos (List.drop_eq_nil_iff.mp hnothing)
    refine ⟨⟨h.written, ?_, fun _ => ?_, fun hopen => absurd hopen (by simp), fun _ _ => hend⟩,
      Goes.refl r⟩
    · rw [howed]
      exact h.pos
    · rw [howed]
      exact hend
  · refine ⟨⟨?_, Nat.le_of_eq howed.symm, fun _ => howed.symm, fun hopen => absurd hopen (by simp),
      fun _ _ => rfl⟩, h.pos, List.prefix_append _ _⟩
    show (r.written ++ [capture.s2c.drop r.pos]).flatten = capture.s2c.take capture.s2c.length
    rw [List.flatten_append, h.written, List.flatten_singleton, List.take_append_drop,
      List.take_length]

/-- Whole messages that ask for nothing may be dropped. -/
theorem paces_saw (h : Paces capture received r) (hdone : r.scrubber.waiting = none)
    (hwidth : r.scrubber.fields.width.isSome = true)
    (hsaw : (sawUpdateRequest r.buffer).1 = false) :
    Paces capture received
      { r with buffer := (sawUpdateRequest r.buffer).2, awaitingRequest := true } := by
  refine ⟨h.written, h.pos, h.exhausted, h.closed, h.poised, h.rest, fun _ => ⟨hdone, hwidth⟩, ?_⟩
  intro more
  have hasks : Asks (r.buffer ++ more) ↔ Asks ((sawUpdateRequest r.buffer).2 ++ more) := by
    rw [← saw_iff_asks, ← saw_iff_asks, (saw_append r.buffer more).2 hsaw]
  have howed := h.owed more
  dsimp only
  rw [howed]
  unfold waiting at hdone
  cases hstep : r.scrubber.step with
  | done f u =>
    rw [permitted, permitted]
    exact congrArg (r.pos + ·) (if_congr (and_congr Iff.rfl (not_congr hasks)) rfl rfl)
  | failed f e => exact e.elim
  | yielded f w k =>
    rw [hstep] at hdone
    exact absurd hdone (by simp)

/-- Serving the session settles a replay. -/
theorem settled_serveSession (h : Paces capture received r) (hend : AtEnd capture r) :
    Settled capture received (r.serveSession capture) ∧ Goes r (r.serveSession capture) := by
  rcases hend with hdone | ⟨w, hw, htap, hshort⟩
  · have hpermitted : ∀ buffer, permitted r.scrubber.step (capture.s2c.drop r.pos) buffer =
        if r.scrubber.fields.width.isSome ∧ ¬Asks buffer then 0
        else (capture.s2c.drop r.pos).length := by
      intro buffer
      unfold waiting at hdone
      unfold fields
      cases hstep : r.scrubber.step with
      | done f u => rfl
      | failed f e => exact e.elim
      | yielded f w k =>
        rw [hstep] at hdone
        exact absurd hdone (by simp)
    by_cases hwidth : r.scrubber.fields.width.isSome = true
    · rw [serveSession_awaiting capture r hdone hwidth]
      by_cases hsaw : (sawUpdateRequest r.buffer).1 = true
      · -- the request is there
        rw [if_pos hsaw]
        refine settled_emptied h ?_ _ _
        rw [hpermitted, if_neg fun hnot => hnot.2 ((saw_iff_asks _).mp hsaw)]
      · rw [if_neg hsaw]
        have hnone := Bool.eq_false_iff.mpr hsaw
        have hpaces := paces_saw h hdone hwidth hnone
        refine ⟨hpaces.settled ?_, Goes.refl r⟩
        -- nor is it in what is left
        have hasks : ¬Asks (sawUpdateRequest r.buffer).2 := by
          have hsame := (saw_append r.buffer []).2 hnone
          rw [List.append_nil, List.append_nil] at hsame
          rw [← saw_iff_asks, ← hsame]
          exact hsaw
        exact (hpermitted _).trans (if_pos ⟨hwidth, hasks⟩)
    · have hawaiting : r.awaitingRequest = false := by
        by_contra hnot
        exact hwidth (h.awaiting (Bool.eq_true_of_not_eq_false hnot)).2
      rw [serveSession_open capture r hawaiting fun hboth => hwidth hboth.2]
      refine settled_emptied h ?_ _ _
      rw [hpermitted, if_neg fun hnot => hwidth hnot.1]
  · -- the recording ends within a step
    have hopen : ¬r.scrubber.waiting = none := by
      rw [hw]
      simp
    have hawaiting : r.awaitingRequest = false := by
      by_contra hnot
      exact hopen (h.awaiting (Bool.eq_true_of_not_eq_false hnot)).1
    rw [serveSession_open capture r hawaiting fun hboth => hopen hboth.1]
    refine settled_emptied h ?_ _ _
    unfold waiting at hw
    cases hstep : r.scrubber.step with
    | done f u =>
      rw [hstep] at hw
      exact absurd hw (by simp)
    | failed f e => exact e.elim
    | yielded f w' k =>
      rw [hstep] at hw
      obtain rfl := Option.some.inj hw
      exact permitted_truncated htap hshort

/-! ## Connections -/

/-- What a round of the loop comes to: the grammar goes on, or the loop is left. -/
theorem paces_round (h : Paces capture received r) :
    (∃ r', r.round capture = .again r' ∧ Paces capture received r' ∧ Goes r r' ∧
      Relation.TransGen Coroutine.Step.Resumes r.scrubber.step r'.scrubber.step) ∨
    (r.round capture = .leave r ∧ AtEnd capture r) ∨
    ∃ r', r.round capture = .stop r' ∧ Settled capture received r' ∧ Goes r r' := by
  cases hstep : r.scrubber.step with
  | failed f e => exact e.elim
  | done f u =>
    have hdone : r.scrubber.waiting = none := by
      unfold waiting
      rw [hstep]
      rfl
    refine .inr (.inl ⟨?_, .inl hdone⟩)
    unfold round
    rw [hdone]
  | yielded f w k =>
    have hw : r.scrubber.waiting = some w := by
      unfold waiting
      rw [hstep]
      rfl
    -- A round that has the bytes resumes the generator, which makes the loop end.
    have hresumes : ∀ data : Bytes, w.nbytes ≤ data.length →
        Relation.TransGen Coroutine.Step.Resumes (.yielded f w k)
          (feed w.tap data r.scrubber).2.step := by
      intro data hall
      rw [← hstep]
      exact resumes_feed h.poised hw (hall.trans (Nat.le_add_left _ _))
    obtain ⟨tap, nbytes⟩ := w
    unfold round
    rw [hw]
    -- Bytes of the server are sent from the capture, bytes of the client taken from the buffer.
    cases tap with
    | s2c =>
      dsimp only
      by_cases hall : nbytes ≤ (capture.s2c.drop r.pos).length
      · have hchunk : ((capture.s2c.drop r.pos).take nbytes).length = nbytes :=
          List.length_take_of_le hall
        rw [if_neg (by omega)]
        refine .inl ⟨_, rfl, paces_server h hstep rfl hall, ⟨Nat.le_add_right _ _,
          List.prefix_append _ _⟩, ?_⟩
        exact hresumes _ (Nat.le_of_eq hchunk.symm)
      · have hchunk : ((capture.s2c.drop r.pos).take nbytes).length < nbytes := by
          rw [List.length_take]
          omega
        rw [if_pos hchunk]
        exact .inr (.inl ⟨rfl, .inr ⟨_, hw, rfl, hall⟩⟩)
    | c2s =>
      dsimp only
      by_cases hall : nbytes ≤ r.buffer.length
      · have hchunk : (r.buffer.take nbytes).length = nbytes := List.length_take_of_le hall
        have hpaces := paces_client h hstep rfl hall
        rw [if_neg (by omega)]
        rcases versionMismatch_cases capture { r with
          buffer := r.buffer.drop nbytes
          scrubber := (feed .c2s (r.buffer.take nbytes) r.scrubber).2 } with
          ⟨checked, hsame⟩ | hother
        · rw [hsame, if_neg Bool.false_ne_true]
          refine .inl ⟨_, rfl, paces_versionChecked hpaces checked, Goes.refl r, ?_⟩
          exact hresumes _ (Nat.le_of_eq hchunk.symm)
        · rw [hother, if_pos rfl]
          exact .inr (.inr ⟨_, rfl, hpaces.settled_closed, Goes.refl r⟩)
      · rw [if_pos (by omega)]
        refine .inr (.inr ⟨r, rfl, h.settled ?_, Goes.refl r⟩)
        rw [hstep]
        exact permitted_awaiting rfl hall

/-- The loop comes to an end, as the grammar does. -/
theorem exists_advanceLoop (h : Paces capture received r) :
    ∃ n r', (∀ fuel, n ≤ fuel → advanceLoop capture fuel r = some r') ∧
      Settled capture received r' ∧ Goes r r' := by
  generalize hstep : r.scrubber.step = step
  induction step using (Coroutine.Step.wellFounded_resumes (α := Unit)).transGen.induction
    generalizing r with
  | h step ih =>
    have hfuel : ∀ {n fuel : ℕ}, n + 1 ≤ fuel → ∃ fuel', fuel = fuel' + 1 ∧ n ≤ fuel' := by
      intro n fuel hle
      exact ⟨fuel - 1, by omega, by omega⟩
    subst hstep
    obtain ⟨r₁, hround, hpaces, hgoes, hresumes⟩ | ⟨hround, hend⟩ | ⟨r₁, hround, hsettled, hgoes⟩ :=
      paces_round h
    · obtain ⟨n, r', hall, hsettled, hgoes'⟩ := ih _ hresumes.swap hpaces rfl
      refine ⟨n + 1, r', fun fuel hle => ?_, hsettled, hgoes.trans hgoes'⟩
      obtain ⟨fuel', rfl, hle'⟩ := hfuel hle
      rw [advanceLoop, hround]
      exact hall fuel' hle'
    · obtain ⟨hsettled, hgoes⟩ := settled_serveSession h hend
      refine ⟨1, _, fun fuel hle => ?_, hsettled, hgoes⟩
      obtain ⟨fuel', rfl, -⟩ := hfuel (n := 0) hle
      rw [advanceLoop, hround]
    · refine ⟨1, r₁, fun fuel hle => ?_, hsettled, hgoes⟩
      obtain ⟨fuel', rfl, -⟩ := hfuel (n := 0) hle
      rw [advanceLoop, hround]

/-- The same of `advance`. -/
theorem exists_advance (h : Paces capture received r) :
    ∃ n r', (∀ fuel, n ≤ fuel → advance capture fuel r = some r') ∧
      Settled capture received r' ∧ Goes r r' := by
  obtain ⟨n, r', hall, hsettled, hgoes⟩ := exists_advanceLoop h
  refine ⟨n, r', fun fuel hle => ?_, hsettled, hgoes⟩
  unfold advance
  rw [if_neg (by rw [h.exhausted]; exact Bool.false_ne_true)]
  exact hall fuel hle

/-- A chunk of the client's. -/
theorem exists_dataReceived (h : Settled capture received r) (data : Bytes) :
    ∃ n r', (∀ fuel, n ≤ fuel → dataReceived capture fuel r data = some r') ∧
      Settled capture (received ++ data) r' ∧ Goes r r' := by
  have hexhausted : ∀ served, (if data = [] then r else { r with served := served }).exhausted =
      r.exhausted := by
    intro served
    split <;> rfl
  cases hopen : r.exhausted with
  | true =>
    -- what comes after the last byte is not looked at
    have hmono := permitted_mono (HandshakeScrubber.init false).step capture.s2c received data
    have hle := permitted_le (HandshakeScrubber.init false).step capture.s2c (received ++ data)
    have hsettled : Settled capture (received ++ data) r := by
      refine ⟨h.written, h.pos.trans hmono, fun hclosed => ?_, fun hfalse => ?_, h.full⟩
      · have hfull := h.full hopen hclosed
        have hsame := h.prompt hclosed
        omega
      · exact absurd (hopen.symm.trans hfalse) (by simp)
    refine ⟨0, if data = [] then r else { r with served := true }, fun fuel _ => ?_, ?_, ?_⟩
    · unfold dataReceived
      dsimp only
      rw [hexhausted, if_pos hopen]
    · split
      · exact hsettled
      · exact ⟨hsettled.written, hsettled.pos, hsettled.prompt, fun hfalse =>
          absurd (hopen.symm.trans hfalse) (by simp), hsettled.full⟩
    · split
      · exact Goes.refl r
      · exact Goes.refl r
  | false =>
    have hpaces := h.open_ hopen
    have hserved : ∀ served, Paces capture (received ++ data)
        { r with served := served, buffer := r.buffer ++ data } := by
      intro served
      refine ⟨hpaces.written, hpaces.pos, hpaces.exhausted, hpaces.closed, hpaces.poised, hpaces.rest,
        hpaces.awaiting, fun more => ?_⟩
      have howed := hpaces.owed (data ++ more)
      rw [← List.append_assoc, ← List.append_assoc] at howed
      exact howed
    obtain ⟨n, r', hall, hsettled, hgoes⟩ := exists_advance (hserved (if data = [] then r.served
      else true))
    refine ⟨n, r', fun fuel hle => ?_, hsettled, hgoes⟩
    unfold dataReceived
    dsimp only
    rw [hexhausted, if_neg (by rw [hopen]; exact Bool.false_ne_true), ← hall fuel hle]
    congr 1
    split
    · rfl
    · rfl

/-- A replay at the start of a connection. -/
theorem paces_start (capture : Capture) : Paces capture [] {} where
  written := List.take_zero.symm
  pos := Nat.zero_le _
  exhausted := rfl
  closed := rfl
  poised := poised_init false
  rest := fun _ => rfl
  awaiting := fun hfalse => absurd hfalse (by simp)
  owed := fun more => (Nat.zero_add _).symm

/-- One chunk more. -/
theorem run_snoc (capture : Capture) (fuel : ℕ) (chunks : List Bytes) (data : Bytes) :
    run capture fuel (chunks ++ [data]) =
      (run capture fuel chunks).bind fun r => dataReceived capture fuel r data := by
  unfold run
  cases advance capture fuel {} with
  | none => rfl
  | some r =>
    show (chunks ++ [data]).foldlM (dataReceived capture fuel) r =
      (chunks.foldlM (dataReceived capture fuel) r).bind fun r => dataReceived capture fuel r data
    rw [List.foldlM_append]
    cases chunks.foldlM (dataReceived capture fuel) r with
    | none => rfl
    | some r' =>
      show ([data].foldlM (dataReceived capture fuel) r') = dataReceived capture fuel r' data
      rw [List.foldlM_cons]
      cases dataReceived capture fuel r' data <;> rfl

/-- A connection, chunk by chunk. -/
theorem exists_run (capture : Capture) (chunks : List Bytes) :
    ∃ n r, (∀ fuel, n ≤ fuel → run capture fuel chunks = some r) ∧
      Settled capture chunks.flatten r := by
  induction chunks using List.reverseRecOn with
  | nil =>
    obtain ⟨n, r, hall, hsettled, -⟩ := exists_advance (paces_start capture)
    refine ⟨n, r, fun fuel hle => ?_, hsettled⟩
    unfold run
    rw [hall fuel hle]
    rfl
  | append_singleton chunks data ih =>
    obtain ⟨n, r, hall, hsettled⟩ := ih
    obtain ⟨n', r', hall', hsettled', -⟩ := exists_dataReceived hsettled data
    refine ⟨max n n', r', fun fuel hle => ?_, ?_⟩
    · rw [run_snoc, hall fuel ((le_max_left n n').trans hle)]
      exact hall' fuel ((le_max_right n n').trans hle)
    · rw [List.flatten_append, List.flatten_singleton]
      exact hsettled'

/-- Whatever was recorded and whatever the client sends: a replay comes to wait again after every
chunk, what it has sent is the recording up to its position, which is all that the client may have by
then and no more, unless the version of the client has had the connection closed before; and another
chunk only adds to it. -/
theorem replay_paced (capture : Capture) (chunks : List Bytes) :
    ∃ n r, (∀ fuel, n ≤ fuel → run capture fuel chunks = some r) ∧
      r.written.flatten = capture.s2c.take r.pos ∧
      r.pos ≤ permitted (HandshakeScrubber.init false).step capture.s2c chunks.flatten ∧
      (r.closed = false →
        r.pos = permitted (HandshakeScrubber.init false).step capture.s2c chunks.flatten) ∧
      ∀ data, ∃ n' r', (∀ fuel, n' ≤ fuel → run capture fuel (chunks ++ [data]) = some r') ∧
        r.pos ≤ r'.pos ∧ r.written <+: r'.written := by
  obtain ⟨n, r, hall, hsettled⟩ := exists_run capture chunks
  refine ⟨n, r, hall, hsettled.written, hsettled.pos, hsettled.prompt, fun data => ?_⟩
  obtain ⟨n', r', hall', -, hgoes⟩ := exists_dataReceived hsettled data
  refine ⟨max n n', r', fun fuel hle => ?_, hgoes⟩
  rw [run_snoc, hall fuel ((le_max_left n n').trans hle)]
  exact hall' fuel ((le_max_right n n').trans hle)

/-- A recording that ends within the offer of security types is sent to its end once the client has
answered the greeting; until then there is the greeting. -/
example :
    permitted (HandshakeScrubber.init false).step (version38 ++ [2, 1]) [] = 12 ∧
      permitted (HandshakeScrubber.init false).step (version38 ++ [2, 1]) version38 = 14 := by
  decide

end ReplayProtocol

end VncDoTool
