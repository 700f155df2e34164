import VncDoTool.Capture.Segmentation

/-!
# The two settings of `preserve_auth`

The setting decides what a scrubber records and whether it gives a session up, never what it
reads. The grammar branches on the bytes it is sent and not on the scrubber's attributes
(`blind_grammar`), so a scrubber that strips and one that preserves wait for the same bytes in
the same directions after the same chunks (`sameReading_init`).
-/

namespace VncDoTool

namespace HandshakeScrubber

open Coroutine (Blind)

/-! ## The grammar does not look at the attributes -/

theorem blind_want (tap : Tap) (nbytes : ℕ) : Blind (want tap nbytes) :=
  .yield (Want.mk tap nbytes)

theorem blind_record (data : Bytes) : Blind (record data) := .modify _

theorem blind_offer (negotiated : Ver) : Blind (offer negotiated) := by
  refine .ite ?_ ?_
  · refine .bind (blind_want _ _) fun _ => .ite (.pure none) ?_
    refine .bind (blind_record _) fun _ => .bind (blind_want _ _) fun _ => .bind (.modify _)
      fun _ => .bind (blind_record _) fun _ => .bind (blind_want _ _) fun _ => ?_
    exact .bind (blind_record _) fun _ => .pure _
  · refine .bind (blind_want _ _) fun _ => .ite (.pure none) ?_
    exact .bind (blind_record _) fun _ => .bind (.modify _) fun _ => .pure _

theorem blind_authenticate (sectype : ℕ) : Blind (authenticate sectype) := by
  refine .ite ?_ (.ite ?_ (.ite (.pure true) ?_))
  · exact .bind (blind_want _ _) fun _ => .bind (blind_want _ _) fun _ => .pure true
  · exact .bind (blind_want _ _) fun _ => .bind (blind_want _ _) fun _ => .bind (blind_want _ _)
      fun _ => .bind (blind_want _ _) fun _ => .bind (blind_want _ _) fun _ => .pure true
  · exact .bind (.modify _) fun _ => .pure false

theorem blind_securityResult (negotiated : Ver) (sectype : ℕ) :
    Blind (securityResult negotiated sectype) := by
  refine .ite (.pure true) (.bind (blind_want _ _) fun _ => .ite ?_ (.ite (.pure false) ?_))
  · exact .bind (blind_record _) fun _ => .pure true
  · exact .bind (blind_record _) fun _ => .pure false

theorem blind_initialisation : Blind initialisation := by
  refine .bind (blind_want _ _) fun _ => .bind (blind_want _ _) fun _ => .bind (.modify _)
    fun _ => .ite (.pure ()) ?_
  exact .bind (blind_want _ _) fun _ => .pure ()

theorem blind_session (negotiated : Ver) (sectype : ℕ) : Blind (session negotiated sectype) := by
  refine .bind (.modify _) fun _ => .bind (blind_authenticate _) fun _ => .ite ?_ (.pure ())
  exact .bind (.modify _) fun _ => .bind (blind_securityResult _ _) fun _ =>
    .ite blind_initialisation (.pure ())

theorem blind_grammar : Blind grammar := by
  refine .bind (blind_want _ _) fun _ => .bind (.modify _) fun _ => .bind (blind_want _ _)
    fun clientHead => ?_
  cases parseVersion clientHead.bytes with
  | none => exact .modify _
  | some negotiated =>
    refine .bind (.modify _) fun _ => .bind (blind_offer _) fun choice => ?_
    cases choice with
    | none => exact .pure ()
    | some sectype => exact blind_session negotiated sectype

/-! ## Scrubbers that read the same -/

/-- Two scrubbers that wait for the same bytes, now and ever after, and hold back the same. -/
structure SameReading (s s' : HandshakeScrubber) : Prop where
  lockstep : s.step.Lockstep s'.step
  pending : s.pending = s'.pending

theorem SameReading.waiting_eq {s s' : HandshakeScrubber} (h : SameReading s s') :
    s.waiting = s'.waiting := h.lockstep.request_eq

theorem watches_iff_of_request_eq {step step' : Step} (h : step.request = step'.request)
    (tap : Tap) : Watches step tap ↔ Watches step' tap := by
  rw [Watches, Watches, h]

/-- The loops of two grammars in lockstep stop at the same place. -/
theorem lockstep_feedLoop (tap : Tap) {step step' : Step} (h : step.Lockstep step')
    (buf : Bytes) :
    (feedLoop tap step buf).1.Lockstep (feedLoop tap step' buf).1 ∧
      (feedLoop tap step buf).2.1 = (feedLoop tap step' buf).2.1 := by
  induction h generalizing buf with
  | done s s' a => exact ⟨.done s s' a, rfl⟩
  | failed s s' e => exact e.elim
  | @yielded s s' w k k' h ih =>
    by_cases hfill : w.tap = tap ∧ w.nbytes ≤ buf.length
    · simp only [feedLoop, dif_pos hfill]
      exact ih _ _ _ _
    · simp only [feedLoop, dif_neg hfill]
      exact ⟨.yielded s s' h, trivial⟩

theorem sameReading_feed {s s' : HandshakeScrubber} (h : SameReading s s') (tap : Tap)
    (data : Bytes) : SameReading (feed tap data s).2 (feed tap data s').2 := by
  obtain ⟨hlockstep, hpending⟩ := h
  have hwatches := watches_iff_of_request_eq hlockstep.request_eq tap
  obtain ⟨hloop, hrest⟩ := lockstep_feedLoop tap hlockstep (s.pending tap ++ data)
  have hafter := watches_iff_of_request_eq hloop.request_eq tap
  by_cases hdata : data = []
  · simpa [hdata] using ⟨hlockstep, hpending⟩
  by_cases hwatch : Watches s.step tap
  · rw [feed_of_watches hwatch hdata, feed_of_watches (hwatches.mp hwatch) hdata, ← hpending]
    dsimp only
    by_cases hstill : Watches (feedLoop tap s.step (s.pending tap ++ data)).1 tap
    · rw [if_pos hstill, if_pos (hafter.mp hstill), ← hrest]
      exact ⟨hloop, rfl⟩
    · rw [if_neg hstill, if_neg (mt hafter.mpr hstill)]
      exact ⟨hloop, rfl⟩
  · rw [feed, feed, if_neg hdata, if_neg hdata, if_neg hwatch, if_neg (mt hwatches.mpr hwatch),
      ← hpending]
    exact ⟨hlockstep, rfl⟩

theorem sameReading_feedAll {s s' : HandshakeScrubber} (h : SameReading s s')
    (events : List Event) : SameReading (feedAll events s).2 (feedAll events s').2 := by
  induction events generalizing s s' with
  | nil => exact h
  | cons e events ih => exact ih (sameReading_feed h e.1 e.2)

/-- After the same chunks, scrubbers of either setting stand at the same point of the grammar. -/
theorem sameReading_init (preserveAuth preserveAuth' : Bool) (events : List Event) :
    SameReading (feedAll events (init preserveAuth)).2
      (feedAll events (init preserveAuth')).2 := by
  have h : SameReading (init preserveAuth) (init preserveAuth') := ⟨blind_grammar _ _, rfl⟩
  exact sameReading_feedAll h events

end HandshakeScrubber

end VncDoTool
