import VncDoTool.Capture.Secrecy

/-!
# What a scrubber waits for and holds back

In every state of a scrubber that any feeds and flushes lead to, the grammar waits for at least one
byte or has ended, and only the direction it waits on holds bytes back, fewer than it waits for. What
a scrubber that preserves records is therefore exactly what it was fed.

* `HandshakeScrubber.Paced`: a run comes to an empty want only on the direction of the answer before
  it, where the feed that brought the answer goes on with it.
* `HandshakeScrubber.Poised`: what holds of a scrubber between two feeds; `poised_of_reachable`.
* `HandshakeScrubber.waits_for_bytes`, `HandshakeScrubber.feed_cut`,
  `HandshakeScrubber.preserves_everything`: waiting, cutting and preserving.
-/

namespace VncDoTool

namespace HandshakeScrubber

/-! ## Empty wants -/

/-- Answered on `tap` last, a run asks for no empty chunk of the other direction, and does not come
to one later either. `P` holds of the direction of the last answer at its end. -/
def Paced {α : Type} (P : Tap → Prop) : Tap → Coroutine.Step Want Answer Empty Fields α → Prop
  | tap, .done _ _ => P tap
  | _, .failed _ _ => True
  | tap, .yielded _ w k => (w.nbytes = 0 → w.tap = tap) ∧ ∀ x f, Paced P w.tap (k x f)

section

variable {α β : Type} {P Q : Tap → Prop} {tap : Tap}

/-- A run and what comes after it. -/
theorem Paced.bind {x : Coroutine.Step Want Answer Empty Fields α}
    {f : α → Fields → Coroutine.Step Want Answer Empty Fields β} (h : Paced P tap x)
    (hf : ∀ a s t, P t → Paced Q t (f a s)) : Paced Q tap (x.bind f) := by
  induction x generalizing tap with
  | done s a => exact hf a s tap h
  | failed s e => trivial
  | yielded s w k ih => exact ⟨h.1, fun x s' => ih x s' (h.2 x s')⟩

/-- What holds of any direction holds at the end. -/
theorem Paced.imp {x : Coroutine.Step Want Answer Empty Fields α} (h : Paced P tap x)
    (himp : ∀ t, P t → Q t) : Paced Q tap x := by
  induction x generalizing tap with
  | done s a => exact himp tap h
  | failed s e => trivial
  | yielded s w k ih => exact ⟨h.1, fun x s' => ih x s' (h.2 x s')⟩

/-- A run that waits for some byte may have been answered on either direction before. -/
theorem Paced.of_idle {step : Step} (h : Paced P tap step) (hidle : Idle step) (hP : ∀ t, P t)
    (t : Tap) : Paced P t step := by
  cases step with
  | done s a => exact hP t
  | failed s e => trivial
  | yielded s w k =>
    refine ⟨fun hzero => ?_, h.2⟩
    have hpos : 0 < w.nbytes := (idle_yielded s w k).mp hidle
    omega

/-- A piece of the grammar asks for no empty chunk unless it has just been answered on the same
direction, whatever direction was answered before the piece. -/
def Steady (m : Grammar α) : Prop := ∀ tap f, Paced (fun _ => True) tap (m.run f)

theorem Steady.pure (a : α) : Steady (Pure.pure a : Grammar α) := fun _ _ => trivial

theorem Steady.modify (g : Fields → Fields) : Steady (Coroutine.modify g : Grammar Unit) :=
  fun _ _ => trivial

theorem Steady.bind {m : Grammar α} {g : α → Grammar β} (hm : Steady m) (hg : ∀ a, Steady (g a)) :
    Steady (m >>= g) :=
  fun tap f => (hm tap f).bind fun a s t _ => hg a t s

theorem Steady.ite {c : Prop} [Decidable c] {m₁ m₂ : Grammar α} (h₁ : Steady m₁) (h₂ : Steady m₂) :
    Steady (if c then m₁ else m₂) := by
  split
  · exact h₁
  · exact h₂

/-- A want of some bytes. -/
theorem Steady.want (tap : Tap) {nbytes : ℕ} (hpos : 0 < nbytes) :
    Steady (HandshakeScrubber.want tap nbytes) := by
  intro t f
  refine ⟨fun hzero => ?_, fun x s => trivial⟩
  exact absurd hzero (Nat.ne_of_gt hpos)

/-- A want whose length was read from the wire, behind an answer of the same direction. -/
theorem paced_want (tap : Tap) (nbytes : ℕ) (f : Fields) :
    Paced (fun t => t = tap) tap ((HandshakeScrubber.want tap nbytes).run f) :=
  ⟨fun _ => rfl, fun _ _ => rfl⟩

/-- A want of some bytes, and on which direction it was answered. -/
theorem paced_want_pos (t tap : Tap) {nbytes : ℕ} (hpos : 0 < nbytes) (f : Fields) :
    Paced (fun t' => t' = tap) t ((HandshakeScrubber.want tap nbytes).run f) := by
  refine ⟨fun hzero => ?_, fun _ _ => rfl⟩
  exact absurd hzero (Nat.ne_of_gt hpos)

end

/-! ## The grammar -/

theorem steady_record (data : Bytes) : Steady (record data) := .modify _

theorem steady_offer (negotiated : Ver) : Steady (offer negotiated) := by
  refine .ite ?_ ?_
  · refine .bind (.want _ (by decide)) fun numTypes => ?_
    split
    · exact .pure none
    next hsome =>
      -- a list of types that is not empty
      refine .bind (steady_record _) fun _ => .bind (.want _ (Nat.pos_of_ne_zero hsome)) fun _ => ?_
      refine .bind (.modify _) fun _ => .bind (steady_record _) fun _ => ?_
      refine .bind (.want _ (by decide)) fun _ => .bind (steady_record _) fun _ => ?_
      exact .pure _
  · refine .bind (.want _ (by decide)) fun auth => .ite (.pure none) ?_
    exact .bind (steady_record _) fun _ => .bind (.modify _) fun _ => .pure _

/-- The keys of an ARD exchange may be empty: both of the server's follow its head, and the client's
follows its credentials. -/
theorem steady_authenticate (sectype : ℕ) : Steady (authenticate sectype) := by
  refine .ite ?_ (.ite ?_ (.ite (.pure true) ?_))
  · exact .bind (.want _ (by decide)) fun _ => .bind (.want _ (by decide)) fun _ => .pure true
  · intro tap f
    refine (paced_want_pos tap .s2c (by decide) f).bind fun head f t ht => ?_
    subst ht
    refine (paced_want .s2c _ f).bind fun _ f t ht => ?_
    subst ht
    refine (paced_want .s2c _ f).bind fun _ f t ht => ?_
    refine (paced_want_pos t .c2s (by decide) f).bind fun _ f t ht => ?_
    subst ht
    refine (paced_want .c2s _ f).bind fun _ f t ht => ?_
    exact Steady.pure true t f
  · exact .bind (.modify _) fun _ => .pure false

theorem steady_securityResult (negotiated : Ver) (sectype : ℕ) :
    Steady (securityResult negotiated sectype) := by
  refine .ite (.pure true) (.bind (.want _ (by decide)) fun _ => .ite ?_ (.ite (.pure false) ?_))
  · exact .bind (steady_record _) fun _ => .pure true
  · exact .bind (steady_record _) fun _ => .pure false

theorem steady_initialisation : Steady initialisation := by
  refine .bind (.want _ (by decide)) fun _ => .bind (.want _ (by decide)) fun serverInit => ?_
  refine .bind (.modify _) fun _ => ?_
  split
  · exact .pure ()
  next hsome => exact .bind (.want _ (Nat.pos_of_ne_zero hsome)) fun _ => .pure ()

theorem steady_session (negotiated : Ver) (sectype : ℕ) : Steady (session negotiated sectype) := by
  refine .bind (.modify _) fun _ => .bind (steady_authenticate _) fun _ => .ite ?_ (.pure ())
  exact .bind (.modify _) fun _ => .bind (steady_securityResult _ _) fun _ =>
    .ite steady_initialisation (.pure ())

theorem steady_grammar : Steady grammar := by
  refine .bind (.want _ (by decide)) fun _ => .bind (.modify _) fun _ =>
    .bind (.want _ (by decide)) fun clientHead => ?_
  cases parseVersion clientHead.bytes with
  | none => exact .modify _
  | some negotiated =>
    refine .bind (.modify _) fun _ => .bind (steady_offer _) fun choice => ?_
    cases choice with
    | none => exact .pure ()
    | some sectype => exact steady_session negotiated sectype

/-- The grammar waits for some byte first. -/
theorem idle_grammar (f : Fields) : Idle (grammar.run f) := by
  unfold Idle
  rintro w ⟨rfl⟩
  decide

/-! ## Between two feeds -/

/-- A scrubber between two feeds. -/
structure Poised (s : HandshakeScrubber) : Prop where
  /-- It waits for some byte. -/
  idle : Idle s.step
  /-- It will ask for no empty chunk of a direction it was not just fed. -/
  paced : ∀ tap, Paced (fun _ => True) tap s.step
  /-- A direction it does not wait on holds nothing back. -/
  unwatched : ∀ tap, ¬ Watches s.step tap → s.pending tap = []
  /-- The one it waits on holds back less than it waits for. -/
  short : ∀ w, s.waiting = some w → (s.pending w.tap).length < w.nbytes

/-- Where the loop of a feed stops, the grammar waits for some byte: more than are left, on the
direction that was fed. -/
theorem poised_feedLoop {tap : Tap} {step : Step} (h : Paced (fun _ => True) tap step)
    (buf : Bytes) :
    (Idle (feedLoop tap step buf).1 ∧ ∀ t, Paced (fun _ => True) t (feedLoop tap step buf).1) ∧
      ∀ w, (feedLoop tap step buf).1.request = some w → w.tap = tap →
        (feedLoop tap step buf).2.1.length < w.nbytes := by
  induction step generalizing buf with
  | done f a =>
    exact ⟨⟨idle_done f, fun _ => trivial⟩, fun w hw => absurd hw (by simp [feedLoop])⟩
  | failed f e => exact e.elim
  | yielded f w k ih =>
    by_cases hfill : w.tap = tap ∧ w.nbytes ≤ buf.length
    · -- the want is answered, and the loop goes on behind it
      obtain ⟨rfl, hfilled⟩ := hfill
      rw [feedLoop, dif_pos ⟨rfl, hfilled⟩]
      exact ih _ _ (h.2 _ _) _
    · simp only [feedLoop, dif_neg hfill]
      have hidle : Idle (.yielded f w k : Step) := by
        rw [idle_yielded]
        by_contra hzero
        have hnone : w.nbytes = 0 := by omega
        exact hfill ⟨h.1 hnone, by omega⟩
      refine ⟨⟨hidle, fun t => h.of_idle hidle (fun _ => trivial) t⟩, ?_⟩
      rintro _ ⟨rfl⟩ htap
      exact Nat.lt_of_not_le fun hle => hfill ⟨htap, hle⟩

theorem poised_init (preserveAuth : Bool) : Poised (init preserveAuth) where
  idle := idle_grammar _
  paced := fun tap => steady_grammar tap _
  unwatched := fun _ _ => rfl
  short := fun w hw => idle_grammar _ w hw

theorem poised_feed {s : HandshakeScrubber} (h : Poised s) (tap : Tap) (data : Bytes) :
    Poised (feed tap data s).2 := by
  by_cases hdata : data = []
  · subst hdata
    exact h
  by_cases hwatch : Watches s.step tap
  · obtain ⟨⟨hidle, hpaced⟩, hshort⟩ := poised_feedLoop (h.paced tap) (s.pending tap ++ data)
    -- the other direction is not waited on before the feed, so it holds nothing back after it
    have hother : ∀ t, t ≠ tap → s.pending t = [] := by
      intro t hne
      apply h.unwatched t
      rintro ⟨w, hw, rfl⟩
      obtain ⟨w', hw', htap⟩ := hwatch
      obtain rfl := Option.some.inj (hw.symm.trans hw')
      exact hne htap
    rw [feed_of_watches hwatch hdata]
    dsimp only
    split
    next hstill =>
      refine ⟨hidle, hpaced, fun t hnot => ?_, fun w hw => ?_⟩
      · have hne : t ≠ tap := fun heq => hnot (heq ▸ hstill)
        exact (Function.update_of_ne hne _ _).trans (hother t hne)
      · obtain ⟨w', hw', htap⟩ := hstill
        obtain rfl := Option.some.inj (hw.symm.trans hw')
        dsimp only
        rw [htap, Function.update_self]
        exact hshort w hw htap
    next hmoved =>
      have hnothing : ∀ t, Function.update s.pending tap [] t = [] := by
        intro t
        by_cases heq : t = tap
        · rw [heq, Function.update_self]
        · exact (Function.update_of_ne heq _ _).trans (hother t heq)
      refine ⟨hidle, hpaced, fun t _ => hnothing t, fun w hw => ?_⟩
      dsimp only
      rw [hnothing]
      exact hidle w hw
  · have hpass := feed_of_not_watches hwatch (h.unwatched tap hwatch) data
    rw [hpass]
    exact h

theorem poised_flush {s : HandshakeScrubber} (h : Poised s) (tap : Tap) :
    Poised (flush tap s).2 where
  idle := h.idle
  paced := h.paced
  unwatched := by
    intro t hnot
    by_cases heq : t = tap
    · show Function.update s.pending tap [] t = []
      rw [heq, Function.update_self]
    · exact (Function.update_of_ne heq _ _).trans (h.unwatched t hnot)
  short := by
    intro w hw
    show (Function.update s.pending tap [] w.tap).length < w.nbytes
    by_cases heq : w.tap = tap
    · rw [heq, Function.update_self]
      exact h.idle w hw
    · rw [Function.update_of_ne heq]
      exact h.short w hw

/-- The scrubbers that feeds and flushes lead to. -/
inductive Reachable (preserveAuth : Bool) : HandshakeScrubber → Prop
  | init : Reachable preserveAuth (init preserveAuth)
  | feed {s : HandshakeScrubber} (h : Reachable preserveAuth s) (tap : Tap) (data : Bytes) :
      Reachable preserveAuth (feed tap data s).2
  | flush {s : HandshakeScrubber} (h : Reachable preserveAuth s) (tap : Tap) :
      Reachable preserveAuth (flush tap s).2

/-- What holds between two feeds holds of all of them. -/
theorem poised_of_reachable {preserveAuth : Bool} {s : HandshakeScrubber}
    (h : Reachable preserveAuth s) : Poised s := by
  induction h with
  | init => exact poised_init preserveAuth
  | feed _ tap data ih => exact poised_feed ih tap data
  | flush _ tap ih => exact poised_flush ih tap

/-! ## Waiting -/

/-- The loop of a feed that has what the grammar waits for takes it further. -/
theorem resumes_feedLoop {step : Step} {w : Want} (hw : step.request = some w) {buf : Bytes}
    (hfilled : w.nbytes ≤ buf.length) :
    Relation.TransGen Coroutine.Step.Resumes step (feedLoop w.tap step buf).1 := by
  have hfurther : ∀ (tap : Tap) (x : Step) (rest : Bytes),
      Relation.ReflTransGen Coroutine.Step.Resumes x (feedLoop tap x rest).1 := by
    intro tap x
    induction x with
    | done f a => exact fun _ => .refl
    | failed f e => exact e.elim
    | yielded f w k ih =>
      intro rest
      rw [feedLoop]
      split
      · exact .head (.mk f w k _ _) (ih _ _ _)
      · exact .refl
  cases step with
  | done f a => exact absurd hw (by simp)
  | failed f e => exact e.elim
  | yielded f w' k =>
    obtain rfl := Option.some.inj hw
    rw [feedLoop, dif_pos ⟨rfl, hfilled⟩]
    exact .head' (.mk f w' k _ _) (hfurther _ _ _)

/-- Fed what it waits for, a scrubber goes on. -/
theorem resumes_feed {s : HandshakeScrubber} (h : Poised s) {w : Want} (hw : s.waiting = some w)
    {data : Bytes} (hfilled : w.nbytes ≤ (s.pending w.tap).length + data.length) :
    Relation.TransGen Coroutine.Step.Resumes s.step (feed w.tap data s).2.step := by
  have hshort := h.short w hw
  have hdata : data ≠ [] := by
    rintro rfl
    rw [List.length_nil] at hfilled
    omega
  have hlength : w.nbytes ≤ (s.pending w.tap ++ data).length := by rwa [List.length_append]
  have hresumes := resumes_feedLoop hw hlength
  rw [feed_of_watches ⟨w, hw, rfl⟩ hdata]
  dsimp only
  split <;> exact hresumes

/-- In every state of a scrubber it waits for at least one byte or for nothing, a direction it does
not wait on holds nothing back, and the one it waits on less than it waits for; with the rest of
that it goes on. -/
theorem waits_for_bytes {preserveAuth : Bool} {s : HandshakeScrubber}
    (h : Reachable preserveAuth s) :
    (∀ tap, (∀ w, s.waiting = some w → w.tap ≠ tap) → s.pending tap = []) ∧
      ∀ w, s.waiting = some w →
        1 ≤ w.nbytes ∧ (s.pending w.tap).length < w.nbytes ∧
          ∀ data : Bytes, w.nbytes ≤ (s.pending w.tap).length + data.length →
            Relation.TransGen Coroutine.Step.Resumes s.step (feed w.tap data s).2.step := by
  have hpoised := poised_of_reachable h
  refine ⟨fun tap hnone => hpoised.unwatched tap ?_, fun w hw => ⟨hpoised.idle w hw,
    hpoised.short w hw, fun data hfilled => resumes_feed hpoised hw hfilled⟩⟩
  rintro ⟨w, hw, htap⟩
  exact hnone w hw htap

/-- After the server's greeting, one byte of the client's reply is held back, and nothing else. -/
theorem waits_for_bytes_greeted :
    let s := (feed .c2s [82] (feed .s2c version38 (init false)).2).2
    s.waiting = some ⟨.c2s, 12⟩ ∧ (s.pending .c2s).length < 12 ∧ s.pending .s2c = [] := by
  have hinit : Reachable false (init false) := .init
  have hwaits := waits_for_bytes ((hinit.feed .s2c version38).feed .c2s [82])
  have hwant : (feed .c2s [82] (feed .s2c version38 (init false)).2).2.waiting =
      some ⟨.c2s, 12⟩ := by rfl
  refine ⟨hwant, (hwaits.2 _ hwant).2.1, hwaits.1 .s2c fun w hw => ?_⟩
  obtain rfl := Option.some.inj (hwant.symm.trans hw)
  decide

/-! ## Cutting -/

/-- In every state of a scrubber, feeding a direction two chunks records what feeding it both at once
does, and leaves the grammar, what is held back and everything that was noted the same. -/
theorem feed_cut (s : HandshakeScrubber) (tap : Tap) (a b : Bytes) :
    (feed tap a s).1 ++ (feed tap b (feed tap a s).2).1 = (feed tap (a ++ b) s).1 ∧
      (feed tap b (feed tap a s).2).2 = (feed tap (a ++ b) s).2 := by
  rw [feed_append tap a b s]
  exact ⟨rfl, rfl⟩

/-! ## Preserving -/

/-- A scrubber that preserves, and has not given the session up. -/
def Preserves (f : Fields) : Prop := f.preserveAuth = true ∧ f.abortReason = none

theorem keeps_want (tap : Tap) (nbytes : ℕ) : Coroutine.Keeps Preserves (want tap nbytes) :=
  .yield (Want.mk tap nbytes)

theorem keeps_record (data : Bytes) : Coroutine.Keeps Preserves (record data) :=
  .modify fun _ h => h

theorem keeps_offer (negotiated : Ver) : Coroutine.Keeps Preserves (offer negotiated) := by
  refine .ite ?_ ?_
  · refine .bind (keeps_want _ _) fun _ => .ite (.pure none) ?_
    refine .bind (keeps_record _) fun _ => .bind (keeps_want _ _) fun _ => ?_
    refine .bind (.modify fun _ h => h) fun _ => .bind (keeps_record _) fun _ => ?_
    exact .bind (keeps_want _ _) fun _ => .bind (keeps_record _) fun _ => .pure _
  · refine .bind (keeps_want _ _) fun _ => .ite (.pure none) ?_
    exact .bind (keeps_record _) fun _ => .bind (.modify fun _ h => h) fun _ => .pure _

/-- A type whose exchange has no known end is only noted. -/
theorem keeps_authenticate (sectype : ℕ) : Coroutine.Keeps Preserves (authenticate sectype) := by
  refine .ite ?_ (.ite ?_ (.ite (.pure true) ?_))
  · exact .bind (keeps_want _ _) fun _ => .bind (keeps_want _ _) fun _ => .pure true
  · exact .bind (keeps_want _ _) fun _ => .bind (keeps_want _ _) fun _ => .bind (keeps_want _ _)
      fun _ => .bind (keeps_want _ _) fun _ => .bind (keeps_want _ _) fun _ => .pure true
  · refine .bind (.modify fun f h => ?_) fun _ => .pure false
    dsimp only
    rw [if_pos h.1]
    exact h

theorem keeps_securityResult (negotiated : Ver) (sectype : ℕ) :
    Coroutine.Keeps Preserves (securityResult negotiated sectype) := by
  refine .ite (.pure true) (.bind (keeps_want _ _) fun _ => .ite ?_ (.ite (.pure false) ?_))
  · exact .bind (keeps_record _) fun _ => .pure true
  · exact .bind (keeps_record _) fun _ => .pure false

theorem keeps_initialisation : Coroutine.Keeps Preserves initialisation := by
  refine .bind (keeps_want _ _) fun _ => .bind (keeps_want _ _) fun _ => ?_
  refine .bind (.modify fun _ h => h) fun _ => .ite (.pure ()) ?_
  exact .bind (keeps_want _ _) fun _ => .pure ()

theorem keeps_preserving_session (negotiated : Ver) (sectype : ℕ) :
    Coroutine.Keeps Preserves (session negotiated sectype) := by
  refine .bind (.modify fun _ h => h) fun _ => .bind (keeps_authenticate _) fun _ =>
    .ite ?_ (.pure ())
  exact .bind (.modify fun _ h => h) fun _ => .bind (keeps_securityResult _ _) fun _ =>
    .ite keeps_initialisation (.pure ())

theorem keeps_grammar : Coroutine.Keeps Preserves grammar := by
  refine .bind (keeps_want _ _) fun _ => .bind (.modify fun _ h => h) fun _ =>
    .bind (keeps_want _ _) fun clientHead => ?_
  cases parseVersion clientHead.bytes with
  | none =>
    refine .modify fun f h => ?_
    rw [if_pos h.1]
    exact h
  | some negotiated =>
    refine .bind (.modify fun _ h => h) fun _ => .bind (keeps_offer _) fun choice => ?_
    cases choice with
    | none => exact .pure ()
    | some sectype => exact keeps_preserving_session negotiated sectype

/-- What the loop of a feed records and what it leaves are what it was given. -/
theorem feedLoop_preserves (tap : Tap) {step : Step} (h : step.Always Preserves) (buf : Bytes) :
    (feedLoop tap step buf).2.2 ++ (feedLoop tap step buf).2.1 = buf := by
  induction step generalizing buf with
  | done f a => rfl
  | failed f e => exact e.elim
  | yielded f w k ih =>
    by_cases hfill : w.tap = tap ∧ w.nbytes ≤ buf.length
    · have hrest := ih (Block.ofPrefix w.nbytes buf hfill.2) { f with recording := none }
        (h.2 _ _ h.1) (buf.drop w.nbytes)
      rw [feedLoop, dif_pos hfill]
      dsimp only
      rw [recorded, if_pos h.1.1, List.append_assoc, hrest, Block.bytes_ofPrefix,
        List.take_append_drop]
    · rw [feedLoop, dif_neg hfill]
      rfl

/-- What a feed records and what it holds back are what was held back and what it was fed. -/
theorem feed_preserves {s : HandshakeScrubber} (h : s.step.Always Preserves) (tap t : Tap)
    (data : Bytes) :
    (if tap = t then (feed tap data s).1 else []) ++ (feed tap data s).2.pending t =
      s.pending t ++ (if tap = t then data else []) := by
  by_cases hdata : data = []
  · subst hdata
    simp
  by_cases htap : tap = t
  · subst htap
    rw [if_pos rfl, if_pos rfl]
    by_cases hwatch : Watches s.step tap
    · have hloop := feedLoop_preserves tap h (s.pending tap ++ data)
      rw [feed_of_watches hwatch hdata]
      dsimp only
      split
      · dsimp only
        rw [Function.update_self, hloop]
      · dsimp only
        rw [Function.update_self, List.append_nil, hloop]
    · rw [feed, if_neg hdata, if_neg hwatch]
      dsimp only
      rw [Function.update_self, List.append_nil]
  · rw [if_neg htap, if_neg htap, List.nil_append, List.append_nil]
    unfold feed
    rw [if_neg hdata]
    split
    · dsimp only
      split <;> exact Function.update_of_ne (Ne.symm htap) _ _
    · exact Function.update_of_ne (Ne.symm htap) _ _

/-- The same of any feeds. -/
theorem feedAll_preserves (events : List Event) {s : HandshakeScrubber}
    (h : s.step.Always Preserves) (tap : Tap) :
    (feedAll events s).1 tap ++ (feedAll events s).2.pending tap =
      s.pending tap ++ bytesOn tap events := by
  induction events generalizing s with
  | nil => rw [feedAll_nil, bytesOn_nil, List.append_nil, List.nil_append]
  | cons e events ih =>
    have hrest := ih (always_feed (fun _ hf => hf) e.1 e.2 h)
    have hfirst := feed_preserves h e.1 tap e.2
    rw [feedAll_cons, bytesOn_cons, ← List.append_assoc, ← hfirst, List.append_assoc, ← hrest]
    by_cases htap : e.1 = tap
    · subst htap
      dsimp only
      rw [Function.update_self, if_pos rfl, List.append_assoc]
    · dsimp only
      rw [Function.update_of_ne (Ne.symm htap), if_neg htap, List.nil_append]

/-- A scrubber that preserves records every byte of each direction, whatever it is fed, gives no
session up, and raises nothing. -/
theorem preserves_everything (events : List Event) :
    (∀ tap, recording events (init true) tap = bytesOn tap events) ∧
      (feedAll events (init true)).2.fields.abortReason = none ∧
      ∀ f e, (feedAll events (init true)).2.step ≠ .failed f e := by
  have hinit : (init true).step.Always Preserves := keeps_grammar _ ⟨rfl, rfl⟩
  have hpreserves : Preserves (feedAll events (init true)).2.fields :=
    (always_feedAll (fun _ hf => hf) events hinit).state
  refine ⟨fun tap => ?_, hpreserves.2, fun f e => e.elim⟩
  have hall := feedAll_preserves events hinit tap
  have hflush : (flush tap (feedAll events (init true)).2).1 =
      (feedAll events (init true)).2.pending tap := by
    unfold flush
    dsimp only
    rw [hpreserves.1]
    simp
  unfold recording
  rw [hflush, hall]
  rfl

/-- A challenge that stays half sent, after a reply that came too early. -/
example :
    recording [(.c2s, version33), (.s2c, version33 ++ be32 2 ++ [7])] (init true) .s2c =
      version33 ++ be32 2 ++ [7] := by decide

end HandshakeScrubber

end VncDoTool
