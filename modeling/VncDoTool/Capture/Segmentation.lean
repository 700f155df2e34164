import VncDoTool.Capture.Scrubber
import Mathlib.Tactic.Common

/-!
# Scrubbing does not depend on chunk boundaries

Feeding a tap two chunks one after the other is feeding it their concatenation
(`feed_append`), in every state of the scrubber and whatever the grammar does in between. A
sequence of chunks is therefore as good as the sequence of its bytes, each with its direction
(`arrivals`): `feedAll_eq_of_arrivals` says that two ways of cutting the same arrivals into
chunks record the same and leave the same scrubber.
-/

namespace VncDoTool

namespace HandshakeScrubber

/-! ## The loop of one feed -/

/-- A grammar that does not wait on a tap leaves what arrives there alone. -/
theorem feedLoop_of_not_watches {tap : Tap} {step : Step} (h : ¬ Watches step tap)
    (buf : Bytes) : feedLoop tap step buf = (step, buf, []) := by
  cases step with
  | done f a => rfl
  | failed f e => rfl
  | yielded f w k =>
    have htap : w.tap ≠ tap := fun ht => h ⟨w, rfl, ht⟩
    simp [feedLoop, htap]

/-- The loop on a want that the buffer does not fill. -/
theorem feedLoop_of_short {tap : Tap} {f : Fields} {w : Want}
    {k : Answer w → Fields → Step} {buf : Bytes} (h : buf.length < w.nbytes) :
    feedLoop tap (.yielded f w k) buf = (.yielded f w k, buf, []) := by
  have hle : ¬ w.nbytes ≤ buf.length := by omega
  simp [feedLoop, hle]

/-- The loop on a want that the front of the buffer fills exactly. -/
theorem feedLoop_block {f : Fields} {w : Want} {k : Answer w → Fields → Step}
    (x : Answer w) (rest : Bytes) :
    feedLoop w.tap (.yielded f w k) (x.bytes ++ rest) =
      ((feedLoop w.tap (k x { f with recording := none }) rest).1,
        (feedLoop w.tap (k x { f with recording := none }) rest).2.1,
        recorded f (k x { f with recording := none }).state x.bytes ++
          (feedLoop w.tap (k x { f with recording := none }) rest).2.2) := by
  have hdrop : (x.bytes ++ rest).drop w.nbytes = rest := List.drop_left' x.length_bytes
  simp [feedLoop, Block.ofPrefix_append, hdrop]

/-- More bytes behind the buffer only continue the loop from where it stopped. -/
theorem feedLoop_append (tap : Tap) (step : Step) (a b : Bytes) :
    feedLoop tap step (a ++ b) =
      ((feedLoop tap (feedLoop tap step a).1 ((feedLoop tap step a).2.1 ++ b)).1,
        (feedLoop tap (feedLoop tap step a).1 ((feedLoop tap step a).2.1 ++ b)).2.1,
        (feedLoop tap step a).2.2 ++
          (feedLoop tap (feedLoop tap step a).1 ((feedLoop tap step a).2.1 ++ b)).2.2) := by
  induction step generalizing a with
  | done f u => rfl
  | failed f e => exact e.elim
  | yielded f w k ih =>
    by_cases h : w.tap = tap ∧ w.nbytes ≤ a.length
    · obtain ⟨rfl, hn⟩ := h
      have ha : a = (Block.ofPrefix w.nbytes a hn).bytes ++ a.drop w.nbytes := by simp
      rw [ha, List.append_assoc, feedLoop_block, feedLoop_block, ih]
      simp only [List.append_assoc]
    · have hstop : feedLoop tap (.yielded f w k) a = (.yielded f w k, a, []) := by
        simp [feedLoop, h]
      simp [hstop]

/-- The loop never makes bytes up: an empty buffer stays empty. -/
theorem feedLoop_nil (tap : Tap) (step : Step) : (feedLoop tap step []).2.1 = [] := by
  induction step with
  | done f u => rfl
  | failed f e => exact e.elim
  | yielded f w k ih =>
    rw [feedLoop]
    split
    · simpa using ih _ _
    · rfl

/-! ## Feeding -/

@[simp] theorem feed_nil (tap : Tap) (s : HandshakeScrubber) : feed tap [] s = ([], s) := rfl

/-- A direction the grammar does not wait on passes through unmodified. -/
theorem feed_of_not_watches {tap : Tap} {s : HandshakeScrubber} (h : ¬ Watches s.step tap)
    (hpending : s.pending tap = []) (data : Bytes) : feed tap data s = (data, s) := by
  by_cases hdata : data = []
  · simp [hdata]
  · have hupdate : Function.update s.pending tap [] = s.pending := by
      rw [← hpending, Function.update_eq_self]
    rw [feed, if_neg hdata, if_neg h, hpending, hupdate, List.nil_append]

/-- Feeding the direction the grammar waits on runs the loop on everything it holds. -/
theorem feed_of_watches {tap : Tap} {s : HandshakeScrubber} (h : Watches s.step tap)
    {data : Bytes} (hdata : data ≠ []) :
    feed tap data s =
      let r := feedLoop tap s.step (s.pending tap ++ data)
      if Watches r.1 tap then (r.2.2, ⟨r.1, Function.update s.pending tap r.2.1⟩)
      else (r.2.2 ++ r.2.1, ⟨r.1, Function.update s.pending tap []⟩) := by
  simp [feed, hdata, h]

/-- Feeding `a` and then `b` is feeding `a ++ b`: same output, same scrubber afterwards. -/
theorem feed_append (tap : Tap) (a b : Bytes) (s : HandshakeScrubber) :
    feed tap (a ++ b) s =
      ((feed tap a s).1 ++ (feed tap b (feed tap a s).2).1,
        (feed tap b (feed tap a s).2).2) := by
  by_cases ha : a = []
  · simp [ha]
  by_cases hb : b = []
  · simp [hb]
  have hab : a ++ b ≠ [] := by simp [ha]
  by_cases hw : Watches s.step tap
  · have happ := feedLoop_append tap s.step (s.pending tap ++ a) b
    rw [List.append_assoc] at happ
    rw [feed_of_watches hw hab, feed_of_watches hw ha]
    by_cases hr : Watches (feedLoop tap s.step (s.pending tap ++ a)).1 tap
    · -- still waiting here: the second feed resumes the loop with what was held back
      simp only [hr, if_true]
      rw [feed_of_watches hr hb]
      simp only [happ, Function.update_self, Function.update_idem]
      split <;> simp
    · -- the grammar moved on: what was left over and `b` both pass through
      have hstop := feedLoop_of_not_watches hr
        ((feedLoop tap s.step (s.pending tap ++ a)).2.1 ++ b)
      simp only [happ, hstop, hr, if_false]
      rw [feed_of_not_watches hr (Function.update_self ..)]
      simp
  · simp [feed, ha, hb, hw]

/-! ## Sequences of chunks -/

/-- The bytes of a sequence of chunks in arrival order, each with its direction. -/
def arrivals (events : List Event) : List (Tap × UInt8) :=
  events.flatMap fun e => e.2.map fun b => (e.1, b)

/-- Arrivals fed one byte at a time. -/
def bytewise (bytes : List (Tap × UInt8)) : List Event := bytes.map fun x => (x.1, [x.2])

@[simp] theorem arrivals_nil : arrivals [] = [] := rfl

@[simp] theorem arrivals_cons (e : Event) (events : List Event) :
    arrivals (e :: events) = (e.2.map fun b => (e.1, b)) ++ arrivals events := rfl

@[simp] theorem arrivals_append (e₁ e₂ : List Event) :
    arrivals (e₁ ++ e₂) = arrivals e₁ ++ arrivals e₂ := by
  simp [arrivals]

@[simp] theorem arrivals_bytewise (bytes : List (Tap × UInt8)) :
    arrivals (bytewise bytes) = bytes := by
  induction bytes with
  | nil => rfl
  | cons x xs ih => simpa [bytewise] using ih

/-- The bytes of one direction. -/
def bytesOn (tap : Tap) (events : List Event) : Bytes :=
  events.flatMap fun e => if e.1 = tap then e.2 else []

@[simp] theorem bytesOn_nil (tap : Tap) : bytesOn tap [] = [] := rfl

@[simp] theorem bytesOn_cons (tap : Tap) (e : Event) (events : List Event) :
    bytesOn tap (e :: events) = (if e.1 = tap then e.2 else []) ++ bytesOn tap events := rfl

@[simp] theorem bytesOn_append (tap : Tap) (e₁ e₂ : List Event) :
    bytesOn tap (e₁ ++ e₂) = bytesOn tap e₁ ++ bytesOn tap e₂ := by
  simp [bytesOn]

/-- The bytes of one direction in a sequence of arrivals. -/
def onTap (tap : Tap) (bytes : List (Tap × UInt8)) : Bytes :=
  (bytes.filter fun x => x.1 = tap).map Prod.snd

@[simp] theorem onTap_nil (tap : Tap) : onTap tap [] = [] := rfl

theorem onTap_cons (tap : Tap) (x : Tap × UInt8) (bytes : List (Tap × UInt8)) :
    onTap tap (x :: bytes) = if x.1 = tap then x.2 :: onTap tap bytes else onTap tap bytes := by
  by_cases h : x.1 = tap <;> simp [onTap, h]

@[simp] theorem onTap_append (tap : Tap) (l m : List (Tap × UInt8)) :
    onTap tap (l ++ m) = onTap tap l ++ onTap tap m := by
  simp [onTap]

@[simp] theorem onTap_map (tap t : Tap) (data : Bytes) :
    onTap tap (data.map fun b => (t, b)) = if t = tap then data else [] := by
  induction data with
  | nil => simp
  | cons b data ih =>
    rw [List.map_cons, onTap_cons, ih]
    by_cases h : t = tap <;> simp [h]

/-- The bytes of one direction are those of the arrivals that came from it. -/
theorem bytesOn_eq_onTap (tap : Tap) (events : List Event) :
    bytesOn tap events = onTap tap (arrivals events) := by
  induction events with
  | nil => rfl
  | cons e events ih => rw [bytesOn_cons, arrivals_cons, onTap_append, onTap_map, ih]

@[simp] theorem feedAll_nil (s : HandshakeScrubber) :
    feedAll [] s = (fun _ => [], s) := rfl

theorem feedAll_cons (e : Event) (events : List Event) (s : HandshakeScrubber) :
    feedAll (e :: events) s =
      (Function.update (feedAll events (feed e.1 e.2 s).2).1 e.1
          ((feed e.1 e.2 s).1 ++ (feedAll events (feed e.1 e.2 s).2).1 e.1),
        (feedAll events (feed e.1 e.2 s).2).2) := rfl

/-- Feeding a sequence and then another records the one after the other. -/
theorem feedAll_append (e₁ e₂ : List Event) (s : HandshakeScrubber) :
    feedAll (e₁ ++ e₂) s =
      (fun tap => (feedAll e₁ s).1 tap ++ (feedAll e₂ (feedAll e₁ s).2).1 tap,
        (feedAll e₂ (feedAll e₁ s).2).2) := by
  induction e₁ generalizing s with
  | nil => rfl
  | cons e e₁ ih =>
    rw [List.cons_append, feedAll_cons, feedAll_cons, ih]
    refine Prod.ext (funext fun tap => ?_) rfl
    by_cases h : tap = e.1
    · subst h; simp
    · simp [h]

theorem feedAll_singleton (e : Event) (s : HandshakeScrubber) :
    feedAll [e] s =
      (Function.update (fun _ => []) e.1 (feed e.1 e.2 s).1, (feed e.1 e.2 s).2) := by
  simp [feedAll_cons]

/-- One chunk is as good as its bytes. -/
theorem feedAll_bytewise_chunk (tap : Tap) (data : Bytes) (s : HandshakeScrubber) :
    feedAll (bytewise (data.map fun b => (tap, b))) s = feedAll [(tap, data)] s := by
  induction data generalizing s with
  | nil =>
    rw [feedAll_singleton]
    simp [bytewise]
  | cons b data ih =>
    have hsplit := feed_append tap [b] data s
    rw [List.singleton_append] at hsplit
    have ih' := ih (feed tap [b] s).2
    rw [feedAll_singleton] at ih' ⊢
    simp only [bytewise, List.map_cons, feedAll_cons] at ih' ⊢
    rw [ih', hsplit]
    simp

/-- A sequence of chunks is as good as its bytes, one at a time. -/
theorem feedAll_eq_bytewise (events : List Event) (s : HandshakeScrubber) :
    feedAll events s = feedAll (bytewise (arrivals events)) s := by
  induction events generalizing s with
  | nil => rfl
  | cons e events ih =>
    have hbytes : bytewise (arrivals (e :: events)) =
        bytewise (e.2.map fun b => (e.1, b)) ++ bytewise (arrivals events) := by
      simp [bytewise]
    rw [hbytes, feedAll_append, feedAll_bytewise_chunk, ← List.singleton_append,
      feedAll_append, ih]

/-- Two ways of cutting the same arrivals into chunks record the same and leave the same
scrubber. -/
theorem feedAll_eq_of_arrivals {e₁ e₂ : List Event} (h : arrivals e₁ = arrivals e₂)
    (s : HandshakeScrubber) : feedAll e₁ s = feedAll e₂ s := by
  rw [feedAll_eq_bytewise e₁, feedAll_eq_bytewise e₂, h]

end HandshakeScrubber

end VncDoTool
