import VncDoTool.Proxy.Sessions

/-!
# One session only

With `one_shot` the factory is a gate: the first client whose connection carries a byte is the only
one ever to be let through, and one that carries none leaves the gate as it was.

* `Gate`: the gate, and what a call does to it.
* `Proxies.Keeps`: a factory with its clients behaves as the gate.
* `Proxies.Carried`, `Proxies.Aborted`: what the calls of a run say of a client.
* `Proxies.one_session`: what holds after any calls.
-/

namespace VncDoTool

/-- A gate that lets one session through. -/
inductive Gate : Type
  | unclaimed
  /-- A client is let in, and its connection may have carried bytes. -/
  | held (client : ℕ) (carried : Bool)
  | shut
  deriving DecidableEq

namespace Gate

/-- What a call of a client does to the gate. -/
def next (g : Gate) (e : ProxyEvent) : Gate :=
  match g, e.call with
  | .unclaimed, .connectionMade => .held e.client false
  | .held client carried, .dataReceived data
  | .held client carried, .peerDataReceived data =>
    if e.client = client then .held client (carried || decide (data ≠ [])) else .held client carried
  | .held client carried, .connectionLost _ =>
    if e.client = client then (if carried then .shut else .unclaimed) else .held client carried
  | g, _ => g

end Gate

namespace VNCLoggingServerProxy

variable {o : ProxyOptions} {p : VNCLoggingServerProxy} {f : VNCLoggingServerFactory}

/-- What bytes do to a client: they are noted, and it is refused, claims and is there as before. -/
theorem carry_claim (tap : Tap) (data : Bytes) :
    (p.carry f tap data).1.refused = p.refused ∧
      (p.carry f tap data).1.tookSession = p.tookSession ∧
      (p.carry f tap data).1.lost = p.lost ∧
      (p.carry f tap data).1.sawBytes = (p.sawBytes || decide (data ≠ [])) ∧
      (p.carry f tap data).2.sessionTaken = f.sessionTaken ∧
      (p.carry f tap data).2.finished = f.finished := by
  unfold carry abortCapture
  by_cases hdata : data = []
  · simp only [hdata, ne_eq, not_true_eq_false, if_false, decide_false, Bool.or_false]
    split <;> (try split_ifs) <;> exact ⟨rfl, rfl, rfl, rfl, rfl, rfl⟩
  · simp only [ne_eq, hdata, not_false_eq_true, if_true, decide_true, Bool.or_true]
    split <;> (try split_ifs) <;> exact ⟨rfl, rfl, rfl, rfl, rfl, rfl⟩

/-- What becomes of the claim when a client goes that was accepted. -/
theorem connectionLost_claim (client : ℕ) (writable : Bool) (hrefused : p.refused = false)
    (htook : p.tookSession = true) (honeShot : o.oneShot = true) :
    let r := p.connectionLost o f client writable
    r.1.refused = false ∧ r.1.tookSession = true ∧ r.1.lost = true ∧ r.1.sawBytes = p.sawBytes ∧
      r.2.sessionTaken = (f.sessionTaken && p.sawBytes) ∧
      r.2.finished = f.finished ++ if p.sawBytes then [client] else [] := by
  have hwrite : (p.writeCapture f client writable).1.refused = p.refused ∧
      (p.writeCapture f client writable).1.tookSession = p.tookSession ∧
      (p.writeCapture f client writable).1.sawBytes = p.sawBytes ∧
      (p.writeCapture f client writable).2.sessionTaken = f.sessionTaken ∧
      (p.writeCapture f client writable).2.finished = f.finished := by
    unfold writeCapture
    split <;> (try split_ifs) <;> exact ⟨rfl, rfl, rfl, rfl, rfl⟩
  have hclosed : ∀ g : VNCLoggingServerFactory,
      g.clientConnectionLost.sessionTaken = g.sessionTaken ∧
        g.clientConnectionLost.finished = g.finished := by
    intro g
    unfold VNCLoggingServerFactory.clientConnectionLost
    split <;> exact ⟨rfl, rfl⟩
  unfold connectionLost
  rw [if_neg (by simp [hrefused])]
  cases hbytes : p.sawBytes with
  | true =>
    simp only [if_true, honeShot, (hclosed _).1, (hclosed _).2, hwrite.1, hwrite.2.1, hwrite.2.2.1,
      hwrite.2.2.2.1, hwrite.2.2.2.2, Bool.and_true]
    exact ⟨hrefused, htook, trivial, hbytes, trivial, trivial⟩
  | false =>
    simp only [Bool.false_eq_true, if_false, htook, if_true, (hclosed _).1, (hclosed _).2,
      Bool.and_false, List.append_nil]
    exact ⟨hrefused, trivial, trivial, trivial, trivial, trivial⟩

end VNCLoggingServerProxy

namespace Proxies

variable {o : ProxyOptions} {s : Proxies} {g : Gate} {e : ProxyEvent} {events : List ProxyEvent}

/-- The factory behaves as the gate. -/
structure Keeps (s : Proxies) (g : Gate) : Prop where
  taken : s.factory.sessionTaken = true ↔ g ≠ .unclaimed
  /-- Whoever is let in and there holds the gate, -/
  live : ∀ i p, s.clients i = some p → p.refused = false → p.lost = false →
    g = .held i p.sawBytes
  /-- and who holds the gate is let in and there. -/
  held : ∀ i carried, g = .held i carried → s.Live i
  /-- It is shut for a session. -/
  carried : ∀ i p, s.clients i = some p → p.refused = false → p.lost = true →
    p.sawBytes = true → g = .shut
  took : ∀ i p, s.clients i = some p → p.refused = false → p.tookSession = true
  finished : ∀ i p, s.clients i = some p → p.refused = false → p.lost = true →
    p.sawBytes = true → s.factory.finished.count i = 1
  unfinished : ∀ i, (∀ p, s.clients i = some p → p.refused = false → p.lost = true →
    p.sawBytes = false) → s.factory.finished.count i = 0

theorem keeps_start : Keeps {} .unclaimed where
  taken := by simp
  live _ _ h := absurd h (by simp)
  held _ _ h := absurd h (by simp)
  carried _ _ h := absurd h (by simp)
  took _ _ h := absurd h (by simp)
  finished _ _ h := absurd h (by simp)
  unfinished _ _ := List.count_nil

/-- A refused client changes nothing. -/
theorem Keeps.refused (h : Keeps s g) {i : ℕ} {p' : VNCLoggingServerProxy}
    (hrefused : p'.refused = true)
    (hold : ∀ p, s.clients i = some p → p.refused = true) :
    Keeps ⟨s.factory, Function.update s.clients i (some p')⟩ g := by
  have hother : ∀ j q, Function.update s.clients i (some p') j = some q → q.refused = false →
      s.clients j = some q := by
    intro j q hq hqrefused
    rcases client_cases hq with ⟨-, rfl⟩ | ⟨-, hq⟩
    · exact absurd (hrefused.symm.trans hqrefused) (by simp)
    · exact hq
  refine ⟨h.taken, ?_, ?_, ?_, ?_, ?_, ?_⟩
  · exact fun j q hq hqrefused => h.live j q (hother j q hq hqrefused) hqrefused
  · intro j carried hg
    obtain ⟨q, hq, hqrefused, hthere⟩ := h.held j carried hg
    have hj : j ≠ i := by
      rintro rfl
      exact absurd ((hold q hq).symm.trans hqrefused) (by simp)
    exact ⟨q, (Function.update_of_ne hj _ _).trans hq, hqrefused, hthere⟩
  · exact fun j q hq hqrefused => h.carried j q (hother j q hq hqrefused) hqrefused
  · exact fun j q hq hqrefused => h.took j q (hother j q hq hqrefused) hqrefused
  · exact fun j q hq hqrefused => h.finished j q (hother j q hq hqrefused) hqrefused
  · intro j hnone
    refine h.unfinished j fun q hq hqrefused => ?_
    have hj : j ≠ i := by
      rintro rfl
      exact absurd ((hold q hq).symm.trans hqrefused) (by simp)
    exact hnone q ((Function.update_of_ne hj _ _).trans hq) hqrefused

/-- A client is let in where nobody else is. -/
theorem Keeps.accept (h : Keeps s .unclaimed) {i : ℕ} {p : VNCLoggingServerProxy}
    {f' : VNCLoggingServerFactory} (hi : s.clients i = none) (hrefused : p.refused = false)
    (htook : p.tookSession = true) (hthere : p.lost = false) (hbytes : p.sawBytes = false)
    (htaken : f'.sessionTaken = true) (hfinished : f'.finished = s.factory.finished) :
    Keeps ⟨f', Function.update s.clients i (some p)⟩ (.held i false) := by
  refine ⟨by simp [htaken], ?_, ?_, ?_, ?_, ?_, ?_⟩
  · intro j q hq hqrefused hqthere
    rcases client_cases hq with ⟨rfl, rfl⟩ | ⟨-, hq'⟩
    · rw [hbytes]
    · exact absurd (h.live j q hq' hqrefused hqthere) (by simp)
  · rintro j carried ⟨rfl, rfl⟩
    exact ⟨p, Function.update_self .., hrefused, hthere⟩
  · intro j q hq hqrefused hgone hqbytes
    rcases client_cases hq with ⟨rfl, rfl⟩ | ⟨-, hq'⟩
    · exact absurd (hthere.symm.trans hgone) (by simp)
    · exact absurd (h.carried j q hq' hqrefused hgone hqbytes) (by simp)
  · intro j q hq hqrefused
    rcases client_cases hq with ⟨rfl, rfl⟩ | ⟨-, hq'⟩
    · exact htook
    · exact h.took j q hq' hqrefused
  · intro j q hq hqrefused hgone hqbytes
    rcases client_cases hq with ⟨rfl, rfl⟩ | ⟨-, hq'⟩
    · exact absurd (hthere.symm.trans hgone) (by simp)
    · exact absurd (h.carried j q hq' hqrefused hgone hqbytes) (by simp)
  · intro j hnone
    change f'.finished.count j = 0
    rw [hfinished]
    refine h.unfinished j fun q hq hqrefused hgone => ?_
    have hj : j ≠ i := by
      rintro rfl
      exact absurd (hi.symm.trans hq) (by simp)
    exact hnone q ((Function.update_of_ne hj _ _).trans hq) hqrefused hgone

/-- The client that is let in stays, and may have carried bytes. -/
theorem Keeps.stay {i : ℕ} {p p' : VNCLoggingServerProxy} {f' : VNCLoggingServerFactory}
    (h : Keeps s (.held i p.sawBytes)) (hp : s.clients i = some p) (hrefused : p.refused = false)
    (hrefused' : p'.refused = false) (htook : p'.tookSession = p.tookSession)
    (hthere : p.lost = false) (hthere' : p'.lost = false)
    (htaken : f'.sessionTaken = s.factory.sessionTaken)
    (hfinished : f'.finished = s.factory.finished) :
    Keeps ⟨f', Function.update s.clients i (some p')⟩ (.held i p'.sawBytes) := by
  refine ⟨?_, ?_, ?_, ?_, ?_, ?_, ?_⟩
  · have htrue : s.factory.sessionTaken = true := h.taken.mpr (by simp)
    simp [htaken, htrue]
  · -- Only the client that holds the session is there.
    intro j q hq hqrefused hqthere
    rcases client_cases hq with ⟨rfl, rfl⟩ | ⟨hj, hq'⟩
    · rfl
    · have hg := h.live j q hq' hqrefused hqthere
      rw [Gate.held.injEq] at hg
      exact absurd hg.1.symm hj
  · rintro j carried ⟨rfl, rfl⟩
    exact ⟨p', Function.update_self .., hrefused', hthere'⟩
  · intro j q hq hqrefused hgone hqbytes
    rcases client_cases hq with ⟨rfl, rfl⟩ | ⟨-, hq'⟩
    · exact absurd (hthere'.symm.trans hgone) (by simp)
    · exact absurd (h.carried j q hq' hqrefused hgone hqbytes) (by simp)
  · intro j q hq hqrefused
    rcases client_cases hq with ⟨rfl, rfl⟩ | ⟨-, hq'⟩
    · exact htook.trans (h.took j p hp hrefused)
    · exact h.took j q hq' hqrefused
  · intro j q hq hqrefused hgone hqbytes
    rcases client_cases hq with ⟨rfl, rfl⟩ | ⟨-, hq'⟩
    · exact absurd (hthere'.symm.trans hgone) (by simp)
    · exact absurd (h.carried j q hq' hqrefused hgone hqbytes) (by simp)
  · intro j hnone
    change f'.finished.count j = 0
    rw [hfinished]
    refine h.unfinished j fun q hq hqrefused hgone => ?_
    by_cases hj : j = i
    · subst hj
      obtain rfl := Option.some.inj (hp.symm.trans hq)
      exact absurd (hthere.symm.trans hgone) (by simp)
    · exact hnone q ((Function.update_of_ne hj _ _).trans hq) hqrefused hgone

/-- The client that is let in goes. -/
theorem Keeps.leave {i : ℕ} {p p' : VNCLoggingServerProxy} {f' : VNCLoggingServerFactory}
    (h : Keeps s (.held i p.sawBytes)) (hp : s.clients i = some p) (hthere : p.lost = false)
    (hrefused' : p'.refused = false) (htook : p'.tookSession = true) (hgone' : p'.lost = true)
    (hbytes : p'.sawBytes = p.sawBytes)
    (htaken : f'.sessionTaken = (s.factory.sessionTaken && p.sawBytes))
    (hfinished : f'.finished = s.factory.finished ++ if p.sawBytes then [i] else []) :
    Keeps ⟨f', Function.update s.clients i (some p')⟩
      (if p.sawBytes then .shut else .unclaimed) := by
  -- With it gone nobody is let in and still there.
  have hnobody : ∀ j q, Function.update s.clients i (some p') j = some q → q.refused = false →
      q.lost = false → False := by
    intro j q hq hqrefused hqthere
    rcases client_cases hq with ⟨rfl, rfl⟩ | ⟨hj, hq'⟩
    · exact absurd (hgone'.symm.trans hqthere) (by simp)
    · have hg := h.live j q hq' hqrefused hqthere
      rw [Gate.held.injEq] at hg
      exact absurd hg.1.symm hj
  -- It is finished once if it carried bytes; else the session is open again.
  have hcount : ∀ j, f'.finished.count j =
      s.factory.finished.count j + if j = i ∧ p.sawBytes = true then 1 else 0 := by
    intro j
    rw [hfinished, List.count_append]
    by_cases hj : j = i
    · cases p.sawBytes <;> simp [hj]
    · cases p.sawBytes <;> simp [hj, Ne.symm hj]
  have hzero : s.factory.finished.count i = 0 := by
    refine h.unfinished i fun q hq _ hgone => ?_
    obtain rfl := Option.some.inj (hp.symm.trans hq)
    exact absurd (hthere.symm.trans hgone) (by simp)
  refine ⟨?_, ?_, ?_, ?_, ?_, ?_, ?_⟩
  · have htrue : s.factory.sessionTaken = true := h.taken.mpr (by simp)
    rw [htaken, htrue]
    cases p.sawBytes <;> simp
  · exact fun j q hq hqrefused hqthere => (hnobody j q hq hqrefused hqthere).elim
  · intro j carried hg
    split_ifs at hg
  · intro j q hq hqrefused hgone hqbytes
    rcases client_cases hq with ⟨rfl, rfl⟩ | ⟨-, hq'⟩
    · rw [if_pos (hbytes ▸ hqbytes)]
    · exact absurd (h.carried j q hq' hqrefused hgone hqbytes) (by simp)
  · intro j q hq hqrefused
    rcases client_cases hq with ⟨rfl, rfl⟩ | ⟨-, hq'⟩
    · exact htook
    · exact h.took j q hq' hqrefused
  · intro j q hq hqrefused hgone hqbytes
    change f'.finished.count j = 1
    rcases client_cases hq with ⟨rfl, rfl⟩ | ⟨-, hq'⟩
    · rw [hcount, hzero, if_pos ⟨rfl, hbytes ▸ hqbytes⟩]
    · exact absurd (h.carried j q hq' hqrefused hgone hqbytes) (by simp)
  · intro j hnone
    change f'.finished.count j = 0
    by_cases hj : j = i
    · subst hj
      have hfalse := hnone p' (Function.update_self ..) hrefused' hgone'
      rw [hcount, hzero, if_neg (by simp [← hbytes, hfalse])]
    · rw [hcount, if_neg (by simp [hj])]
      exact h.unfinished j fun q hq => hnone q ((Function.update_of_ne hj _ _).trans hq)

/-- One call, and what it does to the gate. -/
theorem Keeps.step (h : Keeps s g) (honeShot : o.oneShot = true) (hpossible : s.Possible e) :
    Keeps (step o s e) (g.next e) := by
  obtain ⟨i, call⟩ := e
  have hupdate : ∀ p, s.clients i = some p → ∀ call,
      Proxies.step o s ⟨i, call⟩ = ⟨(perform o i p s.factory call).2,
        Function.update s.clients i (some (perform o i p s.factory call).1)⟩ := by
    intro p hp call
    unfold Proxies.step
    rw [hp, Option.getD_some]
  -- a refused client does not hold the gate
  have hrefusal : ∀ p, s.clients i = some p → p.refused = true → ∀ carried, g ≠ .held i carried := by
    rintro p hp hrefused carried rfl
    obtain ⟨q, hq, hqrefused, -⟩ := h.held i carried rfl
    obtain rfl := Option.some.inj (hp.symm.trans hq)
    exact absurd (hrefused.symm.trans hqrefused) (by simp)
  have hsame : ∀ p, s.clients i = some p → p.refused = true → ∀ p' : VNCLoggingServerProxy,
      p'.refused = true → Keeps ⟨s.factory, Function.update s.clients i (some p')⟩ g := by
    intro p hp hrefused p' hrefused'
    refine h.refused hrefused' fun q hq => ?_
    obtain rfl := Option.some.inj (hp.symm.trans hq)
    exact hrefused
  have hcarry : ∀ p tap data, s.clients i = some p → p.refused = false → p.lost = false →
      Keeps ⟨(p.carry s.factory tap data).2,
        Function.update s.clients i (some (p.carry s.factory tap data).1)⟩
        (.held i (p.sawBytes || decide (data ≠ []))) := by
    intro p tap data hp hrefused hthere
    obtain ⟨hrefused', htook, hlost, hbytes, htaken, hfinished⟩ :=
      VNCLoggingServerProxy.carry_claim (p := p) (f := s.factory) tap data
    have hg := h.live i p hp hrefused hthere
    subst hg
    rw [← hbytes]
    exact h.stay hp hrefused (hrefused'.trans hrefused) htook hthere (hlost.trans hthere) htaken
      hfinished
  have hrecord : ∀ p p' line, s.clients i = some p → p.refused = false → p.lost = false →
      p'.refused = p.refused → p'.tookSession = p.tookSession → p'.lost = p.lost →
      p'.sawBytes = p.sawBytes →
      Keeps ⟨p.record s.factory line, Function.update s.clients i (some p')⟩ g := by
    intro p p' line hp hrefused hthere hrefused' htook hlost hbytes
    have hfactory : (p.record s.factory line).sessionTaken = s.factory.sessionTaken ∧
        (p.record s.factory line).finished = s.factory.finished := by
      unfold VNCLoggingServerProxy.record VNCLoggingServerFactory.write
      split <;> (try split_ifs) <;> exact ⟨rfl, rfl⟩
    have hg := h.live i p hp hrefused hthere
    subst hg
    rw [← hbytes]
    exact h.stay hp hrefused (hrefused'.trans hrefused) htook hthere (hlost.trans hthere)
      hfactory.1 hfactory.2
  cases call with
  | connectionMade =>
    show Keeps ⟨(VNCLoggingServerProxy.connectionMade o s.factory).2, Function.update s.clients i
      (some (VNCLoggingServerProxy.connectionMade o s.factory).1)⟩ _
    unfold VNCLoggingServerProxy.connectionMade
    cases htaken : s.factory.sessionTaken with
    | true =>
      have hg : g ≠ .unclaimed := h.taken.mp htaken
      have hnext : g.next ⟨i, .connectionMade⟩ = g := by
        cases g with
        | unclaimed => exact absurd rfl hg
        | held j carried => rfl
        | shut => rfl
      rw [if_pos ⟨honeShot, rfl⟩, hnext]
      exact h.refused rfl fun p hp => absurd (hpossible.symm.trans hp) (by simp)
    | false =>
      have hg : g = .unclaimed := by
        by_contra hne
        exact absurd (htaken.symm.trans (h.taken.mpr hne)) (by simp)
      subst hg
      rw [if_neg (by simp)]
      simp only
      rw [if_pos honeShot]
      refine h.accept hpossible rfl honeShot rfl rfl rfl ?_
      change ((s.factory.getRecorder o).2).finished = _
      unfold VNCLoggingServerFactory.getRecorder
      split_ifs <;> rfl
  | dataReceived data =>
    obtain ⟨p, hp, hthere⟩ := hpossible
    rw [hupdate p hp]
    show Keeps ⟨(p.dataReceived s.factory data).2,
      Function.update s.clients i (some (p.dataReceived s.factory data).1)⟩ _
    unfold VNCLoggingServerProxy.dataReceived
    cases hrefused : p.refused with
    | true =>
      have hnext : g.next ⟨i, .dataReceived data⟩ = g := by
        cases g with
        | unclaimed => rfl
        | held j carried =>
          have hj : i ≠ j := fun hij => hrefusal p hp hrefused carried (hij ▸ rfl)
          exact if_neg hj
        | shut => rfl
      rw [if_pos rfl, hnext]
      exact hsame p hp hrefused p hrefused
    | false =>
      have hnext : g.next ⟨i, .dataReceived data⟩ = .held i (p.sawBytes || decide (data ≠ [])) := by
        rw [h.live i p hp hrefused hthere]
        exact if_pos rfl
      rw [if_neg (by simp), hnext]
      exact hcarry p .c2s data hp hrefused hthere
  | peerDataReceived data =>
    obtain ⟨p, hp, hrefused, hthere⟩ := hpossible
    rw [hupdate p hp]
    have hnext : g.next ⟨i, .peerDataReceived data⟩ =
        .held i (p.sawBytes || decide (data ≠ [])) := by
      rw [h.live i p hp hrefused hthere]
      exact if_pos rfl
    rw [hnext]
    exact hcarry p .s2c data hp hrefused hthere
  | keyEvent elapsed key down =>
    obtain ⟨p, hp, hrefused, hthere⟩ := hpossible
    rw [hupdate p hp]
    have hnext : g.next ⟨i, .keyEvent elapsed key down⟩ = g := by cases g <;> rfl
    rw [hnext]
    show Keeps ⟨(p.handleKeyEvent s.factory elapsed key down).2,
      Function.update s.clients i (some (p.handleKeyEvent s.factory elapsed key down).1)⟩ _
    unfold VNCLoggingServerProxy.handleKeyEvent
    cases Recorder.keyLine elapsed key down with
    | none =>
      have hg := h.live i p hp hrefused hthere
      subst hg
      exact h.stay hp hrefused hrefused rfl hthere hthere rfl rfl
    | some line => exact hrecord p p line hp hrefused hthere rfl rfl rfl rfl
  | pointerEvent elapsed x y buttonmask =>
    obtain ⟨p, hp, hrefused, hthere⟩ := hpossible
    rw [hupdate p hp]
    have hnext : g.next ⟨i, .pointerEvent elapsed x y buttonmask⟩ = g := by cases g <;> rfl
    rw [hnext]
    exact hrecord p { p with mouse := some (x, y) } _ hp hrefused hthere rfl rfl rfl rfl
  | connectionLost writable =>
    obtain ⟨p, hp, hthere⟩ := hpossible
    rw [hupdate p hp]
    show Keeps ⟨(p.connectionLost o s.factory i writable).2,
      Function.update s.clients i (some (p.connectionLost o s.factory i writable).1)⟩ _
    cases hrefused : p.refused with
    | true =>
      have hnext : g.next ⟨i, .connectionLost writable⟩ = g := by
        cases g with
        | unclaimed => rfl
        | held j carried =>
          have hj : i ≠ j := fun hij => hrefusal p hp hrefused carried (hij ▸ rfl)
          exact if_neg hj
        | shut => rfl
      unfold VNCLoggingServerProxy.connectionLost
      rw [if_pos hrefused, hnext]
      exact hsame p hp hrefused _ hrefused
    | false =>
      have htook := h.took i p hp hrefused
      have hg := h.live i p hp hrefused hthere
      have hnext : g.next ⟨i, .connectionLost writable⟩ =
          if p.sawBytes then .shut else .unclaimed := by
        rw [hg]
        exact if_pos rfl
      subst hg
      obtain ⟨hrefused', htook', hgone, hbytes, htaken, hfinished⟩ :=
        VNCLoggingServerProxy.connectionLost_claim (f := s.factory) i writable hrefused htook honeShot
      rw [hnext]
      exact h.leave hp hthere hrefused' htook' hgone hbytes htaken hfinished

/-! ## What the calls say -/

/-- A byte came in for a client, from either side. -/
def Carried (events : List ProxyEvent) (client : ℕ) : Prop :=
  ∃ data, data ≠ [] ∧
    (⟨client, .dataReceived data⟩ ∈ events ∨ ⟨client, .peerDataReceived data⟩ ∈ events)

/-- The bytes that a call brings for a client. -/
def tapped (client : ℕ) (e : ProxyEvent) : Option (Tap × Bytes) :=
  if e.client = client then
    match e.call with
    | .dataReceived data => some (.c2s, data)
    | .peerDataReceived data => some (.s2c, data)
    | _ => none
  else none

/-- A scrubber that gets all the bytes of a client. -/
def scrubber (o : ProxyOptions) (events : List ProxyEvent) (client : ℕ) : HandshakeScrubber :=
  (events.filterMap (tapped client)).foldl (fun s chunk => (s.feed chunk.1 chunk.2).2)
    (.init o.capturePreserveAuth)

/-- It set its `abort_reason` at some time. -/
def Aborted (o : ProxyOptions) (events : List ProxyEvent) (client : ℕ) : Prop :=
  ∃ before after, events = before ++ after ∧
    (scrubber o before client).fields.abortReason.isSome = true

variable {past : List ProxyEvent} {client : ℕ}

theorem aborted_concat : Aborted o (past ++ [e]) client ↔
    Aborted o past client ∨
      (scrubber o (past ++ [e]) client).fields.abortReason.isSome = true := by
  constructor
  · rintro ⟨before, after, heq, habort⟩
    rcases List.eq_nil_or_concat after with rfl | ⟨after, last, rfl⟩
    · rw [List.append_nil] at heq
      exact Or.inr (heq ▸ habort)
    · rw [List.concat_eq_append, ← List.append_assoc] at heq
      exact Or.inl ⟨before, after, (List.append_inj' heq rfl).1, habort⟩
  · rintro (⟨before, after, rfl, habort⟩ | habort)
    · exact ⟨before, after ++ [e], List.append_assoc .., habort⟩
    · exact ⟨past ++ [e], [], (List.append_nil _).symm, habort⟩

/-- Calls without bytes for a client. -/
theorem scrubber_concat_none (h : tapped client e = none) :
    scrubber o (past ++ [e]) client = scrubber o past client := by
  simp [scrubber, h]

theorem aborted_concat_none (h : tapped client e = none) :
    Aborted o (past ++ [e]) client ↔ Aborted o past client := by
  rw [aborted_concat, scrubber_concat_none h, or_iff_left_of_imp]
  exact fun habort => ⟨past, [], (List.append_nil _).symm, habort⟩

/-- Calls with bytes. -/
theorem scrubber_concat_some {tap : Tap} {data : Bytes} (h : tapped client e = some (tap, data)) :
    scrubber o (past ++ [e]) client = ((scrubber o past client).feed tap data).2 := by
  simp [scrubber, h]

/-- What is so of the clients after the calls of a run. -/
structure Recalls (o : ProxyOptions) (past : List ProxyEvent) (s : Proxies) : Prop where
  fresh : ∀ i, s.clients i = none → ∀ e ∈ past, e.client ≠ i
  bytes : ∀ i p, s.clients i = some p → p.refused = false → (p.sawBytes = true ↔ Carried past i)
  /-- A capture that is there has all the bytes, and its scrubber has not given up. -/
  capture : ∀ i p w, s.clients i = some p → p.refused = false → p.lost = false →
    p.capture = some w → w.scrubber = scrubber o past i ∧ ¬Aborted o past i
  archives : ∀ a ∈ s.factory.archives,
    (∃ p, s.clients a.client = some p ∧ p.lost = true) ∧ ¬Aborted o past a.client

theorem recalls_start : Recalls o [] {} where
  fresh _ _ _ h := absurd h (by simp)
  bytes _ _ h := absurd h (by simp)
  capture _ _ _ h := absurd h (by simp)
  archives _ h := absurd h (by simp)

/-- A call for one client says nothing of another. -/
theorem carried_concat_of_ne (h : e.client ≠ client) :
    Carried (past ++ [e]) client ↔ Carried past client := by
  have hne : ∀ call, (⟨client, call⟩ : ProxyEvent) ∈ past ++ [e] ↔ ⟨client, call⟩ ∈ past := by
    intro call
    rw [List.mem_append, List.mem_singleton, or_iff_left]
    rintro rfl
    exact h rfl
  simp only [Carried, hne]

/-- A call, and what it says of its client. -/
theorem carried_concat : Carried (past ++ [e]) e.client ↔
    Carried past e.client ∨ ∃ tap data, tapped e.client e = some (tap, data) ∧ data ≠ [] := by
  obtain ⟨i, call⟩ := e
  constructor
  · rintro ⟨data, hdata, hmem | hmem⟩
    · rcases List.mem_append.mp hmem with hpast | hlast
      · exact Or.inl ⟨data, hdata, Or.inl hpast⟩
      · obtain ⟨-, rfl⟩ := (ProxyEvent.mk.injEq ..).mp (List.mem_singleton.mp hlast)
        exact Or.inr ⟨.c2s, data, by simp [tapped], hdata⟩
    · rcases List.mem_append.mp hmem with hpast | hlast
      · exact Or.inl ⟨data, hdata, Or.inr hpast⟩
      · obtain ⟨-, rfl⟩ := (ProxyEvent.mk.injEq ..).mp (List.mem_singleton.mp hlast)
        exact Or.inr ⟨.s2c, data, by simp [tapped], hdata⟩
  · rintro (⟨data, hdata, hmem⟩ | ⟨tap, data, htap, hdata⟩)
    · exact ⟨data, hdata, hmem.imp (List.mem_append_left _) (List.mem_append_left _)⟩
    · cases call <;> simp [tapped] at htap
      · exact ⟨data, hdata, Or.inl (by simp [htap.2])⟩
      · exact ⟨data, hdata, Or.inr (by simp [htap.2])⟩

theorem tapped_of_ne (h : e.client ≠ client) : tapped client e = none := if_neg h

/-- A call for a client that is there. -/
theorem Recalls.update (h : Recalls o past s) {p p' : VNCLoggingServerProxy}
    {f' : VNCLoggingServerFactory} (hp : s.clients e.client = some p) (hthere : p.lost = false)
    (hrefused : p'.refused = p.refused)
    (hbytes : p.refused = false → (p'.sawBytes = true ↔
      p.sawBytes = true ∨ ∃ tap data, tapped e.client e = some (tap, data) ∧ data ≠ []))
    (hcapture : p.refused = false → p'.lost = false → ∀ w', p'.capture = some w' →
      tapped e.client e = none ∧ p.capture = some w' ∨
        ∃ tap data w, tapped e.client e = some (tap, data) ∧ p.capture = some w ∧
          w'.scrubber = (w.scrubber.feed tap data).2 ∧ w'.abortReason.isSome = false)
    (harchives : f'.archives = s.factory.archives ∨
      ∃ a w, f'.archives = s.factory.archives ++ [a] ∧ a.client = e.client ∧ p.refused = false ∧
        p.capture = some w ∧ p'.lost = true ∧ tapped e.client e = none) :
    Recalls o (past ++ [e]) ⟨f', Function.update s.clients e.client (some p')⟩ := by
  refine ⟨?_, ?_, ?_, ?_⟩
  · intro j hj
    have hne : j ≠ e.client := by
      rintro rfl
      exact absurd ((Function.update_self ..).symm.trans hj) (by simp)
    intro e' he'
    rcases List.mem_append.mp he' with hpast | hlast
    · exact h.fresh j ((Function.update_of_ne hne _ _).symm.trans hj) e' hpast
    · rw [List.mem_singleton.mp hlast]
      exact hne.symm
  · intro j q hq hqrefused
    rcases client_cases hq with ⟨rfl, rfl⟩ | ⟨hj, hq'⟩
    · rw [hbytes (hrefused ▸ hqrefused), carried_concat,
        h.bytes e.client p hp (hrefused ▸ hqrefused)]
    · rw [carried_concat_of_ne hj.symm]
      exact h.bytes j q hq' hqrefused
  · intro j q w hq hqrefused hqthere hw
    rcases client_cases hq with ⟨rfl, rfl⟩ | ⟨hj, hq'⟩
    · have hprefused := hrefused ▸ hqrefused
      rcases hcapture hprefused hqthere w hw with ⟨htap, hw'⟩ | ⟨tap, data, w', htap, hw', heq, hno⟩
      · rw [scrubber_concat_none htap, aborted_concat_none htap]
        exact h.capture e.client p w hp hprefused hthere hw'
      · obtain ⟨hsame, hpast⟩ := h.capture e.client p w' hp hprefused hthere hw'
        have hfed : w.scrubber = scrubber o (past ++ [e]) e.client := by
          rw [scrubber_concat_some htap, heq, hsame]
        refine ⟨hfed, ?_⟩
        rw [aborted_concat, not_or, ← hfed]
        refine ⟨hpast, ?_⟩
        unfold CaptureWriter.abortReason at hno
        simp [hno]
    · rw [scrubber_concat_none (tapped_of_ne hj.symm), aborted_concat_none (tapped_of_ne hj.symm)]
      exact h.capture j q w hq' hqrefused hqthere hw
  · -- An archive is of a client that is gone, which this one was not.
    have hold : ∀ a ∈ s.factory.archives,
        (∃ q, Function.update s.clients e.client (some p') a.client = some q ∧ q.lost = true) ∧
          ¬Aborted o (past ++ [e]) a.client := by
      intro a ha
      obtain ⟨⟨q, hq, hgone⟩, hpast⟩ := h.archives a ha
      have hne : a.client ≠ e.client := by
        intro heq
        rw [heq] at hq
        obtain rfl := Option.some.inj (hp.symm.trans hq)
        exact absurd (hthere.symm.trans hgone) (by simp)
      refine ⟨⟨q, (Function.update_of_ne hne _ _).trans hq, hgone⟩, ?_⟩
      rwa [aborted_concat_none (tapped_of_ne hne.symm)]
    intro a ha
    rcases harchives with hsame | ⟨a', w, hmore, hclient, hprefused, hw, hgone, htap⟩
    · exact hold a (hsame ▸ ha)
    · change a ∈ f'.archives at ha
      rw [hmore, List.mem_append, List.mem_singleton] at ha
      rcases ha with ha | rfl
      · exact hold a ha
      · rw [hclient, aborted_concat_none htap]
        exact ⟨⟨p', Function.update_self .., hgone⟩,
          (h.capture e.client p w hp hprefused hthere hw).2⟩

/-- The scrubber of a client that is new. -/
theorem scrubber_fresh (h : ∀ e ∈ past, e.client ≠ client) :
    scrubber o past client = .init o.capturePreserveAuth := by
  have hnone : past.filterMap (tapped client) = [] :=
    List.filterMap_eq_nil_iff.mpr fun e he => tapped_of_ne (h e he)
  rw [scrubber, hnone, List.foldl_nil]

theorem not_aborted_fresh (h : ∀ e ∈ past, e.client ≠ client) : ¬Aborted o past client := by
  rintro ⟨before, after, rfl, habort⟩
  have hinit : ∀ preserveAuth, (HandshakeScrubber.init preserveAuth).fields.abortReason = none :=
    fun _ => rfl
  rw [scrubber_fresh fun e he => h e (List.mem_append_left _ he), hinit] at habort
  exact absurd habort (by simp)

/-- A client that comes. -/
theorem Recalls.connectionMade (h : Recalls o past s) {i : ℕ} (hi : s.clients i = none) :
    Recalls o (past ++ [⟨i, .connectionMade⟩]) (Proxies.step o s ⟨i, .connectionMade⟩) := by
  have hfresh : ∀ e ∈ past, e.client ≠ i := h.fresh i hi
  have htap : ∀ j, tapped j ⟨i, .connectionMade⟩ = none := fun j => by simp [tapped]
  -- Let in or refused, it starts with a fresh scrubber and has carried nothing.
  obtain ⟨p', f', heq, hbytes, hcapture, harchives⟩ :
      ∃ (p' : VNCLoggingServerProxy) (f' : VNCLoggingServerFactory),
        VNCLoggingServerProxy.connectionMade o s.factory = (p', f') ∧ p'.sawBytes = false ∧
        (∀ w, p'.capture = some w → w.scrubber = .init o.capturePreserveAuth) ∧
        f'.archives = s.factory.archives := by
    unfold VNCLoggingServerProxy.connectionMade VNCLoggingServerFactory.getRecorder
    split_ifs <;> exact ⟨_, _, rfl, rfl, by simp +contextual [eq_comm], rfl⟩
  have hstep : Proxies.step o s ⟨i, .connectionMade⟩ =
      ⟨f', Function.update s.clients i (some p')⟩ := by
    show (⟨(VNCLoggingServerProxy.connectionMade o s.factory).2, Function.update s.clients i
      (some (VNCLoggingServerProxy.connectionMade o s.factory).1)⟩ : Proxies) = _
    rw [heq]
  rw [hstep]
  refine ⟨?_, ?_, ?_, ?_⟩
  · intro j hj
    have hne : j ≠ i := by
      rintro rfl
      exact absurd ((Function.update_self ..).symm.trans hj) (by simp)
    intro e' he'
    rcases List.mem_append.mp he' with hpast | hlast
    · exact h.fresh j ((Function.update_of_ne hne _ _).symm.trans hj) e' hpast
    · rw [List.mem_singleton.mp hlast]
      exact hne.symm
  · intro j q hq hqrefused
    rcases client_cases hq with ⟨rfl, rfl⟩ | ⟨hj, hq'⟩
    · refine iff_of_false (by simp [hbytes]) ?_
      rintro ⟨data, -, hmem | hmem⟩
      · exact hfresh _ (by simpa using hmem) rfl
      · exact hfresh _ (by simpa using hmem) rfl
    · rw [carried_concat_of_ne hj.symm]
      exact h.bytes j q hq' hqrefused
  · intro j q w hq hqrefused hqthere hw
    rw [scrubber_concat_none (htap j), aborted_concat_none (htap j)]
    rcases client_cases hq with ⟨rfl, rfl⟩ | ⟨hj, hq'⟩
    · exact ⟨(hcapture w hw).trans (scrubber_fresh hfresh).symm, not_aborted_fresh hfresh⟩
    · exact h.capture j q w hq' hqrefused hqthere hw
  · intro a ha
    obtain ⟨⟨q, hq, hgone⟩, hpast⟩ := h.archives a (harchives ▸ ha)
    have hne : a.client ≠ i := by
      intro hsame
      exact absurd ((hsame ▸ hi).symm.trans hq) (by simp)
    rw [aborted_concat_none (htap _)]
    exact ⟨⟨q, (Function.update_of_ne hne _ _).trans hq, hgone⟩, hpast⟩

/-- What becomes of a capture that is fed. -/
theorem carry_capture {p : VNCLoggingServerProxy} {f : VNCLoggingServerFactory} (tap : Tap)
    (data : Bytes) :
    (∀ w', (p.carry f tap data).1.capture = some w' →
      ∃ w, p.capture = some w ∧ w'.scrubber = (w.scrubber.feed tap data).2 ∧
        w'.abortReason.isSome = false) ∧
      (p.carry f tap data).2.archives = f.archives := by
  have hfed : ∀ w : CaptureWriter, (w.feed tap data).scrubber = (w.scrubber.feed tap data).2 := by
    intro w
    unfold CaptureWriter.feed CaptureWriter.append
    cases tap <;> rfl
  unfold VNCLoggingServerProxy.carry VNCLoggingServerProxy.abortCapture
  dsimp only
  have hnoted : (if data ≠ [] then { p with sawBytes := true } else p).capture = p.capture := by
    split_ifs <;> rfl
  generalize (if data ≠ [] then { p with sawBytes := true } else p) = q at hnoted ⊢
  cases hq : q.capture with
  | none => exact ⟨fun w' hw' => absurd (hq.symm.trans hw') (by simp), rfl⟩
  | some w =>
    simp only
    split_ifs with habort
    · exact ⟨fun w' hw' => absurd hw' (by simp), rfl⟩
    · refine ⟨?_, rfl⟩
      rintro w' ⟨rfl⟩
      exact ⟨w, hnoted ▸ hq, hfed w, by simpa using habort⟩

/-- What becomes of a capture when its client goes. -/
theorem connectionLost_capture {p : VNCLoggingServerProxy} {f : VNCLoggingServerFactory} (i : ℕ)
    (writable : Bool) (hrefused : p.refused = false) :
    (p.connectionLost o f i writable).2.archives = f.archives ∨
      ∃ a w, (p.connectionLost o f i writable).2.archives = f.archives ++ [a] ∧ a.client = i ∧
        p.capture = some w := by
  have hclosed : ∀ g : VNCLoggingServerFactory,
      g.clientConnectionLost.archives = g.archives := by
    intro g
    unfold VNCLoggingServerFactory.clientConnectionLost
    split <;> rfl
  unfold VNCLoggingServerProxy.connectionLost VNCLoggingServerProxy.writeCapture
  rw [if_neg (by simp [hrefused])]
  cases hw : p.capture with
  | none =>
    refine Or.inl ?_
    split_ifs <;> simp only [hclosed]
  | some w =>
    split_ifs
    · exact Or.inr ⟨_, w, hclosed _, rfl, rfl⟩
    · exact Or.inr ⟨_, w, hclosed _, rfl, rfl⟩
    all_goals exact Or.inl (hclosed _)

theorem Recalls.step (h : Recalls o past s) (honeShot : o.oneShot = true)
    (hpossible : s.Possible e) (htook : ∀ i p, s.clients i = some p → p.refused = false →
      p.tookSession = true) :
    Recalls o (past ++ [e]) (Proxies.step o s e) := by
  obtain ⟨i, call⟩ := e
  have hupdate : ∀ p, s.clients i = some p → ∀ call,
      Proxies.step o s ⟨i, call⟩ = ⟨(perform o i p s.factory call).2,
        Function.update s.clients i (some (perform o i p s.factory call).1)⟩ := by
    intro p hp call
    unfold Proxies.step
    rw [hp, Option.getD_some]
  have hcarry : ∀ p tap data call, s.clients i = some p → p.lost = false →
      tapped i ⟨i, call⟩ = some (tap, data) →
      Recalls o (past ++ [⟨i, call⟩]) ⟨(p.carry s.factory tap data).2,
        Function.update s.clients i (some (p.carry s.factory tap data).1)⟩ := by
    intro p tap data call hp hthere htap
    obtain ⟨hrefused, -, -, hbytes, -⟩ :=
      VNCLoggingServerProxy.carry_claim (p := p) (f := s.factory) tap data
    obtain ⟨hcapture, harchives⟩ := carry_capture (p := p) (f := s.factory) tap data
    refine h.update (e := ⟨i, call⟩) hp hthere hrefused (fun _ => ?_) (fun _ _ w' hw' => ?_)
      (Or.inl harchives)
    · rw [hbytes]
      simp [htap]
    · obtain ⟨w, hw, heq, hno⟩ := hcapture w' hw'
      exact Or.inr ⟨tap, data, w, htap, hw, heq, hno⟩
  -- a call without bytes that leaves the capture as it is
  have hquiet : ∀ p p' call f', s.clients i = some p → p.lost = false →
      tapped i ⟨i, call⟩ = none → p'.refused = p.refused → p'.sawBytes = p.sawBytes →
      p'.capture = p.capture → f'.archives = s.factory.archives →
      Recalls o (past ++ [⟨i, call⟩]) ⟨f', Function.update s.clients i (some p')⟩ := by
    intro p p' call f' hp hthere htap hrefused hbytes hcapture harchives
    refine h.update (e := ⟨i, call⟩) hp hthere hrefused (fun _ => ?_) (fun _ _ w' hw' => ?_)
      (Or.inl harchives)
    · rw [hbytes]
      simp [htap]
    · exact Or.inl ⟨htap, hcapture ▸ hw'⟩
  have hrecord : ∀ (p : VNCLoggingServerProxy) line,
      (p.record s.factory line).archives = s.factory.archives := by
    intro p line
    unfold VNCLoggingServerProxy.record VNCLoggingServerFactory.write
    split <;> (try split_ifs) <;> rfl
  cases call with
  | connectionMade => exact h.connectionMade hpossible
  | dataReceived data =>
    obtain ⟨p, hp, hthere⟩ := hpossible
    rw [hupdate p hp]
    show Recalls o _ ⟨(p.dataReceived s.factory data).2,
      Function.update s.clients i (some (p.dataReceived s.factory data).1)⟩
    unfold VNCLoggingServerProxy.dataReceived
    cases hrefused : p.refused with
    | true =>
      rw [if_pos rfl]
      exact h.update (e := ⟨i, _⟩) hp hthere rfl
        (fun hfalse => absurd (hrefused.symm.trans hfalse) (by simp))
        (fun hfalse => absurd (hrefused.symm.trans hfalse) (by simp)) (Or.inl rfl)
    | false =>
      rw [if_neg (by simp)]
      exact hcarry p .c2s data _ hp hthere (by simp [tapped])
  | peerDataReceived data =>
    obtain ⟨p, hp, -, hthere⟩ := hpossible
    rw [hupdate p hp]
    exact hcarry p .s2c data _ hp hthere (by simp [tapped])
  | keyEvent elapsed key down =>
    obtain ⟨p, hp, -, hthere⟩ := hpossible
    rw [hupdate p hp]
    show Recalls o _ ⟨(p.handleKeyEvent s.factory elapsed key down).2,
      Function.update s.clients i (some (p.handleKeyEvent s.factory elapsed key down).1)⟩
    unfold VNCLoggingServerProxy.handleKeyEvent
    cases Recorder.keyLine elapsed key down with
    | none => exact hquiet p p _ _ hp hthere (by simp [tapped]) rfl rfl rfl rfl
    | some line =>
      exact hquiet p p _ _ hp hthere (by simp [tapped]) rfl rfl rfl (hrecord p line)
  | pointerEvent elapsed x y buttonmask =>
    obtain ⟨p, hp, -, hthere⟩ := hpossible
    rw [hupdate p hp]
    exact hquiet p { p with mouse := some (x, y) } _ _ hp hthere (by simp [tapped]) rfl rfl rfl
      (hrecord p _)
  | connectionLost writable =>
    obtain ⟨p, hp, hthere⟩ := hpossible
    have htap : tapped i ⟨i, .connectionLost writable⟩ = none := by simp [tapped]
    rw [hupdate p hp]
    show Recalls o _ ⟨(p.connectionLost o s.factory i writable).2,
      Function.update s.clients i (some (p.connectionLost o s.factory i writable).1)⟩
    cases hrefused : p.refused with
    | true =>
      unfold VNCLoggingServerProxy.connectionLost
      rw [if_pos hrefused]
      exact hquiet p _ _ _ hp hthere htap rfl rfl rfl rfl
    | false =>
      obtain ⟨hrefused', -, hgone, hbytes, -⟩ :=
        VNCLoggingServerProxy.connectionLost_claim (f := s.factory) i writable hrefused
          (htook i p hp hrefused) honeShot
      refine h.update (e := ⟨i, _⟩) hp hthere (hrefused'.trans hrefused.symm) (fun _ => ?_)
        (fun _ hfalse => absurd (hgone.symm.trans hfalse) (by simp)) ?_
      · rw [hbytes]
        simp [htap]
      · rcases connectionLost_capture (o := o) (f := s.factory) i writable hrefused with
          hsame | ⟨a, w, hmore, hclient, hw⟩
        · exact Or.inl hsame
        · exact Or.inr ⟨a, w, hmore, hclient, hrefused, hw, hgone, htap⟩

/-! ## One session -/

/-- The gate after calls. -/
def Gate.after (events : List ProxyEvent) : Gate := events.foldl Gate.next .unclaimed

/-- The factory follows the gate through every run. -/
theorem keeps_run (honeShot : o.oneShot = true) (h : Runs o events) :
    Keeps (run o events) (Gate.after events) ∧ Recalls o events (run o events) := by
  refine Machine.invariant (fun past s => Keeps s (Gate.after past) ∧ Recalls o past s)
    ⟨keeps_start, recalls_start⟩ (fun past s e hinv hpossible => ?_) h
  obtain ⟨hkeeps, hrecalls⟩ := hinv
  refine ⟨?_, hrecalls.step honeShot hpossible hkeeps.took⟩
  rw [Gate.after, List.foldl_append]
  exact hkeeps.step honeShot hpossible

/-- A client stays refused, or accepted. -/
theorem perform_refused {i : ℕ} {p : VNCLoggingServerProxy} {f : VNCLoggingServerFactory}
    {call : ProxyCall} (h : call ≠ .connectionMade) :
    (perform o i p f call).1.refused = p.refused := by
  cases call with
  | connectionMade => exact absurd rfl h
  | dataReceived data =>
    show (p.dataReceived f data).1.refused = p.refused
    unfold VNCLoggingServerProxy.dataReceived
    split_ifs
    · rfl
    · exact (VNCLoggingServerProxy.carry_claim .c2s data).1
  | peerDataReceived data => exact (VNCLoggingServerProxy.carry_claim .s2c data).1
  | keyEvent elapsed key down =>
    show (p.handleKeyEvent f elapsed key down).1.refused = p.refused
    unfold VNCLoggingServerProxy.handleKeyEvent
    split <;> rfl
  | pointerEvent elapsed x y buttonmask => rfl
  | connectionLost writable =>
    show (p.connectionLost o f i writable).1.refused = p.refused
    have hwrite : (p.writeCapture f i writable).1.refused = p.refused := by
      unfold VNCLoggingServerProxy.writeCapture
      split <;> (try split_ifs) <;> rfl
    unfold VNCLoggingServerProxy.connectionLost
    split_ifs
    · rfl
    · exact hwrite
    · exact hwrite
    · rfl
    · rfl

/-- A call of a client that is refused leaves the factory as it is. -/
theorem factory_of_refused (hpossible : s.Possible e)
    (h : ∃ p, (step o s e).clients e.client = some p ∧ p.refused = true) :
    (step o s e).factory = s.factory := by
  obtain ⟨i, call⟩ := e
  obtain ⟨p', hp', hrefused'⟩ := h
  change Function.update s.clients i
    (some (perform o i ((s.clients i).getD {}) s.factory call).1) i = some p' at hp'
  rw [Function.update_self, Option.some.injEq] at hp'
  rw [← hp'] at hrefused'
  show (perform o i ((s.clients i).getD {}) s.factory call).2 = s.factory
  by_cases hmade : call = .connectionMade
  · subst hmade
    change (VNCLoggingServerProxy.connectionMade o s.factory).1.refused = true at hrefused'
    show (VNCLoggingServerProxy.connectionMade o s.factory).2 = s.factory
    unfold VNCLoggingServerProxy.connectionMade at hrefused' ⊢
    split_ifs at hrefused' ⊢ with hbusy
    · rfl
  · rw [perform_refused hmade] at hrefused'
    -- every call but two is for clients that were accepted
    have hlive : ¬s.Live i := by
      rintro ⟨p, hp, hrefused, -⟩
      rw [hp, Option.getD_some] at hrefused'
      exact absurd (hrefused.symm.trans hrefused') (by simp)
    cases call with
    | connectionMade => exact absurd rfl hmade
    | dataReceived data =>
      show (((s.clients i).getD {}).dataReceived s.factory data).2 = s.factory
      rw [VNCLoggingServerProxy.dataReceived, if_pos hrefused']
    | connectionLost writable =>
      show (((s.clients i).getD {}).connectionLost o s.factory i writable).2 = s.factory
      rw [VNCLoggingServerProxy.connectionLost, if_pos hrefused']
    | peerDataReceived data => exact absurd hpossible hlive
    | keyEvent elapsed key down => exact absurd hpossible hlive
    | pointerEvent elapsed x y buttonmask => exact absurd hpossible hlive

/-- A client that was accepted remains so. -/
theorem accepted_run {i : ℕ} {more : List ProxyEvent} (h : Runs o (events ++ more))
    (haccepted : ∃ p, (run o events).clients i = some p ∧ p.refused = false) :
    ∃ p, (run o (events ++ more)).clients i = some p ∧ p.refused = false := by
  have hmore := (Machine.throughout_append.mp h).2
  have hrun := Machine.invariant
    (fun _ s => ∃ p, s.clients i = some p ∧ p.refused = false) haccepted
    (fun _ s e hold hpossible => ?_) hmore
  · rw [run, List.foldl_append]
    exact hrun
  · obtain ⟨p, hp, hrefused⟩ := hold
    obtain ⟨j, call⟩ := e
    by_cases hj : i = j
    · subst hj
      refine ⟨_, Function.update_self .., ?_⟩
      have hmade : call ≠ .connectionMade := by
        rintro rfl
        exact absurd ((hpossible : s.clients i = none).symm.trans hp) (by simp)
      rw [perform_refused hmade]
      show ((s.clients i).getD {}).refused = false
      rw [hp]
      exact hrefused
    · exact ⟨p, (Function.update_of_ne hj _ _).trans hp, hrefused⟩

/-- What holds after calls of clients in any order. -/
structure OneSession (o : ProxyOptions) (events : List ProxyEvent) : Prop where
  /-- No two clients are let in at a time. -/
  single : ∀ i j, (run o events).Live i → (run o events).Live j → i = j
  /-- No call of a client that is refused changes the factory. -/
  refused : ∀ e, (run o events).Possible e →
    (∃ p, (step o (run o events) e).clients e.client = some p ∧ p.refused = true) →
    (step o (run o events) e).factory = (run o events).factory
  /-- A session that carried a byte keeps the claim for good, -/
  taken : ∀ i p, (run o events).clients i = some p → p.refused = false → Carried events i →
    ∀ more, Runs o (events ++ more) → (run o (events ++ more)).factory.sessionTaken = true
  /-- and is finished once, when its client goes. -/
  finished : ∀ i p, (run o events).clients i = some p → p.refused = false → Carried events i →
    (run o events).factory.finished.count i = if p.lost then 1 else 0
  /-- One that carried none gives up the claim. -/
  released : ∀ i writable, (run o events).Live i → ¬Carried events i →
    (step o (run o events) ⟨i, .connectionLost writable⟩).factory.sessionTaken = false
  /-- Nothing is archived of a session whose scrubber gave up. -/
  archives : ∀ a ∈ (run o events).factory.archives, ¬Aborted o events a.client

/-- The factory admits one session, whatever the order of the calls of its clients. -/
theorem one_session (honeShot : o.oneShot = true) (h : Runs o events) : OneSession o events := by
  obtain ⟨hkeeps, hrecalls⟩ := keeps_run honeShot h
  refine ⟨?_, fun e hpossible hrefused => factory_of_refused hpossible hrefused, ?_, ?_, ?_, ?_⟩
  · rintro i j ⟨p, hp, hrefused, hthere⟩ ⟨q, hq, hqrefused, hqthere⟩
    have hsame := (hkeeps.live i p hp hrefused hthere).symm.trans
      (hkeeps.live j q hq hqrefused hqthere)
    rw [Gate.held.injEq] at hsame
    exact hsame.1
  · intro i p hp hrefused hcarried more hmore
    obtain ⟨hkeeps', hrecalls'⟩ := keeps_run honeShot hmore
    obtain ⟨q, hq, hqrefused⟩ := accepted_run hmore ⟨p, hp, hrefused⟩
    have hcarried' : Carried (events ++ more) i := by
      obtain ⟨data, hdata, hmem⟩ := hcarried
      exact ⟨data, hdata, hmem.imp (List.mem_append_left _) (List.mem_append_left _)⟩
    have hbytes := (hrecalls'.bytes i q hq hqrefused).mpr hcarried'
    refine hkeeps'.taken.mpr ?_
    cases hgone : q.lost with
    | false => rw [hkeeps'.live i q hq hqrefused hgone]; simp
    | true => rw [hkeeps'.carried i q hq hqrefused hgone hbytes]; simp
  · intro i p hp hrefused hcarried
    have hbytes := (hrecalls.bytes i p hp hrefused).mpr hcarried
    cases hgone : p.lost with
    | true => exact hkeeps.finished i p hp hrefused hgone hbytes
    | false =>
      refine hkeeps.unfinished i fun q hq _ hqgone => ?_
      obtain rfl := Option.some.inj (hp.symm.trans hq)
      exact absurd (hgone.symm.trans hqgone) (by simp)
  · rintro i writable ⟨p, hp, hrefused, hthere⟩ hcarried
    have hbytes : p.sawBytes = false := by
      by_contra hne
      exact hcarried ((hrecalls.bytes i p hp hrefused).mp (by simpa using hne))
    -- Were it let go without bytes, the gate would be unclaimed again.
    have hpossible : (run o events).Possible ⟨i, .connectionLost writable⟩ := ⟨p, hp, hthere⟩
    have hkeeps' := hkeeps.step honeShot hpossible
    have hnext : (Gate.after events).next ⟨i, .connectionLost writable⟩ = .unclaimed := by
      rw [hkeeps.live i p hp hrefused hthere, hbytes]
      exact if_pos rfl
    rw [hnext] at hkeeps'
    by_contra hne
    exact hkeeps'.taken.mp (by simpa using hne) rfl
  · exact fun a ha => (hrecalls.archives a ha).2

/-- A probe that comes and goes, and a session behind it. -/
theorem one_session_probe :
    OneSession { oneShot := true, capturing := true }
      [⟨0, .connectionMade⟩, ⟨1, .connectionMade⟩, ⟨0, .connectionLost true⟩, ⟨2, .connectionMade⟩,
        ⟨2, .dataReceived [1]⟩, ⟨2, .connectionLost true⟩] :=
  one_session rfl
    ⟨rfl, rfl, ⟨_, rfl, rfl⟩, rfl, ⟨_, rfl, rfl⟩, ⟨_, rfl, rfl⟩, trivial⟩

end Proxies

end VncDoTool
