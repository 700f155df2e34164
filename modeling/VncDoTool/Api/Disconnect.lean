import VncDoTool.Api.Bookkeeping

/-!
# Disconnecting the threaded proxy

`disconnect` puts `disconnector` on the Deferred of the factory, behind the calls, and waits for an
event that the loss of the connection sets.

* `ThreadedVNCClientProxy.TakesEffect`: the transport is told to close, or closed, and the event is
  set whenever the connection is down from then on.
* `ThreadedVNCClientProxy.Ready`: nothing is waited for, and a client is still there to be told.
* `ThreadedVNCClientProxy.takesEffect_iff`: a disconnect takes effect when it is processed, if and
  only if the proxy is ready for it.
-/

namespace VncDoTool

variable {V E : Type} {methods : Methods V E}

/-! ## Events -/

/-- The events that are set, or will be when the connection is lost, are those of some requests. -/
def Known (done : List ProxyRequest) (w : ProxyWorld V E) : Prop :=
  ∀ k ∈ w.events ++ w.onDisconnect, k ∈ disconnectsOf done

theorem Known.append {done more : List ProxyRequest} {w : ProxyWorld V E} (h : Known done w) :
    Known (done ++ more) w := by
  intro k hk
  rw [disconnectsOf_append]
  exact List.mem_append_left _ (h k hk)

/-- The event of a disconnect is set, or will be. -/
theorem known_snoc {done : List ProxyRequest} {w w' : ProxyWorld V E} {index : ℕ} (h : Known done w)
    (hevents : ∀ k ∈ w'.events ++ w'.onDisconnect, k ∈ w.events ++ w.onDisconnect ∨ k = index) :
    Known (done ++ [.disconnect index]) w' := by
  intro k hk
  rw [disconnectsOf_append]
  rcases hevents k hk with hold | rfl
  · exact List.mem_append_left _ (h k hold)
  · exact List.mem_append_right _ List.mem_cons_self

/-- `disconnector` without a client. -/
theorem handle_disconnect_none {w : ProxyWorld V E} {reply : ProxyReply V E} {k : ℕ}
    (h : w.protocol = none) :
    ProxyWorld.handle methods w reply (.disconnect k) =
      ({ w with events := w.events ++ [k] }, .inl ⟨.ok methods.nothing, none⟩) := by
  rcases w
  cases h
  rfl

/-- `disconnector` with the client of the connection. -/
theorem handle_disconnect_some {w : ProxyWorld V E} {reply : ProxyReply V E} {k : ℕ} {protocol : V}
    (h : w.protocol = some protocol) :
    ProxyWorld.handle methods w reply (.disconnect k) =
      ({ w with
          onDisconnect := w.onDisconnect ++ [k]
          told := true },
        .inl ⟨.ok methods.nothing, none⟩) := by
  rcases w
  cases h
  rfl

/-- A callback knows of no other event than its own. -/
theorem runs_known (methods : Methods V E) :
    Deferred.Runs (ProxyWorld.handle methods) (fun done w _ => Known done w)
      (fun done w _ => Known done w) := by
  intro done w reply request h
  -- A callback of a call sets no event and registers none.
  have hsame {w' : ProxyWorld V E} (hevents : w'.events = w.events)
      (hcallbacks : w'.onDisconnect = w.onDisconnect) : Known (done ++ [request]) w' := by
    intro k hk
    rw [hevents, hcallbacks] at hk
    exact h.append k hk
  cases request with
  | captureProtocol =>
    unfold ProxyWorld.handle
    cases hresult : reply.result with
    | ok protocol =>
      refine ⟨fun s' result' hrun => ?_, fun s' on hrun => by cases hrun⟩
      cases hrun
      exact hsame rfl rfl
    | error e =>
      refine ⟨fun s' result' hrun => ?_, fun s' on hrun => by cases hrun⟩
      cases hrun
      exact hsame rfl rfl
  | call index =>
    unfold ProxyWorld.handle
    cases hresult : reply.result with
    | error e =>
      refine ⟨fun s' result' hrun => ?_, fun s' on hrun => by cases hrun⟩
      cases hrun
      exact hsame rfl rfl
    | ok protocol =>
      dsimp only
      by_cases hlater : methods.later index protocol = true
      · rw [if_pos hlater]
        refine ⟨fun s' result' hrun => (by cases hrun), fun s' on hrun => ?_⟩
        cases hrun
        exact hsame rfl rfl
      · rw [if_neg hlater]
        refine ⟨fun s' result' hrun => ?_, fun s' on hrun => by cases hrun⟩
        cases hrun
        exact hsame rfl rfl
  -- Without a protocol the event is set at once, with one it is left to the loss of the connection.
  | disconnect index =>
    cases hprotocol : w.protocol with
    | none =>
      rw [handle_disconnect_none hprotocol]
      refine ⟨fun s' result' hrun => ?_, fun s' on hrun => by cases hrun⟩
      cases hrun
      refine known_snoc h fun k hk => ?_
      simp only [List.mem_append, List.mem_singleton] at hk ⊢
      tauto
    | some protocol =>
      rw [handle_disconnect_some hprotocol]
      refine ⟨fun s' result' hrun => ?_, fun s' on hrun => by cases hrun⟩
      cases hrun
      refine known_snoc h fun k hk => ?_
      simp only [List.mem_append, List.mem_singleton] at hk ⊢
      tauto

namespace ThreadedVNCClientProxy

/-- What is known of the events of a proxy. -/
def EventsKnown (p : ThreadedVNCClientProxy V E) : Prop :=
  p.deferred.Follows (Known []) (fun done w _ => Known done w) (fun done w _ => Known done w)
    p.given p.world

variable {p : ThreadedVNCClientProxy V E}

/-- What changes neither the events nor the callbacks that set them. -/
theorem EventsKnown.world {w : ProxyWorld V E} (h : EventsKnown p)
    (hsame : ∀ k ∈ w.events ++ w.onDisconnect, k ∈ p.world.events ++ p.world.onDisconnect) :
    EventsKnown { p with world := w } :=
  Deferred.Follows.imp h (fun hknown k hk => hknown k (hsame k hk))
    (fun _ _ hknown k hk => hknown k (hsame k hk)) (fun _ _ hknown k hk => hknown k (hsame k hk))

theorem EventsKnown.fire (h : EventsKnown p) (result : Except E V) :
    EventsKnown (p.fire methods result) :=
  Deferred.follows_fire (runs_known methods) (fun hstart => hstart) h

/-- What an act keeps. -/
theorem EventsKnown.next (h : EventsKnown p) {act : Act E} (hcan : p.Can act) :
    EventsKnown (p.next methods act) := by
  cases act with
  | call => exact h
  | disconnect => exact h
  | wake => exact h
  | take =>
    obtain ⟨⟨i, hi⟩, hqueue⟩ := hcan
    cases hcase : p.world.queue with
    | nil => exact absurd hcase hqueue
    | cons answer queue =>
      unfold ThreadedVNCClientProxy.next
      simp only [hcase, answers_report _ hi]
      exact h.world fun k hk => hk
  | timeOut =>
    obtain ⟨⟨i, hi⟩, -⟩ := hcan
    unfold ThreadedVNCClientProxy.next
    rw [answers_report _ hi]
    exact h
  | process =>
    unfold ThreadedVNCClientProxy.next
    cases hinbox : p.inbox with
    | nil => exact absurd hinbox hcan
    | cons request rest => exact Deferred.follows_add (runs_known methods) h
  | complete =>
    obtain ⟨⟨index, protocol⟩, callbacks, hpaused⟩ := hcan
    unfold ThreadedVNCClientProxy.next
    simp only [hpaused]
    have hfollows := h
    unfold EventsKnown at hfollows
    rw [hpaused] at hfollows
    exact Deferred.follows_resume (runs_known methods)
      (fun done (hknown : Known done p.world) => hknown) hfollows
  | opened => exact h.world fun k hk => hk
  | made => exact h.fire _
  | failed reason =>
    have hlink : EventsKnown
        { p with
          world :=
            { p.world with
              link := if p.world.link = .connecting then .down else p.world.link } } :=
      h.world fun k hk => hk
    exact hlink.fire (.error reason)
  | closes => exact h.world fun k hk => hk
  -- The events that waited for the loss are set, so none is new.
  | lost =>
    refine h.world fun k hk => ?_
    show k ∈ p.world.events ++ p.world.onDisconnect
    rwa [show p.world.lose.onDisconnect = [] from rfl, List.append_nil] at hk

/-- The event of a disconnect that was not processed is new. -/
theorem fresh_runs {acts : List (Act E)} (h : Possible methods acts) {k : ℕ} {rest : List ProxyRequest}
    (hinbox : (runs methods acts).inbox = .disconnect k :: rest) :
    k ∉ (runs methods acts).world.events ++ (runs methods acts).world.onDisconnect := by
  have hknown : EventsKnown (runs methods acts) := by
    refine Machine.invariant (fun _ p => EventsKnown p) ⟨rfl, ?_⟩
      (fun _ p act hp hcan => hp.next hcan) h
    intro k hk
    cases hk
  -- Disconnects are numbered in order: the one at hand is none of those given to the Deferred.
  have hnumbers := disconnects_runs h
  rw [hinbox, disconnectsOf_append] at hnumbers
  have hnew : k ∉ disconnectsOf (runs methods acts).given := by
    have hnodup := List.nodup_range (n := (runs methods acts).disconnects)
    rw [← hnumbers] at hnodup
    intro hmem
    exact (List.nodup_append.mp hnodup).2.2 k hmem k List.mem_cons_self rfl
  have hdone {done rest : List ProxyRequest} (hgiven : (runs methods acts).given = done ++ rest)
      (hdone : Known done (runs methods acts).world) :
      k ∉ (runs methods acts).world.events ++ (runs methods acts).world.onDisconnect := by
    intro hk
    have hmem := hdone k hk
    rw [hgiven, disconnectsOf_append] at hnew
    exact hnew (List.mem_append_left _ hmem)
  unfold EventsKnown at hknown
  cases hdeferred : (runs methods acts).deferred with
  | unfired callbacks =>
    rw [hdeferred] at hknown
    exact hdone (List.nil_append _).symm hknown.2
  | idle result =>
    rw [hdeferred] at hknown
    exact hdone (List.append_nil _).symm hknown
  | paused on callbacks =>
    rw [hdeferred] at hknown
    obtain ⟨done, hgiven, hheld⟩ := hknown
    exact hdone hgiven hheld

/-! ## Whether a disconnect takes effect -/

/-- The event of a disconnect is set whenever the connection is down, in whatever follows. -/
def Signals (methods : Methods V E) (p : ThreadedVNCClientProxy V E) (k : ℕ) : Prop :=
  ∀ more, Machine.Throughout (next methods) Can p more →
    (more.foldl (next methods) p).world.link = .down →
      k ∈ (more.foldl (next methods) p).world.events

/-- A disconnect has taken effect: the transport was told to close or is closed, and its event is set
whenever the connection is down. -/
def TakesEffect (methods : Methods V E) (p : ThreadedVNCClientProxy V E) (k : ℕ) : Prop :=
  (p.world.told = true ∨ p.world.link = .down) ∧ Signals methods p k

/-- The Deferred has a result and waits for nothing, and the connection of its client is not lost;
or there is no client, and the transport was told to close or is closed. -/
def Ready (p : ThreadedVNCClientProxy V E) : Prop :=
  (∃ result, p.deferred = .idle result) ∧
    (p.world.protocol ≠ none → p.world.link ≠ .down) ∧
    (p.world.protocol = none → p.world.told = true ∨ p.world.link = .down)

/-- The event is set, or its callback waits for the loss of the connection. -/
def Armed (k : ℕ) (w : ProxyWorld V E) : Prop :=
  k ∈ w.events ∨ k ∈ w.onDisconnect ∧ w.link ≠ .down

/-- A callback leaves an event armed. -/
theorem Armed.handle {k : ℕ} {w : ProxyWorld V E} (h : Armed k w) (reply : ProxyReply V E)
    (request : ProxyRequest) : Armed k (ProxyWorld.handle methods w reply request).1 := by
  unfold ProxyWorld.handle
  cases request with
  | captureProtocol =>
    cases reply.result with
    | ok protocol => exact h
    | error e => exact h
  | call index =>
    cases reply.result with
    | error e => exact h
    | ok protocol =>
      dsimp only
      by_cases hlater : methods.later index protocol = true
      · rw [if_pos hlater]
        exact h
      · rw [if_neg hlater]
        exact h
  | disconnect index =>
    cases w.protocol with
    | none => exact h.imp (fun hset => List.mem_append_left _ hset) (fun hwaits => hwaits)
    | some protocol =>
      exact h.imp (fun hset => hset) (fun hwaits => ⟨List.mem_append_left _ hwaits.1, hwaits.2⟩)

theorem Armed.run {k : ℕ} {callbacks : List ProxyRequest} {w : ProxyWorld V E} {reply : ProxyReply V E}
    (h : Armed k w) :
    Armed k (Deferred.run (ProxyWorld.handle methods) w reply callbacks).1 ∧
      (Deferred.run (ProxyWorld.handle methods) w reply callbacks).2.Fired := by
  induction callbacks generalizing w reply with
  | nil => exact ⟨h, trivial⟩
  | cons request callbacks ih =>
    have hnext : Armed k (ProxyWorld.handle methods w reply request).1 := h.handle reply request
    unfold Deferred.run
    cases hcase : ProxyWorld.handle methods w reply request with
    | mk w' result =>
      rw [hcase] at hnext
      cases result with
      | inl reply' => exact ih hnext
      | inr on => exact ⟨hnext, trivial⟩

/-- An event of a proxy that was fired stays armed. -/
theorem armed_next {k : ℕ} {act : Act E} (h : Armed k p.world ∧ p.deferred.Fired)
    (hcan : p.Can act) :
    Armed k (p.next methods act).world ∧ (p.next methods act).deferred.Fired := by
  obtain ⟨harmed, hfired⟩ := h
  cases act with
  | call => exact ⟨harmed, hfired⟩
  | disconnect => exact ⟨harmed, hfired⟩
  | wake => exact ⟨harmed, hfired⟩
  | take =>
    obtain ⟨⟨i, hi⟩, hqueue⟩ := hcan
    cases hcase : p.world.queue with
    | nil => exact absurd hcase hqueue
    | cons answer queue =>
      unfold ThreadedVNCClientProxy.next
      simp only [hcase, answers_report _ hi]
      exact ⟨harmed, hfired⟩
  | timeOut =>
    obtain ⟨⟨i, hi⟩, -⟩ := hcan
    unfold ThreadedVNCClientProxy.next
    rw [answers_report _ hi]
    exact ⟨harmed, hfired⟩
  | process =>
    unfold ThreadedVNCClientProxy.next
    cases hinbox : p.inbox with
    | nil => exact absurd hinbox hcan
    | cons request rest =>
      unfold give
      cases hdeferred : p.deferred with
      | unfired callbacks =>
        rw [hdeferred] at hfired
        exact hfired.elim
      | idle result => exact harmed.run
      | paused on callbacks => exact ⟨harmed, trivial⟩
  | complete =>
    obtain ⟨⟨index, protocol⟩, callbacks, hpaused⟩ := hcan
    unfold ThreadedVNCClientProxy.next
    simp only [hpaused]
    refine Armed.run ?_
    exact harmed
  | opened =>
    refine ⟨harmed.imp (fun hset => hset) fun hwaits => ⟨hwaits.1, ?_⟩, hfired⟩
    show Link.up ≠ .down
    decide
  -- A Deferred that has fired is not fired again.
  | made => exact absurd hfired hcan.2
  | failed reason => exact absurd hfired hcan
  | closes => exact ⟨harmed, hfired⟩
  -- The loss sets every event that waits for it.
  | lost =>
    refine ⟨.inl ?_, hfired⟩
    show k ∈ p.world.events ++ p.world.onDisconnect
    rcases harmed with hset | ⟨hwaits, -⟩
    · exact List.mem_append_left _ hset
    · exact List.mem_append_right _ hwaits

/-- An armed event is set once the connection is down. -/
theorem signals_of_armed {k : ℕ} (h : Armed k p.world) (hfired : p.deferred.Fired) :
    Signals methods p k := by
  intro more hmore hdown
  have harmed := Machine.invariant (fun _ p => Armed k p.world ∧ p.deferred.Fired) ⟨h, hfired⟩
    (fun _ p act hp hcan => armed_next hp hcan) hmore
  rcases harmed.1 with hset | ⟨-, hup⟩
  · exact hset
  · exact absurd hdown hup

/-- The connection may be lost at once, and that sets no other event than those it is to set. -/
theorem not_signals {k : ℕ} (hevents : k ∉ p.world.events)
    (hwaits : p.world.link = .down ∨ k ∉ p.world.onDisconnect) : ¬Signals methods p k := by
  intro hsignals
  have hlost (honly : k ∉ p.world.onDisconnect) : k ∉ p.world.events ++ p.world.onDisconnect :=
    fun hk => (List.mem_append.mp hk).elim hevents honly
  cases hlink : p.world.link with
  | down => exact hevents (hsignals [] trivial hlink)
  | up =>
    have honly := hwaits.resolve_left (by rw [hlink]; decide)
    exact hlost honly (hsignals [.lost] ⟨hlink, trivial⟩ rfl)
  | connecting =>
    have honly := hwaits.resolve_left (by rw [hlink]; decide)
    exact hlost honly (hsignals [.opened, .lost] ⟨hlink, rfl, trivial⟩ rfl)

/-- A disconnect takes effect when the reactor has processed it, if and only if the proxy was ready
for it. -/
theorem takesEffect_iff {acts : List (Act E)} (hpossible : Possible methods acts) {k : ℕ}
    {rest : List ProxyRequest} (hinbox : (runs methods acts).inbox = .disconnect k :: rest) :
    TakesEffect methods ((runs methods acts).next methods .process) k ↔ Ready (runs methods acts) := by
  have hfresh := fresh_runs hpossible hinbox
  generalize runs methods acts = p at hinbox hfresh
  have hevents : k ∉ p.world.events := fun hk => hfresh (List.mem_append_left _ hk)
  have hwaits : k ∉ p.world.onDisconnect := fun hk => hfresh (List.mem_append_right _ hk)
  have hprocess : p.next methods .process = p.give methods (.disconnect k) rest := by
    unfold ThreadedVNCClientProxy.next
    rw [hinbox]
  rw [hprocess]
  unfold give
  cases hdeferred : p.deferred with
  | unfired callbacks =>
    constructor
    · rintro ⟨-, hsignals⟩
      refine absurd hsignals (not_signals ?_ (.inr ?_))
      · exact hevents
      · exact hwaits
    · rintro ⟨⟨result, hidle⟩, -⟩
      rw [hdeferred] at hidle
      cases hidle
  | paused on callbacks =>
    constructor
    · rintro ⟨-, hsignals⟩
      refine absurd hsignals (not_signals ?_ (.inr ?_))
      · exact hevents
      · exact hwaits
    · rintro ⟨⟨result, hidle⟩, -⟩
      rw [hdeferred] at hidle
      cases hidle
  | idle reply =>
    cases hprotocol : p.world.protocol with
    | none =>
      have hadd : (Deferred.idle reply).add (ProxyWorld.handle methods) p.world (.disconnect k) =
          ({ p.world with events := p.world.events ++ [k] },
            .idle ⟨.ok methods.nothing, none⟩) :=
        Deferred.add_idle (handle_disconnect_none hprotocol)
      rw [hadd]
      constructor
      · rintro ⟨htold, -⟩
        exact ⟨⟨reply, hdeferred⟩, fun hsome => absurd hprotocol hsome, fun _ => htold⟩
      · rintro ⟨-, -, htold⟩
        exact ⟨htold hprotocol,
          signals_of_armed (.inl (List.mem_append_right _ List.mem_cons_self)) trivial⟩
    | some protocol =>
      have hadd : (Deferred.idle reply).add (ProxyWorld.handle methods) p.world (.disconnect k) =
          ({ p.world with
              onDisconnect := p.world.onDisconnect ++ [k]
              told := true },
            .idle ⟨.ok methods.nothing, none⟩) :=
        Deferred.add_idle (handle_disconnect_some hprotocol)
      rw [hadd]
      constructor
      · rintro ⟨-, hsignals⟩
        refine ⟨⟨reply, hdeferred⟩, fun _ hdown => ?_, fun hnone => ?_⟩
        · -- its callback comes too late
          refine absurd hsignals (not_signals ?_ (.inl hdown))
          exact hevents
        · rw [hprotocol] at hnone
          cases hnone
      · rintro ⟨-, hup, -⟩
        have hlink := hup (by rw [hprotocol]; exact Option.some_ne_none _)
        exact ⟨.inl rfl,
          signals_of_armed (.inr ⟨List.mem_append_right _ List.mem_cons_self, hlink⟩) trivial⟩

/-- Methods that give back the client, after a while. -/
def pendingMethods : Methods Bool Unit where
  client := true
  nothing := false
  outcome _ _ := .ok true
  later _ _ := true

/-- A disconnect behind a call that has timed out and is still waited for does not tell the transport
to close. -/
theorem not_takesEffect_pending : ∃ acts rest, Possible pendingMethods acts ∧
    (runs pendingMethods acts).inbox = .disconnect 0 :: rest ∧
    ¬TakesEffect pendingMethods ((runs pendingMethods acts).next pendingMethods .process) 0 := by
  refine ⟨[.opened, .made, .call, .process, .timeOut, .disconnect], [], ?_, rfl, ?_⟩
  · exact ⟨rfl, ⟨rfl, id⟩, rfl, List.cons_ne_nil _ _, ⟨⟨0, rfl⟩, rfl⟩, rfl, trivial⟩
  · rintro ⟨htold, -⟩
    exact absurd htold (by decide)

/-- A disconnect from a client that is connected and idle. -/
theorem takesEffect_connected :
    TakesEffect pendingMethods
        ((runs pendingMethods [.opened, .made, .disconnect]).next pendingMethods .process) 0 ↔
      Ready (runs pendingMethods [.opened, .made, .disconnect]) := by
  have hpossible : Possible pendingMethods [.opened, .made, .disconnect] :=
    ⟨rfl, ⟨rfl, id⟩, rfl, trivial⟩
  exact takesEffect_iff hpossible rfl

end ThreadedVNCClientProxy

end VncDoTool
