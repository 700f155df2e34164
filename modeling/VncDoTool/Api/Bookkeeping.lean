import VncDoTool.Api.Requests

/-!
# Bookkeeping of the threaded proxy

A proxy is where its requests have brought it, whatever the order of what happens.

* `Accounts`, `Idle`, `Held`: what is known of the state once requests have run, and while the last
  of them is waited for; `runs_handle`: what its callbacks make of that.
* `ThreadedVNCClientProxy.Bookkept`: what is known of a proxy; `ThreadedVNCClientProxy.bookkept_runs`.
* `ThreadedVNCClientProxy.Bookkept.answer`: how an answer that a call has taken was made.
-/

namespace VncDoTool

variable {V E : Type}

/-- The answers a world has put are those of some requests, and what was not taken of them is on the
queue. -/
structure Accounts (methods : Methods V E) (reply : ProxyReply V E) (taken : List (ProxyAnswer V E))
    (answered ran : List ProxyRequest) (w : ProxyWorld V E) : Prop where
  answers : w.answers = answersOf methods reply answered
  ran : w.ran = ransOf methods reply ran
  queued : w.answers = taken ++ w.queue

/-- Requests have run and left a result. -/
def Idle (methods : Methods V E) (reply : ProxyReply V E) (taken : List (ProxyAnswer V E))
    (done : List ProxyRequest) (w : ProxyWorld V E) (result : ProxyReply V E) : Prop :=
  Accounts methods reply taken done done w ∧ result = standing methods reply done

/-- The last of some requests is a call whose method has run and is waited for. -/
def Held (methods : Methods V E) (reply : ProxyReply V E) (taken : List (ProxyAnswer V E))
    (done : List ProxyRequest) (w : ProxyWorld V E) (on : ℕ × V) : Prop :=
  ∃ before, done = before ++ [.call on.1] ∧ (standing methods reply before).result = .ok on.2 ∧
    Accounts methods reply taken before done w

variable {methods : Methods V E} {reply : ProxyReply V E} {taken : List (ProxyAnswer V E)}

/-- The answer to a call that has come to its result. -/
theorem idle_of_held {done : List ProxyRequest} {w : ProxyWorld V E} {on : ℕ × V}
    (h : Held methods reply taken done w on) :
    Idle methods reply taken done (w.put ⟨on.1, ⟨methods.outcome on.1 on.2, some on.1⟩⟩)
      ⟨methods.outcome on.1 on.2, some on.1⟩ := by
  obtain ⟨before, rfl, hvalue, haccounts⟩ := h
  have hsettle : settle methods (standing methods reply before) (.call on.1) =
      ⟨methods.outcome on.1 on.2, some on.1⟩ := by
    unfold settle
    rw [hvalue]
  refine ⟨⟨?_, haccounts.ran, ?_⟩, ?_⟩
  · rw [answersOf_append]
    show w.answers ++ _ = _
    rw [haccounts.answers]
    exact congrArg (fun r => answersOf methods reply before ++ [⟨on.1, r⟩]) hsettle.symm
  · show w.answers ++ _ = taken ++ (w.queue ++ _)
    rw [haccounts.queued, List.append_assoc]
  · rw [standing_append]
    exact hsettle.symm

/-- A request that puts nothing and runs nothing. -/
theorem idle_snoc {done : List ProxyRequest} {request : ProxyRequest} {w w' : ProxyWorld V E}
    (h : Accounts methods reply taken done done w)
    (hanswers : answersOf methods (standing methods reply done) [request] = [])
    (hran : ransOf methods (standing methods reply done) [request] = [])
    (hsame : w'.answers = w.answers ∧ w'.ran = w.ran ∧ w'.queue = w.queue) :
    Idle methods reply taken (done ++ [request]) w'
      (settle methods (standing methods reply done) request) := by
  obtain ⟨hw, hw', hqueue⟩ := hsame
  refine ⟨⟨?_, ?_, ?_⟩, by rw [standing_append]; rfl⟩
  · rw [hw, h.answers, answersOf_append, hanswers, List.append_nil]
  · rw [hw', h.ran, ransOf_append, hran, List.append_nil]
  · rw [hw, hqueue, h.queued]

/-- What the callbacks of the proxy make known. -/
theorem runs_handle (methods : Methods V E) (reply : ProxyReply V E) (taken : List (ProxyAnswer V E)) :
    Deferred.Runs (ProxyWorld.handle methods) (Idle methods reply taken)
      (Held methods reply taken) := by
  rintro done w result request ⟨haccounts, rfl⟩
  cases request with
  | captureProtocol =>
    have hidle {w' : ProxyWorld V E}
        (hsame : w'.answers = w.answers ∧ w'.ran = w.ran ∧ w'.queue = w.queue) :
        Idle methods reply taken (done ++ [.captureProtocol]) w' (standing methods reply done) :=
      idle_snoc haccounts rfl rfl hsame
    unfold ProxyWorld.handle
    cases hresult : (standing methods reply done).result with
    | ok protocol =>
      dsimp only
      refine ⟨fun s' result' h => ?_, fun s' on h => by cases h⟩
      cases h
      exact hidle ⟨rfl, rfl, rfl⟩
    | error e =>
      dsimp only
      refine ⟨fun s' result' h => ?_, fun s' on h => by cases h⟩
      cases h
      exact hidle ⟨rfl, rfl, rfl⟩
  | disconnect index =>
    have hidle {w' : ProxyWorld V E}
        (hsame : w'.answers = w.answers ∧ w'.ran = w.ran ∧ w'.queue = w.queue) :
        Idle methods reply taken (done ++ [.disconnect index]) w' ⟨.ok methods.nothing, none⟩ :=
      idle_snoc haccounts rfl rfl hsame
    unfold ProxyWorld.handle
    cases hprotocol : w.protocol with
    | none =>
      dsimp only
      refine ⟨fun s' result' h => ?_, fun s' on h => by cases h⟩
      cases h
      exact hidle ⟨rfl, rfl, rfl⟩
    | some protocol =>
      dsimp only
      refine ⟨fun s' result' h => ?_, fun s' on h => by cases h⟩
      cases h
      exact hidle ⟨rfl, rfl, rfl⟩
  | call index =>
    cases hresult : (standing methods reply done).result with
    | ok protocol =>
      have hran : ransOf methods reply (done ++ [.call index]) =
          ransOf methods reply done ++ [(index, protocol)] := by
        rw [ransOf_append]
        unfold ransOf
        rw [hresult]
        rfl
      -- a call that is held is as good as one that has come to its result
      have hheld : Held methods reply taken (done ++ [.call index])
          { w with ran := w.ran ++ [(index, protocol)] } (index, protocol) := by
        refine ⟨done, rfl, hresult, haccounts.answers, ?_, haccounts.queued⟩
        rw [hran, ← haccounts.ran]
      unfold ProxyWorld.handle
      simp only [hresult]
      by_cases hlater : methods.later index protocol = true
      · rw [if_pos hlater]
        refine ⟨fun s' result' h => (by cases h), fun s' on h => ?_⟩
        cases h
        exact hheld
      · rw [if_neg hlater]
        refine ⟨fun s' result' h => ?_, fun s' on h => by cases h⟩
        cases h
        exact idle_of_held hheld
    | error e =>
      have hsettle : settle methods (standing methods reply done) (.call index) =
          standing methods reply done := by
        unfold settle
        rw [hresult]
      have hran : ransOf methods (standing methods reply done) [.call index] = [] := by
        unfold ransOf
        rw [hresult]
        rfl
      unfold ProxyWorld.handle
      simp only [hresult]
      refine ⟨fun s' result' h => ?_, fun s' on h => by cases h⟩
      cases h
      refine ⟨⟨?_, ?_, ?_⟩, ?_⟩
      · rw [answersOf_append]
        show w.answers ++ _ = _
        rw [haccounts.answers]
        exact congrArg (fun r => answersOf methods reply done ++ [⟨index, r⟩]) hsettle.symm
      · rw [ransOf_append, hran, List.append_nil]
        exact haccounts.ran
      · show w.answers ++ _ = taken ++ (w.queue ++ _)
        rw [haccounts.queued, List.append_assoc]
      · rw [standing_append]
        exact hsettle.symm

/-- The call the application thread waits in. -/
def Caller.pending : Caller → List ℕ
  | .awaiting i => [i]
  | _ => []

namespace ThreadedVNCClientProxy

/-- The answers the calls have taken. -/
def answersTaken (reports : List (Report V E)) : List (ProxyAnswer V E) := reports.filterMap (·.answer)

/-- The calls that are over. -/
def callsReported (reports : List (Report V E)) : List ℕ := reports.map (·.call)

theorem answersTaken_append {before after : List (Report V E)} :
    answersTaken (before ++ after) = answersTaken before ++ answersTaken after := List.filterMap_append

theorem callsReported_append {before after : List (Report V E)} :
    callsReported (before ++ after) = callsReported before ++ callsReported after := List.map_append

/-- A proxy is where its requests have brought it. -/
structure Bookkept (methods : Methods V E) (p : ThreadedVNCClientProxy V E) : Prop where
  unfired : p.connection = none →
    p.deferred = .unfired p.given ∧ p.world.answers = [] ∧ p.world.ran = [] ∧ p.world.queue = [] ∧
      answersTaken p.reports = []
  fired : ∀ first, p.connection = some first →
    p.deferred.Follows (fun _ => False) (Idle methods ⟨first, none⟩ (answersTaken p.reports))
      (Held methods ⟨first, none⟩ (answersTaken p.reports)) p.given p.world
  asked : callsOf (p.given ++ p.inbox) = List.range p.calls
  reported : callsReported p.reports ++ p.caller.pending = List.range p.calls


variable {p : ThreadedVNCClientProxy V E}

/-- The answers that were reported. -/
theorem answers_report {i : ℕ} (answer : Option (ProxyAnswer V E)) (h : p.caller = .awaiting i) :
    p.report answer =
      { p with
        caller := .free
        reports := p.reports ++ [⟨i, answer⟩] } := by
  unfold report
  rw [h]

/-- What happens to the connection is no answer. -/
theorem Bookkept.world {w : ProxyWorld V E} (h : Bookkept methods p)
    (hanswers : w.answers = p.world.answers) (hran : w.ran = p.world.ran)
    (hqueue : w.queue = p.world.queue) : Bookkept methods { p with world := w } where
  unfired hnone := by
    obtain ⟨hdeferred, hrest⟩ := h.unfired hnone
    rw [← hanswers, ← hran, ← hqueue] at hrest
    exact ⟨hdeferred, hrest⟩
  fired first hfirst := by
    have haccounts {taken : List (ProxyAnswer V E)} {reply : ProxyReply V E}
        {answered ran : List ProxyRequest}
        (ha : Accounts methods reply taken answered ran p.world) :
        Accounts methods reply taken answered ran w :=
      ⟨hanswers.trans ha.answers, hran.trans ha.ran, by rw [hanswers, hqueue, ha.queued]⟩
    refine (h.fired first hfirst).imp (fun hfalse => hfalse) ?_ ?_
    · rintro done result ⟨ha, hresult⟩
      exact ⟨haccounts ha, hresult⟩
    · rintro done on ⟨before, hdone, hvalue, ha⟩
      exact ⟨before, hdone, hvalue, haccounts ha⟩
  asked := h.asked
  reported := h.reported

/-- The Deferred is fired, once. -/
theorem Bookkept.fire (h : Bookkept methods p) (result : Except E V)
    (hunfired : ¬p.deferred.Fired) : Bookkept methods (p.fire methods result) where
  unfired hnone := by cases hnone
  fired first hfirst := by
    cases hfirst
    have hnone : p.connection = none := by
      cases hconnection : p.connection with
      | none => rfl
      | some first =>
        have hfollows := h.fired first hconnection
        cases hdeferred : p.deferred with
        | unfired callbacks =>
          rw [hdeferred] at hfollows
          exact hfollows.2.elim
        | idle r =>
          rw [hdeferred] at hunfired
          exact (hunfired trivial).elim
        | paused on callbacks =>
          rw [hdeferred] at hunfired
          exact (hunfired trivial).elim
    obtain ⟨hdeferred, hanswers, hran, hqueue, htaken⟩ := h.unfired hnone
    have hidle : Idle methods ⟨result, none⟩ (answersTaken p.reports) [] p.world
        ⟨result, none⟩ :=
      ⟨⟨hanswers, hran, by rw [hanswers, htaken, hqueue]; rfl⟩, rfl⟩
    have hrun : Deferred.Follows (fun _ => False) (Idle methods ⟨result, none⟩ _) (Held methods _ _)
        ([] ++ p.given) _ _ :=
      Deferred.follows_run (runs_handle methods ⟨result, none⟩ (answersTaken p.reports)) hidle
    unfold ThreadedVNCClientProxy.fire
    rw [hdeferred]
    exact hrun
  asked := h.asked
  reported := h.reported

/-- What an act keeps. -/
theorem Bookkept.next (h : Bookkept methods p) {act : Act E} (hcan : p.Can act) :
    Bookkept methods (p.next methods act) := by
  cases act with
  -- The one call that is under way is the last of those numbered.
  | call =>
    have hpending : callsReported p.reports = List.range p.calls := by
      have hreported := h.reported
      rw [show p.caller = .free from hcan] at hreported
      rw [← hreported]
      exact (List.append_nil _).symm
    refine ⟨h.unfired, h.fired, ?_, ?_⟩
    · show callsOf (p.given ++ (p.inbox ++ [.call p.calls])) = List.range (p.calls + 1)
      rw [← List.append_assoc, callsOf_append, h.asked, List.range_succ]
      rfl
    · show callsReported p.reports ++ [p.calls] = List.range (p.calls + 1)
      rw [hpending, List.range_succ]
  | disconnect =>
    have hpending := h.reported
    rw [show p.caller = .free from hcan] at hpending
    refine ⟨h.unfired, h.fired, ?_, hpending⟩
    show callsOf (p.given ++ (p.inbox ++ [.disconnect p.disconnects])) = _
    rw [← List.append_assoc, callsOf_append, h.asked]
    exact List.append_nil _
  | wake =>
    obtain ⟨k, hk⟩ := hcan
    have hpending := h.reported
    rw [hk] at hpending
    exact ⟨h.unfired, h.fired, h.asked, hpending⟩
  -- An answer leaves the head of the queue and is reported to the caller.
  | take =>
    obtain ⟨⟨i, hi⟩, hqueue⟩ := hcan
    cases hcase : p.world.queue with
    | nil => exact absurd hcase hqueue
    | cons answer queue =>
      have hreported := h.reported
      rw [hi] at hreported
      unfold ThreadedVNCClientProxy.next
      simp only [hcase, answers_report _ hi]
      refine ⟨fun hnone => ?_, fun first hfirst => ?_, h.asked, ?_⟩
      · have hempty := (h.unfired hnone).2.2.2.1
        rw [hcase] at hempty
        cases hempty
      · have haccounts {reply : ProxyReply V E} {answered ran : List ProxyRequest}
            (ha : Accounts methods reply (answersTaken p.reports) answered ran p.world) :
            Accounts methods reply (answersTaken (p.reports ++ [⟨i, some answer⟩])) answered
              ran { p.world with queue := queue } := by
          refine ⟨ha.answers, ha.ran, ?_⟩
          rw [answersTaken_append, List.append_assoc]
          show p.world.answers = _
          rw [ha.queued, hcase]
          rfl
        refine (h.fired first hfirst).imp (fun hfalse => hfalse) ?_ ?_
        · rintro done result ⟨ha, hresult⟩
          exact ⟨haccounts ha, hresult⟩
        · rintro done on ⟨before, hdone, hvalue, ha⟩
          exact ⟨before, hdone, hvalue, haccounts ha⟩
      · show callsReported (p.reports ++ [⟨i, some answer⟩]) ++ [] = _
        rw [List.append_nil, callsReported_append]
        exact hreported
  -- A report without an answer leaves the queue as it is: the answer will come later.
  | timeOut =>
    obtain ⟨⟨i, hi⟩, -⟩ := hcan
    have hreported := h.reported
    rw [hi] at hreported
    have htaken : answersTaken (p.reports ++ [⟨i, none⟩]) =
        answersTaken p.reports := by
      rw [answersTaken_append]
      exact List.append_nil _
    unfold ThreadedVNCClientProxy.next
    rw [answers_report _ hi]
    refine ⟨fun hnone => ?_, fun first hfirst => ?_, h.asked, ?_⟩
    · show _ ∧ _ ∧ _ ∧ _ ∧ answersTaken (p.reports ++ [⟨i, none⟩]) = []
      rw [htaken]
      exact h.unfired hnone
    · show Deferred.Follows _
        (Idle methods ⟨first, none⟩ (answersTaken (p.reports ++ [⟨i, none⟩])))
        (Held methods ⟨first, none⟩ (answersTaken (p.reports ++ [⟨i, none⟩]))) _ _ _
      rw [htaken]
      exact h.fired first hfirst
    · show callsReported (p.reports ++ [⟨i, none⟩]) ++ [] = _
      rw [List.append_nil, callsReported_append]
      exact hreported
  -- A request goes from the inbox to the end of the callbacks.
  | process =>
    unfold ThreadedVNCClientProxy.next
    cases hinbox : p.inbox with
    | nil => exact absurd hinbox hcan
    | cons request rest =>
      refine ⟨fun hnone => ?_, fun first hfirst => ?_, ?_, h.reported⟩
      · obtain ⟨hdeferred, hrest⟩ := h.unfired hnone
        unfold give
        rw [hdeferred]
        exact ⟨rfl, hrest⟩
      · exact Deferred.follows_add (runs_handle methods ⟨first, none⟩ _) (h.fired first hfirst)
      · show callsOf ((p.given ++ [request]) ++ rest) = _
        rw [List.append_assoc]
        have hasked := h.asked
        rwa [hinbox] at hasked
  | complete =>
    obtain ⟨⟨index, protocol⟩, callbacks, hpaused⟩ := hcan
    unfold ThreadedVNCClientProxy.next
    simp only [hpaused]
    refine ⟨fun hnone => ?_, fun first hfirst => ?_, h.asked, h.reported⟩
    · have hunfired := (h.unfired hnone).1
      rw [hpaused] at hunfired
      cases hunfired
    · have hfollows := h.fired first hfirst
      rw [hpaused] at hfollows
      exact Deferred.follows_resume (runs_handle methods ⟨first, none⟩ _)
        (fun done hheld => idle_of_held hheld) hfollows
  | opened => exact h.world rfl rfl rfl
  | made => exact h.fire _ hcan.2
  | failed reason =>
    have hlink : Bookkept methods
        { p with
          world :=
            { p.world with
              link := if p.world.link = .connecting then .down else p.world.link } } :=
      h.world rfl rfl rfl
    exact hlink.fire (.error reason) hcan
  | closes => exact h.world rfl rfl rfl
  | lost => exact h.world rfl rfl rfl

/-- A run keeps its books. -/
theorem bookkept_runs {acts : List (Act E)} (h : Possible methods acts) :
    Bookkept methods (runs methods acts) := by
  refine Machine.invariant (fun _ p => Bookkept methods p) ?_ (fun _ p act hp hcan => hp.next hcan) h
  refine ⟨fun _ => ⟨rfl, rfl, rfl, rfl, rfl⟩, fun first hfirst => ?_, rfl, rfl⟩
  cases hfirst

/-- Disconnects are numbered too. -/
theorem disconnects_runs {acts : List (Act E)} (h : Possible methods acts) :
    disconnectsOf ((runs methods acts).given ++ (runs methods acts).inbox) =
      List.range (runs methods acts).disconnects := by
  refine Machine.invariant (s := ({} : ThreadedVNCClientProxy V E))
    (fun _ p => disconnectsOf (p.given ++ p.inbox) = List.range p.disconnects) rfl ?_ h
  intro past p act hp hcan
  cases act with
  | call =>
    show disconnectsOf (p.given ++ (p.inbox ++ [.call p.calls])) = List.range p.disconnects
    rw [← List.append_assoc, disconnectsOf_append, hp]
    exact List.append_nil _
  -- Only here does the number grow, and only `process` moves what is numbered.
  | disconnect =>
    show disconnectsOf (p.given ++ (p.inbox ++ [.disconnect p.disconnects])) =
      List.range (p.disconnects + 1)
    rw [← List.append_assoc, disconnectsOf_append, hp, List.range_succ]
    rfl
  | wake => exact hp
  | take =>
    obtain ⟨⟨i, hi⟩, hqueue⟩ := hcan
    cases hcase : p.world.queue with
    | nil => exact absurd hcase hqueue
    | cons answer queue =>
      unfold ThreadedVNCClientProxy.next
      simp only [hcase, answers_report _ hi]
      exact hp
  | timeOut =>
    obtain ⟨⟨i, hi⟩, -⟩ := hcan
    unfold ThreadedVNCClientProxy.next
    rw [answers_report _ hi]
    exact hp
  | process =>
    unfold ThreadedVNCClientProxy.next
    cases hinbox : p.inbox with
    | nil => exact absurd hinbox hcan
    | cons request rest =>
      show disconnectsOf ((p.given ++ [request]) ++ rest) = _
      rw [List.append_assoc]
      rwa [hinbox] at hp
  | complete =>
    obtain ⟨⟨index, protocol⟩, callbacks, hpaused⟩ := hcan
    unfold ThreadedVNCClientProxy.next
    simp only [hpaused]
    exact hp
  | opened => exact hp
  | made => exact hp
  | failed reason => exact hp
  | closes => exact hp
  | lost => exact hp

/-! ## Answers that were taken -/

/-- Some of the requests have been answered, and one more may have run. -/
theorem Bookkept.answered (h : Bookkept methods p) {first : Except E V}
    (hfirst : p.connection = some first) :
    ∃ answered more rest, p.given = answered ++ more ++ rest ∧
      Accounts methods ⟨first, none⟩ (answersTaken p.reports) answered (answered ++ more)
        p.world := by
  have hfollows := h.fired first hfirst
  cases hdeferred : p.deferred with
  | unfired callbacks =>
    rw [hdeferred] at hfollows
    exact hfollows.2.elim
  | idle result =>
    rw [hdeferred] at hfollows
    refine ⟨p.given, [], [], by rw [List.append_nil, List.append_nil], ?_⟩
    rw [List.append_nil]
    exact hfollows.1
  | paused on callbacks =>
    rw [hdeferred] at hfollows
    obtain ⟨_, hgiven, before, rfl, -, haccounts⟩ := hfollows
    exact ⟨before, [.call on.1], callbacks, hgiven, haccounts⟩

/-- The number of a call is that of the calls before it. -/
theorem Bookkept.call_eq (h : Bookkept methods p) {before after : List (Report V E)}
    {report : Report V E} (hreports : p.reports = before ++ report :: after) :
    report.call = before.length := by
  have hreported := h.reported
  rw [hreports, callsReported_append, List.append_assoc] at hreported
  have hget := congrArg (fun l => l[before.length]?) hreported
  have hlength : before.length = (callsReported before).length := (List.length_map _).symm
  have hlt : before.length < p.calls := by
    have htotal := congrArg List.length hreported
    rw [List.length_append, List.length_range, ← hlength] at htotal
    rw [← htotal]
    exact Nat.lt_add_of_pos_right (Nat.succ_pos _)
  rw [List.getElem?_range hlt, hlength, List.getElem?_append_right (Nat.le_refl _), Nat.sub_self,
    ← hlength] at hget
  exact Option.some.inj hget

/-- How an answer that a call has taken was made. -/
theorem Bookkept.answer (h : Bookkept methods p) {before after : List (Report V E)} {j : ℕ}
    {a : ProxyAnswer V E} (hreports : p.reports = before ++ ⟨j, some a⟩ :: after) :
    ∃ first earlier later, p.connection = some first ∧
      p.given = earlier ++ .call a.call :: later ∧
      a.reply = settle methods (standing methods ⟨first, none⟩ earlier) (.call a.call) ∧
      (∃ more, p.world.ran = ransOf methods ⟨first, none⟩ (earlier ++ .call a.call :: more) ∧
        more <+: later) ∧
      a.call = (answersTaken before).length := by
  have htaken : answersTaken p.reports = answersTaken before ++ a :: answersTaken after := by
    rw [hreports, answersTaken_append]
    rfl
  cases hconnection : p.connection with
  | none =>
    have hempty := (h.unfired hconnection).2.2.2.2
    rw [htaken] at hempty
    exact absurd hempty (List.append_ne_nil_of_right_ne_nil _ (List.cons_ne_nil _ _))
  | some first =>
    obtain ⟨answered, more, rest, hgiven, haccounts⟩ := h.answered hconnection
    have hanswers : answersOf methods ⟨first, none⟩ answered =
        answersTaken before ++ a :: (answersTaken after ++ p.world.queue) := by
      rw [← haccounts.answers, haccounts.queued, htaken, List.append_assoc]
      rfl
    obtain ⟨earlier, later, rfl, hbefore, hreply⟩ := answersOf_eq_append hanswers
    refine ⟨first, earlier, later ++ more ++ rest, rfl, ?_, hreply, ⟨later ++ more, ?_, ?_⟩, ?_⟩
    · rw [hgiven]
      simp only [List.append_assoc, List.cons_append]
    · rw [haccounts.ran]
      simp only [List.append_assoc, List.cons_append]
    · exact ⟨rest, rfl⟩
    · -- its number is that of the calls before it, each of which was answered
      have hasked := h.asked
      rw [hgiven, List.append_assoc, List.append_assoc, List.append_assoc, List.cons_append]
        at hasked
      have hcalls : (answersTaken before).map (·.call) = callsOf earlier := by
        rw [hbefore]
        exact map_call_answersOf
      rw [(callsOf_earlier hasked).2, ← hcalls, List.length_map]

end ThreadedVNCClientProxy

end VncDoTool
