import VncDoTool.Api.Answers

/-!
# The order of the threaded proxy

Calls run one after the other, and their answers come out of the queue as they were put there.

* `ransOf_sublist`: methods run in the order of their calls.
* `ThreadedVNCClientProxy.Ordered`: no answer is lost, made twice or overtaken, and no method starts
  before the one before it has come to its result.
* `ThreadedVNCClientProxy.ordered_runs`: a run is ordered.
-/

namespace VncDoTool

variable {V E : Type} {methods : Methods V E} {reply : ProxyReply V E}

/-- Methods run in the order of their calls, if at all. -/
theorem ransOf_sublist {requests : List ProxyRequest} :
    ((ransOf methods reply requests).map (·.1)).Sublist (callsOf requests) := by
  induction requests generalizing reply with
  | nil => exact .slnil
  | cons request requests ih =>
    cases request with
    | captureProtocol => exact ih
    | disconnect index => exact ih
    | call index =>
      show List.Sublist _ (index :: callsOf requests)
      rcases reply with ⟨result, maker⟩
      cases result with
      | ok protocol => exact ih.cons_cons index
      | error e => exact ih.cons index

/-- Numbers in front of others are the first ones. -/
theorem range_of_append {n : ℕ} {front back : List ℕ} (h : front ++ back = List.range n) :
    front = List.range front.length ∧ front.length ≤ n := by
  have hlength := congrArg List.length h
  rw [List.length_append, List.length_range] at hlength
  have htake := congrArg (List.take front.length) h
  rw [List.take_left, List.take_range, Nat.min_eq_left (by omega)] at htake
  exact ⟨htake, by omega⟩

namespace ThreadedVNCClientProxy

variable {p : ThreadedVNCClientProxy V E}

/-- The requests that were answered, and the call whose method is waited for. -/
theorem Bookkept.progress (h : Bookkept methods p) :
    ∃ reply answered waiting rest, p.given = answered ++ waiting ++ rest ∧
      Accounts methods reply (answersTaken p.reports) answered (answered ++ waiting) p.world ∧
      (callsOf waiting).length ≤ 1 := by
  cases hconnection : p.connection with
  | none =>
    obtain ⟨-, hanswers, hran, hqueue, htaken⟩ := h.unfired hconnection
    refine ⟨⟨.ok methods.nothing, none⟩, [], [], p.given, rfl, ⟨?_, ?_, ?_⟩, Nat.zero_le 1⟩
    · exact hanswers
    · exact hran
    · rw [hanswers, htaken, hqueue]
      rfl
  | some first =>
    have hfollows := h.fired first hconnection
    cases hdeferred : p.deferred with
    | unfired callbacks =>
      rw [hdeferred] at hfollows
      exact hfollows.2.elim
    | idle result =>
      rw [hdeferred] at hfollows
      refine ⟨⟨first, none⟩, p.given, [], [], by rw [List.append_nil, List.append_nil], ?_,
        Nat.zero_le 1⟩
      rw [List.append_nil]
      exact hfollows.1
    | paused on callbacks =>
      rw [hdeferred] at hfollows
      obtain ⟨_, hgiven, before, rfl, -, haccounts⟩ := hfollows
      exact ⟨⟨first, none⟩, before, [.call on.1], callbacks, hgiven, haccounts, Nat.le_refl 1⟩

/-- What holds of the queue and of the calls. -/
structure Ordered (p : ThreadedVNCClientProxy V E) : Prop where
  /-- The answers are those of the first calls, one to each. -/
  answered : p.world.answers.map (·.call) = List.range p.world.answers.length
  /-- There are no answers without calls. -/
  asked : p.world.answers.length ≤ p.calls
  /-- An answer was taken by a call, or waits to be. -/
  queued : p.world.answers = answersTaken p.reports ++ p.world.queue
  /-- A call that gets an answer gets that of as many calls before it as have timed out. -/
  late : ∀ before j a after, p.reports = before ++ ⟨j, some a⟩ :: after →
    a.call + before.countP (fun report => report.answer.isNone) = j
  /-- Each method is run once at most, and in the order of the calls. -/
  ran : (p.world.ran.map (·.1)).Pairwise (· < ·)
  /-- A method is run once the calls before it are answered. -/
  serial : ∀ ran ∈ p.world.ran, ran.1 ≤ p.world.answers.length

/-- Those that are over have got an answer, or none. -/
theorem length_answersTaken (reports : List (Report V E)) :
    (answersTaken reports).length + reports.countP (fun report => report.answer.isNone) =
      reports.length := by
  induction reports with
  | nil => rfl
  | cons report reports ih =>
    rcases report with ⟨call, answer⟩
    cases answer with
    | none =>
      rw [List.countP_cons_of_pos rfl, List.length_cons, ← ih, ← Nat.add_assoc]
      rfl
    | some a =>
      rw [List.countP_cons_of_neg (by simp), List.length_cons, ← ih]
      show (answersTaken reports).length + 1 + _ = _
      omega

/-- A proxy that keeps its books is ordered. -/
theorem Bookkept.ordered (h : Bookkept methods p) : Ordered p := by
  obtain ⟨reply, answered, waiting, rest, hgiven, haccounts, hwaiting⟩ := h.progress
  -- the numbers of the calls that were answered, and of the one that is waited for
  have hasked : callsOf answered ++ (callsOf waiting ++ callsOf (rest ++ p.inbox)) =
      List.range p.calls := by
    rw [← callsOf_append, ← callsOf_append, ← h.asked, hgiven]
    simp only [List.append_assoc]
  have hcalls : p.world.answers.map (·.call) = callsOf answered := by
    rw [haccounts.answers]
    exact map_call_answersOf
  have hlength : p.world.answers.length = (callsOf answered).length := by
    rw [← hcalls, List.length_map]
  obtain ⟨hfirst, hle⟩ := range_of_append hasked
  have hrun : callsOf (answered ++ waiting) = List.range (callsOf (answered ++ waiting)).length := by
    rw [← List.append_assoc, ← callsOf_append] at hasked
    exact (range_of_append hasked).1
  have hsublist : (p.world.ran.map (·.1)).Sublist (callsOf (answered ++ waiting)) := by
    rw [haccounts.ran]
    exact ransOf_sublist
  refine ⟨?_, ?_, haccounts.queued, fun before j a after hreports => ?_, ?_, fun ran hran => ?_⟩
  · rw [hcalls, hlength]
    exact hfirst
  · rw [hlength]
    exact hle
  · obtain ⟨-, -, -, -, -, -, -, hcall⟩ := h.answer hreports
    rw [hcall, length_answersTaken]
    exact (h.call_eq hreports).symm
  · refine List.Pairwise.sublist hsublist ?_
    rw [hrun]
    exact List.pairwise_lt_range
  · have hmem : ran.1 ∈ callsOf (answered ++ waiting) :=
      hsublist.subset (List.mem_map_of_mem hran)
    rw [hrun, List.mem_range, callsOf_append, List.length_append] at hmem
    omega

/-- In every run, whatever the order of what happens, no answer is lost, made twice or overtaken, a
call that gets an answer gets that of as many calls before it as have timed out, and methods are run
one after the other. -/
theorem ordered_runs {acts : List (Act E)} (h : Possible methods acts) :
    Ordered (runs methods acts) :=
  (bookkept_runs h).ordered

/-- A call that has timed out, and another one that takes its answer. -/
theorem ordered_runs_late : Ordered (runs slowMethods
    [.opened, .made, .call, .process, .timeOut, .complete, .call, .take]) :=
  ordered_runs ⟨rfl, ⟨rfl, id⟩, rfl, List.cons_ne_nil _ _, ⟨⟨0, rfl⟩, rfl⟩, ⟨_, _, rfl⟩, rfl,
    ⟨⟨1, rfl⟩, List.cons_ne_nil _ _⟩, trivial⟩

end ThreadedVNCClientProxy

end VncDoTool
