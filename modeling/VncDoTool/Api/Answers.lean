import VncDoTool.Api.Bookkeeping

/-!
# Answers of the threaded proxy

The answers to the calls come through one queue, in the order of the calls, and each is made of what
the one before left on the Deferred.

* `ThreadedVNCClientProxy.ownAnswer_iff`: a call gets its own answer where none before it timed out
  and none has left its failure behind.
* `ThreadedVNCClientProxy.independent_iff`: calls that do not time out are independent where each
  gives back the client.
-/

namespace VncDoTool

namespace ThreadedVNCClientProxy

variable {V E : Type} {methods : Methods V E}

/-! ## Whose answer a call gets -/

/-- A call has failed, and its failure still stands on the Deferred. -/
def Spoilt (methods : Methods V E) (reply : ProxyReply V E) (earlier : List ProxyRequest) : Prop :=
  ∃ e i, standing methods reply earlier = ⟨.error e, some i⟩

/-- None of the calls before this one has left its failure on the Deferred. -/
def Unspoilt (methods : Methods V E) (p : ThreadedVNCClientProxy V E) (call : ℕ) : Prop :=
  ∀ first earlier later, p.connection = some first → p.given = earlier ++ .call call :: later →
    ¬Spoilt methods ⟨first, none⟩ earlier

/-- A call that does not time out gets what its own callbacks have put on the queue, and no other
call has made it. -/
def OwnAnswer (report : Report V E) : Prop :=
  ∀ answer, report.answer = some answer →
    answer.call = report.call ∧ ∀ i, answer.reply.maker = some i → i = report.call

/-- A call gets its own answer, or raises its own error, if and only if no call before it has timed
out and none has left its failure behind. -/
theorem ownAnswer_iff {acts : List (Act E)} (hpossible : Possible methods acts)
    {before after : List (Report V E)} {j : ℕ} {a : ProxyAnswer V E}
    (hreports : (runs methods acts).reports = before ++ ⟨j, some a⟩ :: after) :
    OwnAnswer ⟨j, some a⟩ ↔
      (∀ earlier ∈ before, earlier.answer ≠ none) ∧ Unspoilt methods (runs methods acts) j := by
  have hbooks := bookkept_runs hpossible
  obtain ⟨first, earlier, later, hconnection, hgiven, hreply, -, hcall⟩ := hbooks.answer hreports
  have hj : j = before.length := hbooks.call_eq hreports
  have hasked := hbooks.asked
  rw [hgiven, List.append_assoc, List.cons_append] at hasked
  have hanswered : (answersTaken before).length = before.length ↔
      ∀ earlier ∈ before, earlier.answer ≠ none := by
    unfold answersTaken
    rw [List.filterMap_length_eq_length]
    simp only [Option.isSome_iff_ne_none]
  constructor
  · intro hown
    obtain ⟨hsame, hmaker⟩ := hown a rfl
    refine ⟨hanswered.mp (by rw [← hcall, hsame, ← hj]), ?_⟩
    rintro first' earlier' later' hfirst' hgiven' ⟨e, i, hstanding⟩
    obtain rfl := Option.some.inj (hconnection.symm.trans hfirst')
    have hcall' : j = a.call := hsame.symm
    subst hcall'
    have hearlier : earlier' = earlier := by
      have hsplit : earlier ++ .call a.call :: (later ++ (runs methods acts).inbox) =
          earlier' ++ .call a.call :: (later' ++ (runs methods acts).inbox) := by
        rw [← List.cons_append, ← List.append_assoc, ← hgiven, hgiven', List.append_assoc,
          List.cons_append]
      exact earlier_unique hasked hsplit
    subst hearlier
    -- the failure is passed on, under the name of the call that has made it
    have hpassed : a.reply.maker = some i := by
      rw [hreply, hstanding]
      rfl
    have hi : i ∈ callsOf earlier' := by
      have hmade := maker_standing (congrArg ProxyReply.maker hstanding)
      exact hmade.resolve_left (by simp)
    rw [(callsOf_earlier hasked).1, List.mem_range, hmaker i hpassed] at hi
    exact absurd hi (Nat.lt_irrefl _)
  · rintro ⟨hall, hunspoilt⟩ answer hanswer
    cases hanswer
    have hsame : a.call = j := by rw [hcall, hj, hanswered.mpr hall]
    refine ⟨hsame, fun i hi => ?_⟩
    subst hsame
    have hsound := hunspoilt first earlier later hconnection hgiven
    cases hstanding : standing methods ⟨first, none⟩ earlier with
    | mk result maker =>
      rw [hreply, hstanding] at hi
      cases result with
      | ok protocol => exact (Option.some.inj hi).symm
      | error e => exact absurd ⟨e, i, by rw [hstanding, show maker = some i from hi]⟩ hsound

/-- Methods that give back the client, after a while. -/
def slowMethods : Methods Bool Unit where
  client := true
  nothing := false
  outcome _ _ := .ok true
  later _ _ := true

/-- The first call times out, and the second one takes its answer. -/
theorem not_ownAnswer_late : ∃ acts, Possible slowMethods acts ∧
    ∃ report ∈ (runs slowMethods acts).reports, ¬OwnAnswer report := by
  refine ⟨[.opened, .made, .call, .process, .timeOut, .complete, .call, .take], ?_, ⟨1, _⟩,
    List.mem_cons_of_mem _ List.mem_cons_self, ?_⟩
  · exact ⟨rfl, ⟨rfl, id⟩, rfl, List.cons_ne_nil _ _, ⟨⟨0, rfl⟩, rfl⟩, ⟨_, _, rfl⟩, rfl,
      ⟨⟨1, rfl⟩, List.cons_ne_nil _ _⟩, trivial⟩
  · intro hown
    exact absurd (hown _ rfl).1 (by decide)

/-- The first call fails, and each of the others gives back its number, the third after a while. -/
def numberedMethods : Methods ℕ Unit where
  client := 0
  nothing := 0
  outcome index _ := if index = 0 then .error () else .ok index
  later index _ := index == 2

/-- Three calls, with a disconnect behind the one that fails. -/
abbrev numberedCalls : List (Act Unit) :=
  [.opened, .made, .call, .process, .take, .disconnect, .process, .wake, .call, .process, .take,
    .call, .process, .complete, .take]

/-- Behind a call that has failed and one that has not, the third call gets the number that is its
own. -/
theorem ownAnswer_third :
    (runs numberedMethods numberedCalls).reports =
        [⟨0, some ⟨0, ⟨.error (), some 0⟩⟩⟩, ⟨1, some ⟨1, ⟨.ok 1, some 1⟩⟩⟩,
          ⟨2, some ⟨2, ⟨.ok 2, some 2⟩⟩⟩] ∧
      OwnAnswer (V := ℕ) (E := Unit) ⟨2, some ⟨2, ⟨.ok 2, some 2⟩⟩⟩ := by
  have hpossible : Possible numberedMethods numberedCalls :=
    ⟨rfl, ⟨rfl, id⟩, rfl, List.cons_ne_nil _ _, ⟨⟨0, rfl⟩, List.cons_ne_nil _ _⟩, rfl,
      List.cons_ne_nil _ _, ⟨0, rfl⟩, rfl, List.cons_ne_nil _ _, ⟨⟨1, rfl⟩, List.cons_ne_nil _ _⟩,
      rfl, List.cons_ne_nil _ _, ⟨_, _, rfl⟩, ⟨⟨2, rfl⟩, List.cons_ne_nil _ _⟩, trivial⟩
  have hunspoilt : Unspoilt numberedMethods (runs numberedMethods numberedCalls) 2 := by
    rintro first earlier later hfirst hgiven ⟨e, i, hstanding⟩
    obtain rfl : Except.ok 0 = first := Option.some.inj hfirst
    -- the disconnect stands between the call that has failed and this one
    have hplace : ∀ n < 5, (runs numberedMethods numberedCalls).given[n]? = some (.call 2) → n = 4 := by
      decide
    have hlength : earlier.length = 4 := by
      refine hplace _ ?_ ?_
      · have hall := congrArg List.length hgiven
        rw [List.length_append, List.length_cons] at hall
        have hfive : (runs numberedMethods numberedCalls).given.length = 5 := rfl
        omega
      · rw [hgiven, List.getElem?_append_right (Nat.le_refl _), Nat.sub_self, List.getElem?_cons_zero]
    have hearlier : (runs numberedMethods numberedCalls).given.take 4 = earlier := by
      rw [hgiven, ← hlength, List.take_left]
    have hresult : (standing numberedMethods ⟨.ok 0, none⟩
        ((runs numberedMethods numberedCalls).given.take 4)).result = .ok 1 := rfl
    rw [hearlier, hstanding] at hresult
    cases hresult
  have hreports : (runs numberedMethods numberedCalls).reports =
      [⟨0, some ⟨0, ⟨.error (), some 0⟩⟩⟩, ⟨1, some ⟨1, ⟨.ok 1, some 1⟩⟩⟩] ++
        [⟨2, some ⟨2, ⟨.ok 2, some 2⟩⟩⟩] := rfl
  exact ⟨hreports, (ownAnswer_iff hpossible hreports).mpr ⟨by decide, hunspoilt⟩⟩

/-! ## Calls one after the other -/

/-- A call has run its own method once, on the client, and reports what that came to. -/
def Independent (methods : Methods V E) (p : ThreadedVNCClientProxy V E) (report : Report V E) :
    Prop :=
  p.world.ran.filter (·.1 = report.call) = [(report.call, methods.client)] ∧
    report.answer = some
      ⟨report.call, ⟨methods.outcome report.call methods.client, some report.call⟩⟩

/-- What a call has run and reported, where none before it has timed out. -/
theorem independent_iff_standing {acts : List (Act E)} (hpossible : Possible methods acts)
    {before after : List (Report V E)} {report : Report V E}
    (hconnection : (runs methods acts).connection = some (.ok methods.client))
    (hanswered : ∀ report ∈ (runs methods acts).reports, report.answer ≠ none)
    (hreports : (runs methods acts).reports = before ++ report :: after) :
    ∃ earlier later, (runs methods acts).given = earlier ++ .call report.call :: later ∧
      (Independent methods (runs methods acts) report ↔
        (standing methods ⟨.ok methods.client, none⟩ earlier).result = .ok methods.client) := by
  have hbooks := bookkept_runs hpossible
  have hj : report.call = before.length := hbooks.call_eq hreports
  rcases report with ⟨j, answer⟩
  cases answer with
  | none =>
    refine absurd rfl (hanswered ⟨j, none⟩ ?_)
    rw [hreports]
    exact List.mem_append_right _ List.mem_cons_self
  | some a =>
    obtain ⟨first, earlier, later, hfirst, hgiven, hreply, ⟨more, hran, hmore⟩, hcall⟩ :=
      hbooks.answer hreports
    obtain rfl := Option.some.inj (hconnection.symm.trans hfirst)
    have hsame : a.call = j := by
      have hlength : (answersTaken before).length = before.length := by
        unfold answersTaken
        rw [List.filterMap_length_eq_length]
        intro r hr
        refine Option.isSome_iff_ne_none.mpr (hanswered r ?_)
        rw [hreports]
        exact List.mem_append_left _ hr
      rw [hcall, hlength, ← hj]
    have hasked := hbooks.asked
    rw [hgiven, List.append_assoc, List.cons_append] at hasked
    rcases a with ⟨i, reply⟩
    obtain rfl : i = j := hsame
    refine ⟨earlier, later, hgiven, ?_⟩
    -- no other request runs the method of this call
    have hbefore : (ransOf methods ⟨.ok methods.client, none⟩ earlier).filter (·.1 = i) = [] := by
      rw [List.filter_eq_nil_iff]
      intro ran hmem
      have hlt := mem_callsOf_of_ran hmem
      rw [(callsOf_earlier hasked).1, List.mem_range] at hlt
      simpa using Nat.ne_of_lt hlt
    have hafter {r : ProxyReply V E} : (ransOf methods r more).filter (·.1 = i) = [] := by
      rw [List.filter_eq_nil_iff]
      intro ran hmem
      have hin : ran.1 ∈ callsOf (later ++ (runs methods acts).inbox) := by
        obtain ⟨rest, rfl⟩ := hmore
        rw [callsOf_append, callsOf_append]
        exact List.mem_append_left _ (List.mem_append_left _ (mem_callsOf_of_ran hmem))
      have hnodup : (callsOf earlier ++ i :: callsOf (later ++ (runs methods acts).inbox)).Nodup := by
        have hrange := List.nodup_range (n := (runs methods acts).calls)
        rw [← hasked, callsOf_append] at hrange
        exact hrange
      have hnot := (List.nodup_cons.mp (List.nodup_append.mp hnodup).2.1).1
      simp only [decide_eq_true_eq]
      rintro rfl
      exact hnot hin
    have hfilter : (runs methods acts).world.ran.filter (·.1 = i) =
        (ransOf methods (standing methods ⟨.ok methods.client, none⟩ earlier) [.call i]).filter
          (·.1 = i) := by
      rw [hran, show earlier ++ .call i :: more = earlier ++ ([.call i] ++ more) from rfl,
        ransOf_append, ransOf_append, List.filter_append, List.filter_append, hbefore, hafter,
        List.append_nil, List.nil_append]
    unfold Independent
    rw [hfilter]
    simp only [Option.some.injEq, ProxyAnswer.mk.injEq, true_and]
    rw [show reply = _ from hreply]
    -- the method runs on whatever stands on the Deferred, and not at all on a failure
    cases hstanding : (standing methods ⟨.ok methods.client, none⟩ earlier).result with
    | ok protocol =>
      have hsettle : settle methods (standing methods ⟨.ok methods.client, none⟩ earlier) (.call i) =
          ⟨methods.outcome i protocol, some i⟩ := by
        unfold settle
        rw [hstanding]
      have hone : (ransOf methods (standing methods ⟨.ok methods.client, none⟩ earlier)
          [.call i]).filter (·.1 = i) = [(i, protocol)] := by
        unfold ransOf
        rw [hstanding]
        simp [ransOf]
      rw [hone, hsettle]
      constructor
      · rintro ⟨hran', -⟩
        simp only [List.cons.injEq, Prod.mk.injEq, true_and, and_true] at hran'
        rw [hran']
      · intro hprotocol
        cases hprotocol
        exact ⟨rfl, rfl⟩
    | error e =>
      have hnone : (ransOf methods (standing methods ⟨.ok methods.client, none⟩ earlier)
          [.call i]).filter (·.1 = i) = [] := by
        unfold ransOf
        rw [hstanding]
        rfl
      rw [hnone]
      exact ⟨fun h => (List.cons_ne_nil _ _ h.1.symm).elim, fun h => (by cases h)⟩

/-- What stands on the Deferred when a call is given the client, and the next one what that call has
given back. -/
theorem standing_next {n i : ℕ} {first : ProxyReply V E}
    {earlier earlier' later later' : List ProxyRequest}
    (hasked : callsOf (earlier' ++ .call (i + 1) :: later') = List.range n)
    (hdisconnects : disconnectsOf earlier' = [])
    (hsame : earlier ++ .call i :: later = earlier' ++ .call (i + 1) :: later')
    (hclient : (standing methods first earlier).result = .ok methods.client) :
    (standing methods first earlier').result = methods.outcome i methods.client := by
  have hcalls := (callsOf_earlier hasked).1
  -- the call is among those before the next one, and no other comes after it
  obtain ⟨before, between, rfl⟩ : ∃ before between, earlier' = before ++ .call i :: between := by
    have hi : i ∈ callsOf earlier' := by
      rw [hcalls]
      exact List.self_mem_range_succ
    obtain ⟨request, hmem, hrequest⟩ := List.mem_filterMap.mp hi
    cases request with
    | call index =>
      obtain rfl := Option.some.inj hrequest
      exact List.append_of_mem hmem
    | captureProtocol => cases hrequest
    | disconnect index => cases hrequest
  have hwhole : earlier ++ .call i :: later =
      before ++ .call i :: (between ++ .call (i + 1) :: later') := by
    rw [hsame, List.append_assoc]
    rfl
  have hbefore : before = earlier := by
    refine earlier_unique (n := n) ?_ hwhole
    rw [hsame]
    exact hasked
  subst hbefore
  have hbetween : callsOf between = [] := by
    have hrange : callsOf before = List.range i := (callsOf_earlier hcalls).1
    rw [callsOf_append, hrange, List.range_succ] at hcalls
    exact (List.cons.inj (List.append_cancel_left hcalls)).2
  have hnone : disconnectsOf between = [] := by
    rw [disconnectsOf_append] at hdisconnects
    exact (List.append_eq_nil_iff.mp hdisconnects).2
  rw [show before ++ .call i :: between = (before ++ [.call i]) ++ between by
    rw [List.append_assoc]
    rfl, standing_append, standing_of_no_calls hbetween hnone, standing_append]
  show (settle methods (standing methods first before) (.call i)).result = _
  unfold settle
  rw [hclient]

/-- Every call runs its own method on the client and reports what that comes to, if and only if every
call that another one follows gives back the client. -/
theorem independent_iff {acts : List (Act E)} (hpossible : Possible methods acts)
    (hconnection : (runs methods acts).connection = some (.ok methods.client))
    (hanswered : ∀ report ∈ (runs methods acts).reports, report.answer ≠ none)
    (hdisconnects : (runs methods acts).disconnects = 0) :
    (∀ report ∈ (runs methods acts).reports, Independent methods (runs methods acts) report) ↔
      ∀ i, i + 1 < (runs methods acts).reports.length →
        methods.outcome i methods.client = .ok methods.client := by
  have hbooks := bookkept_runs hpossible
  have hnone {earlier later : List ProxyRequest} {j : ℕ}
      (hgiven : (runs methods acts).given = earlier ++ .call j :: later) :
      disconnectsOf earlier = [] := by
    have hall := disconnects_runs hpossible
    rw [hdisconnects, hgiven, disconnectsOf_append, disconnectsOf_append] at hall
    exact (List.append_eq_nil_iff.mp (List.append_eq_nil_iff.mp hall).1).1
  have hasked {earlier later : List ProxyRequest} {j : ℕ}
      (hgiven : (runs methods acts).given = earlier ++ .call j :: later) :
      callsOf (earlier ++ .call j :: (later ++ (runs methods acts).inbox)) =
        List.range (runs methods acts).calls := by
    rw [← hbooks.asked, hgiven, List.append_assoc]
    rfl
  constructor
  · intro hall i hi
    -- both the call and the next one have found the client
    have hsplit {k : ℕ} (hk : k < (runs methods acts).reports.length) :
        ∃ earlier later, (runs methods acts).given = earlier ++ .call k :: later ∧
          (standing methods ⟨.ok methods.client, none⟩ earlier).result = .ok methods.client := by
      have hreports : (runs methods acts).reports =
          (runs methods acts).reports.take k ++
            (runs methods acts).reports[k] :: (runs methods acts).reports.drop (k + 1) := by
        rw [List.getElem_cons_drop, List.take_append_drop]
      have hcall := hbooks.call_eq hreports
      rw [List.length_take_of_le (Nat.le_of_lt hk)] at hcall
      obtain ⟨earlier, later, hgiven, hiff⟩ :=
        independent_iff_standing hpossible hconnection hanswered hreports
      rw [hcall] at hgiven
      exact ⟨earlier, later, hgiven, hiff.mp (hall _ (List.getElem_mem hk))⟩
    obtain ⟨earlier, later, hgiven, hclient⟩ := hsplit (Nat.lt_of_succ_lt hi)
    obtain ⟨earlier', later', hgiven', hclient'⟩ := hsplit hi
    have hsame : earlier ++ .call i :: (later ++ (runs methods acts).inbox) =
        earlier' ++ .call (i + 1) :: (later' ++ (runs methods acts).inbox) := by
      rw [← List.cons_append, ← List.append_assoc, ← hgiven, hgiven', List.append_assoc,
        List.cons_append]
    rw [← standing_next (hasked hgiven') (hnone hgiven') hsame hclient, hclient']
  · intro hclients report hmem
    obtain ⟨before, after, hreports⟩ := List.append_of_mem hmem
    obtain ⟨earlier, later, hgiven, hiff⟩ :=
      independent_iff_standing hpossible hconnection hanswered hreports
    refine hiff.mpr (standing_of_client rfl (hnone hgiven) fun i hi => hclients i ?_)
    rw [(callsOf_earlier (hasked hgiven)).1, List.mem_range, hbooks.call_eq hreports] at hi
    rw [hreports, List.length_append, List.length_cons]
    omega

/-- What a call may be given, and may give back. -/
inductive Value : Type
  | client
  | nothing
  | image
  deriving DecidableEq

/-- The first call gives back an image, and the others the client; what is no client has no such
methods. -/
def imageMethods : Methods Value Unit where
  client := .client
  nothing := .nothing
  outcome index
    | .client => .ok (if index = 0 then .image else .client)
    | _ => .error ()
  later _ _ := false

/-- The call behind one that gives back an image runs on the image. -/
theorem not_independent_image : ∃ acts, Possible imageMethods acts ∧
    (runs imageMethods acts).connection = some (.ok .client) ∧
    (∀ report ∈ (runs imageMethods acts).reports, report.answer ≠ none) ∧
    (runs imageMethods acts).disconnects = 0 ∧
    ∃ report ∈ (runs imageMethods acts).reports,
      ¬Independent imageMethods (runs imageMethods acts) report := by
  refine ⟨[.opened, .made, .call, .process, .take, .call, .process, .take], ?_, rfl, by decide, rfl,
    ⟨1, _⟩, List.mem_cons_of_mem _ List.mem_cons_self, ?_⟩
  · exact ⟨rfl, ⟨rfl, id⟩, rfl, List.cons_ne_nil _ _, ⟨⟨0, rfl⟩, List.cons_ne_nil _ _⟩, rfl,
      List.cons_ne_nil _ _, ⟨⟨1, rfl⟩, List.cons_ne_nil _ _⟩, trivial⟩
  · rintro ⟨hran, -⟩
    exact absurd hran (by decide)

/-- The third call gives back an image, and those before it the client, the second after a while. -/
def lastImageMethods : Methods Value Unit where
  client := .client
  nothing := .nothing
  outcome index
    | .client => .ok (if index = 2 then .image else .client)
    | _ => .error ()
  later index _ := index == 1

/-- Three calls, one after the other. -/
abbrev threeCalls : List (Act Unit) :=
  [.opened, .made, .call, .process, .take, .call, .process, .complete, .take, .call, .process, .take]

/-- Each of the three runs on the client and reports what it came to itself. -/
theorem independent_threeCalls :
    (runs lastImageMethods threeCalls).reports.map (·.call) = [0, 1, 2] ∧
      ∀ report ∈ (runs lastImageMethods threeCalls).reports,
        Independent lastImageMethods (runs lastImageMethods threeCalls) report := by
  have hpossible : Possible lastImageMethods threeCalls :=
    ⟨rfl, ⟨rfl, id⟩, rfl, List.cons_ne_nil _ _, ⟨⟨0, rfl⟩, List.cons_ne_nil _ _⟩, rfl,
      List.cons_ne_nil _ _, ⟨_, _, rfl⟩, ⟨⟨1, rfl⟩, List.cons_ne_nil _ _⟩, rfl,
      List.cons_ne_nil _ _, ⟨⟨2, rfl⟩, List.cons_ne_nil _ _⟩, trivial⟩
  have hthree : (runs lastImageMethods threeCalls).reports.length = 3 := rfl
  refine ⟨rfl, (independent_iff hpossible rfl (by decide) rfl).mpr fun i hi => ?_⟩
  rw [hthree] at hi
  obtain rfl | rfl : i = 0 ∨ i = 1 := by omega
  · rfl
  · rfl

end ThreadedVNCClientProxy

end VncDoTool