import VncDoTool.Api.Proxy

/-!
# What requests come to

What requests leave on the Deferred of the threaded proxy, the answers they put on the queue and the
methods they run on the way are functions of the requests alone.

* `settle`, `standing`: the result that stands on the Deferred.
* `answersOf`, `ransOf`: the answers put, and the methods run.
* `callsOf`, `disconnectsOf`: the numbers of the calls and of the disconnects.
* `earlier_unique`: what comes before a call.
-/

namespace VncDoTool

variable {V E : Type}

/-! ## What requests come to -/

/-- What a request makes of the result that stands on the Deferred. -/
def settle (methods : Methods V E) (reply : ProxyReply V E) : ProxyRequest → ProxyReply V E
  | .captureProtocol => reply
  | .call index =>
    match reply.result with
    | .ok protocol => ⟨methods.outcome index protocol, some index⟩
    | .error _ => reply
  | .disconnect _ => ⟨.ok methods.nothing, none⟩

/-- What stands on the Deferred behind some requests. -/
def standing (methods : Methods V E) (reply : ProxyReply V E) (requests : List ProxyRequest) :
    ProxyReply V E :=
  requests.foldl (settle methods) reply

/-- The answers some requests put on the queue. -/
def answersOf (methods : Methods V E) : ProxyReply V E → List ProxyRequest → List (ProxyAnswer V E)
  | _, [] => []
  | reply, .call index :: requests =>
    ⟨index, settle methods reply (.call index)⟩ ::
      answersOf methods (settle methods reply (.call index)) requests
  | reply, request :: requests => answersOf methods (settle methods reply request) requests

/-- The methods some requests run. -/
def ransOf (methods : Methods V E) : ProxyReply V E → List ProxyRequest → List (ℕ × V)
  | _, [] => []
  | reply, .call index :: requests =>
    match reply.result with
    | .ok protocol =>
      (index, protocol) :: ransOf methods (settle methods reply (.call index)) requests
    | .error _ => ransOf methods (settle methods reply (.call index)) requests
  | reply, request :: requests => ransOf methods (settle methods reply request) requests

/-- The calls among some requests. -/
def callsOf (requests : List ProxyRequest) : List ℕ :=
  requests.filterMap fun request =>
    match request with
    | .call index => some index
    | _ => none

section Requests

variable {methods : Methods V E} {reply : ProxyReply V E} {requests more : List ProxyRequest}
  {index : ℕ}

theorem standing_append : standing methods reply (requests ++ more) =
    standing methods (standing methods reply requests) more := List.foldl_append

theorem answersOf_append : answersOf methods reply (requests ++ more) =
    answersOf methods reply requests ++
      answersOf methods (standing methods reply requests) more := by
  induction requests generalizing reply with
  | nil => rfl
  | cons request requests ih =>
    cases request with
    | captureProtocol => exact ih
    | call index => exact congrArg (List.cons _) ih
    | disconnect index => exact ih

theorem ransOf_append : ransOf methods reply (requests ++ more) =
    ransOf methods reply requests ++ ransOf methods (standing methods reply requests) more := by
  induction requests generalizing reply with
  | nil => rfl
  | cons request requests ih =>
    cases request with
    | captureProtocol => exact ih
    | call index =>
      rcases reply with ⟨result, maker⟩
      cases result with
      | ok protocol => exact congrArg (List.cons _) ih
      | error e => exact ih
    | disconnect index => exact ih

theorem callsOf_append : callsOf (requests ++ more) = callsOf requests ++ callsOf more :=
  List.filterMap_append

/-- There is one answer to each call, in their order. -/
theorem map_call_answersOf : (answersOf methods reply requests).map (·.call) = callsOf requests := by
  induction requests generalizing reply with
  | nil => rfl
  | cons request requests ih =>
    cases request with
    | captureProtocol => exact ih
    | call index => exact congrArg (List.cons index) ih
    | disconnect index => exact ih

/-- What was put on the queue as an answer to a call. -/
theorem answersOf_eq_append {as bs : List (ProxyAnswer V E)} {a : ProxyAnswer V E}
    (h : answersOf methods reply requests = as ++ a :: bs) :
    ∃ earlier later, requests = earlier ++ .call a.call :: later ∧
      as = answersOf methods reply earlier ∧
      a.reply = settle methods (standing methods reply earlier) (.call a.call) := by
  induction requests generalizing reply as with
  | nil => exact absurd h.symm (by simp [answersOf])
  | cons request requests ih =>
    cases request with
    | captureProtocol =>
      obtain ⟨earlier, later, hrequests, has, ha⟩ := ih h
      exact ⟨.captureProtocol :: earlier, later, by rw [hrequests]; rfl, has, ha⟩
    | disconnect index =>
      obtain ⟨earlier, later, hrequests, has, ha⟩ := ih h
      exact ⟨.disconnect index :: earlier, later, by rw [hrequests]; rfl, has, ha⟩
    | call index =>
      cases as with
      | nil =>
        -- it is the answer to the first request
        obtain ⟨rfl, -⟩ := List.cons.inj h
        exact ⟨[], requests, rfl, rfl, rfl⟩
      | cons first as =>
        obtain ⟨rfl, hrest⟩ := List.cons.inj h
        obtain ⟨earlier, later, hrequests, has, ha⟩ := ih hrest
        exact ⟨.call index :: earlier, later, by rw [hrequests]; rfl, congrArg _ has, ha⟩

/-- The call that made what stands on the Deferred is one of those before. -/
theorem maker_standing {i : ℕ} (h : (standing methods reply requests).maker = some i) :
    reply.maker = some i ∨ i ∈ callsOf requests := by
  induction requests generalizing reply with
  | nil => exact .inl h
  | cons request requests ih =>
    cases request with
    | captureProtocol => exact ih h
    | disconnect index =>
      refine (ih h).resolve_left ?_ |> .inr
      simp [settle]
    | call index =>
      show _ ∨ i ∈ index :: callsOf requests
      rcases ih h with hmaker | hi
      · rcases reply with ⟨result, maker⟩
        cases result with
        | ok protocol =>
          obtain rfl := Option.some.inj hmaker
          exact .inr List.mem_cons_self
        | error e => exact .inl hmaker
      · exact .inr (List.mem_cons_of_mem _ hi)

/-- Only methods of calls are run. -/
theorem mem_callsOf_of_ran {ran : ℕ × V} (h : ran ∈ ransOf methods reply requests) :
    ran.1 ∈ callsOf requests := by
  induction requests generalizing reply with
  | nil => cases h
  | cons request requests ih =>
    cases request with
    | captureProtocol => exact ih h
    | disconnect index => exact ih h
    | call index =>
      show ran.1 ∈ index :: callsOf requests
      rcases reply with ⟨result, maker⟩
      cases result with
      | ok protocol =>
        rcases List.mem_cons.mp h with rfl | hrest
        · exact List.mem_cons_self
        · exact List.mem_cons_of_mem _ (ih hrest)
      | error e => exact List.mem_cons_of_mem _ (ih h)

/-- The disconnects among some requests. -/
def disconnectsOf (requests : List ProxyRequest) : List ℕ :=
  requests.filterMap fun request =>
    match request with
    | .disconnect index => some index
    | _ => none

theorem disconnectsOf_append :
    disconnectsOf (requests ++ more) = disconnectsOf requests ++ disconnectsOf more :=
  List.filterMap_append

/-- The client stands on the Deferred as long as calls give it back. -/
theorem standing_of_client (hreply : reply.result = .ok methods.client)
    (hdisconnects : disconnectsOf requests = [])
    (h : ∀ i ∈ callsOf requests, methods.outcome i methods.client = .ok methods.client) :
    (standing methods reply requests).result = .ok methods.client := by
  induction requests generalizing reply with
  | nil => exact hreply
  | cons request requests ih =>
    cases request with
    | captureProtocol => exact ih hreply hdisconnects h
    | disconnect index => cases hdisconnects
    | call index =>
      refine ih ?_ hdisconnects fun i hi => h i (List.mem_cons_of_mem _ hi)
      unfold settle
      rw [hreply]
      exact h index List.mem_cons_self

/-- Requests that are no calls leave what stands there. -/
theorem standing_of_no_calls (hcalls : callsOf requests = [])
    (hdisconnects : disconnectsOf requests = []) : standing methods reply requests = reply := by
  induction requests with
  | nil => rfl
  | cons request requests ih =>
    cases request with
    | captureProtocol => exact ih hcalls hdisconnects
    | call index => cases hcalls
    | disconnect index => cases hdisconnects

/-- What comes before a call in requests whose calls are numbered. -/
theorem callsOf_earlier {n : ℕ} {earlier later : List ProxyRequest}
    (h : callsOf (earlier ++ .call index :: later) = List.range n) :
    callsOf earlier = List.range index ∧ index = (callsOf earlier).length := by
  rw [callsOf_append] at h
  have hindex : (callsOf earlier).length = index := by
    have hget := congrArg (fun l => l[(callsOf earlier).length]?) h
    rw [List.getElem?_append_right (Nat.le_refl _), Nat.sub_self] at hget
    have hlt : (callsOf earlier).length < n := by
      have hlength := congrArg List.length h
      rw [List.length_append, List.length_range] at hlength
      rw [← hlength]
      exact Nat.lt_add_of_pos_right (Nat.succ_pos _)
    rw [List.getElem?_range hlt] at hget
    exact (Option.some.inj hget).symm
  have htake := congrArg (List.take (callsOf earlier).length) h
  rw [List.take_left, List.take_range, hindex] at htake
  have hle : index ≤ n := by
    have hlength := congrArg List.length h
    rw [List.length_append, List.length_range] at hlength
    omega
  rw [Nat.min_eq_left hle] at htake
  exact ⟨htake, hindex.symm⟩

/-- A call is asked once, so what comes before it is determined. -/
theorem earlier_unique {n : ℕ} {earlier later earlier' later' : List ProxyRequest}
    (h : callsOf (earlier ++ .call index :: later) = List.range n)
    (hsame : earlier ++ .call index :: later = earlier' ++ .call index :: later') :
    earlier' = earlier := by
  -- a longer one would hold the call itself, whose number is not among the smaller ones
  have hshorter {before before' after after' : List ProxyRequest}
      (hcalls : callsOf before' = List.range index)
      (heq : before ++ .call index :: after = before' ++ .call index :: after') :
      before'.length ≤ before.length := by
    by_contra hlonger
    obtain ⟨more, rfl⟩ : ∃ more, before' = before ++ .call index :: more := by
      rcases List.append_eq_append_iff.mp heq with ⟨more, hbefore, hrest⟩ | ⟨more, hbefore, -⟩
      · cases more with
        | nil =>
          rw [List.append_nil] at hbefore
          rw [hbefore] at hlonger
          exact absurd (Nat.le_refl _) hlonger
        | cons first more =>
          obtain ⟨rfl, -⟩ := List.cons.inj hrest
          exact ⟨more, hbefore⟩
      · rw [hbefore, List.length_append] at hlonger
        omega
    rw [callsOf_append] at hcalls
    have hmem : index ∈ List.range index := by
      rw [← hcalls]
      exact List.mem_append_right _ List.mem_cons_self
    exact absurd (List.mem_range.mp hmem) (Nat.lt_irrefl _)
  have hcalls := (callsOf_earlier h).1
  have hcalls' := (callsOf_earlier (hsame ▸ h)).1
  have hlength : earlier'.length = earlier.length :=
    Nat.le_antisymm (hshorter hcalls' hsame) (hshorter hcalls hsame.symm)
  exact (List.append_inj hsame hlength.symm).1.symm

end Requests

end VncDoTool
