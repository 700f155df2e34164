import VncDoTool.Proxy.Messages

/-!
# The proxy parser and segmentation

When client messages cut into chunks make the calls they make in one chunk. Three things go
wrong: `SetEncodings` and `ClientFence` do not wait for a body that is still to come, and the
threshold an incomplete header has raised stays raised, so that short messages behind it are
withheld.

* `Framed`: the condition on where the chunks end, in terms of the types and lengths of the
  messages only.
* `Frames`, `frames_cons`: the parser waiting for a header, and the induction over chunks.
* `receive_messages_iff`: the same calls as in one chunk, and no exception, exactly for chunks
  that frame the messages.
-/

namespace VncDoTool

namespace RFBServer

/-! ## Receiving in chunks -/

/-- Run the loop on what is there, then receive the chunks. -/
def resume (chunks : List Bytes) (s : RFBServer) : RFBServer × List ServerError :=
  receive ([] :: chunks) s

/-- Append to the buffer. -/
def push (data : Bytes) (s : RFBServer) : RFBServer := { s with buffer := s.buffer ++ data }

open ClientMessage (Wire)

variable {s s' : RFBServer} {chunks : List Bytes}

@[simp] theorem buffer_push (data : Bytes) : (s.push data).buffer = s.buffer ++ data := rfl
@[simp] theorem handler_push (data : Bytes) : (s.push data).handler = s.handler := rfl
@[simp] theorem calls_push (data : Bytes) : (s.push data).calls = s.calls := rfl

theorem Advances.resume_eq (h : Advances s s') : s.resume chunks = s'.resume chunks := by
  simp only [resume, receive, h.dataReceived_eq]

/-- A parser that waits for more leaves it to the chunks. -/
theorem resume_of_short (h : s.buffer.length < s.handler.need) :
    s.resume chunks = receive chunks s := by
  simp [resume, receive, dataReceived_nil_of_short h]

theorem receive_cons (data : Bytes) : receive (data :: chunks) s = (s.push data).resume chunks := by
  simp only [resume, receive, dataReceived_eq_nil data, push]

/-- A parser whose handler raises reports it. -/
theorem resume_of_raises {e : ServerError} (hneed : s.handler.need ≤ s.buffer.length)
    (h : s.handle = (s', some e)) : (s.resume chunks).2 ≠ [] := by
  have hraise : s.dataReceived [] = (s', some e) :=
    (runs_dataReceived_nil s).unique (.raise hneed h)
  simp [resume, receive, hraise]

/-- Behind ClientInit calls are only added. -/
theorem calls_receive (hprotocol : s.handler.InProtocol) (chunks : List Bytes) :
    s.calls <+: (receive chunks s).1.calls := by
  have h := receive_induction
    (P := fun _ s' => s'.handler.InProtocol ∧ s.calls <+: s'.calls)
    (fun _ _ _ h => h)
    (fun _ s' h _ => ?_) [] ⟨hprotocol, List.prefix_refl _⟩ chunks
  · exact h.2
  · have hhandled := handled_handle h.1
    refine ⟨hhandled.inProtocol h.1, h.2.trans ?_⟩
    rcases hhandled.log with hlog | ⟨c, -, hlog⟩
    · simp [calls, hlog]
    · simp [calls, hlog]

/-! ## Where calls may end -/

/-- How many bytes have been delivered at the end of each call, when `delivered` have been
before. -/
def ends (delivered : ℕ) : List Bytes → List ℕ
  | [] => []
  | data :: chunks => (delivered + data.length) :: ends (delivered + data.length) chunks

theorem le_of_mem_ends {delivered e : ℕ} (h : e ∈ ends delivered chunks) : delivered ≤ e := by
  induction chunks generalizing delivered with
  | nil => cases h
  | cons data chunks ih =>
    rcases List.mem_cons.mp h with rfl | h
    · omega
    · have := ih h
      omega

/-- A message as framing sees it: its type and its length. -/
abbrev Shape : Type := MsgC2S × ℕ

/-- Whether calls that end at `ends` frame messages that start at `start`, when the parser waits
for `threshold` bytes of the first. A message is taken at the first end that reaches both the
threshold and the end of its header. A body with a handler of its own may come later, and resets
the threshold; any other body must have come by then. An end inside a header that reaches the
threshold raises it to the length of the header, for good. -/
def Framed : ℕ → ℕ → List ℕ → List Shape → Prop
  | _, _, _, [] => True
  | threshold, start, ends, (type, length) :: messages =>
    let header := typeLen type.value
    let taken := ends.dropWhile (· < start + max threshold header)
    if HasHandler type then
      let complete := taken.dropWhile (· < start + length)
      complete ≠ [] ∧ Framed 1 (start + length) complete messages
    else
      let raised := ∃ e ∈ ends, start + threshold ≤ e ∧ e < start + header
      taken ≠ [] ∧ (∀ e ∈ taken, start + length ≤ e) ∧
        Framed (if raised then header else threshold) (start + length) taken messages

instance decidableFramed : ∀ threshold start ends messages,
    Decidable (Framed threshold start ends messages)
  | _, _, _, [] => isTrue trivial
  | _, _, _, (_, _) :: messages =>
    have := fun threshold start ends => decidableFramed threshold start ends messages
    inferInstanceAs (Decidable (ite ..))

section Framed

variable {threshold start received : ℕ} {later : List ℕ} {type : MsgC2S} {length : ℕ}
  {messages : List Shape}

/-- An end below the threshold changes nothing. -/
theorem framed_of_lt_threshold (h : received < threshold) :
    Framed threshold start ((start + received) :: later) messages ↔
      Framed threshold start later messages := by
  cases messages with
  | nil => rfl
  | cons message messages =>
    obtain ⟨type, length⟩ := message
    have hdrop : start + received < start + max threshold (typeLen type.value) := by omega
    have hno : ¬ start + threshold ≤ start + received := by omega
    simp only [Framed, List.dropWhile_cons, hdrop, decide_true, if_true, List.exists_mem_cons_iff,
      hno, false_and, false_or]

/-- An end inside a header that reaches the threshold raises it. -/
theorem framed_of_lt_header (h : threshold ≤ received) (hheader : received < typeLen type.value) :
    Framed threshold start ((start + received) :: later) ((type, length) :: messages) ↔
      Framed (typeLen type.value) start later ((type, length) :: messages) := by
  have hmax : max threshold (typeLen type.value) = typeLen type.value := by omega
  have hyes : start + threshold ≤ start + received ∧
      start + received < start + typeLen type.value := by omega
  have hno : ¬ ∃ e ∈ later, start + typeLen type.value ≤ e ∧ e < start + typeLen type.value := by
    rintro ⟨e, -, hle, hlt⟩
    omega
  simp only [Framed, List.dropWhile_cons, decide_true, if_true, hmax, max_self,
    List.exists_mem_cons_iff, hyes, and_self, true_or, hno, if_false]

theorem framed_taken (hheader : max threshold (typeLen type.value) ≤ received) :
    ((start + received) :: later).dropWhile
      (· < start + max threshold (typeLen type.value)) = (start + received) :: later := by
  have hkeep : ¬ start + received < start + max threshold (typeLen type.value) := by omega
  simp only [List.dropWhile_cons, hkeep, decide_false, Bool.false_eq_true, if_false]

/-- A message whose body has no handler is taken whole. -/
theorem framed_of_complete (htype : ¬ HasHandler type)
    (hheader : max threshold (typeLen type.value) ≤ received) (hlength : length ≤ received)
    (hlater : ∀ e ∈ later, start + received ≤ e) :
    Framed threshold start ((start + received) :: later) ((type, length) :: messages) ↔
      Framed threshold (start + length) ((start + received) :: later) messages := by
  have hno : ¬ ∃ e ∈ (start + received) :: later,
      start + threshold ≤ e ∧ e < start + typeLen type.value := by
    rintro ⟨e, he, -, hlt⟩
    rcases List.mem_cons.mp he with rfl | he
    · omega
    · have := hlater e he
      omega
  have hall : ∀ e ∈ (start + received) :: later, start + length ≤ e := by
    intro e he
    rcases List.mem_cons.mp he with rfl | he
    · omega
    · have := hlater e he
      omega
  simp only [Framed, if_neg htype, framed_taken hheader, if_neg hno]
  exact ⟨fun h => h.2.2, fun h => ⟨List.cons_ne_nil _ _, hall, h⟩⟩

/-- Nor can it be taken without its body. -/
theorem not_framed_of_incomplete (htype : ¬ HasHandler type)
    (hheader : max threshold (typeLen type.value) ≤ received) (hlength : received < length) :
    ¬ Framed threshold start ((start + received) :: later) ((type, length) :: messages) := by
  simp only [Framed, if_neg htype, framed_taken hheader]
  rintro ⟨-, hall, -⟩
  have := hall _ List.mem_cons_self
  omega

theorem framed_of_hasHandler (htype : HasHandler type)
    (hheader : max threshold (typeLen type.value) ≤ received) :
    Framed threshold start ((start + received) :: later) ((type, length) :: messages) ↔
      ((start + received) :: later).dropWhile (· < start + length) ≠ [] ∧
        Framed 1 (start + length) (((start + received) :: later).dropWhile (· < start + length))
          messages := by
  simp only [Framed, if_pos htype, framed_taken hheader]

/-- A message for which no call ends late enough is never taken. -/
theorem not_framed_of_short (h : received < max threshold (typeLen type.value)) :
    ¬ Framed threshold start [start + received] ((type, length) :: messages) := by
  have hdrop : start + received < start + max threshold (typeLen type.value) := by omega
  by_cases htype : HasHandler type <;> simp [Framed, htype, hdrop]

end Framed

/-! ## Parsing what is framed -/

/-- Resumed with `chunks`, the parser makes the calls of the messages and nothing raises. -/
def Parses (s : RFBServer) (chunks : List Bytes) (ms : List ClientMessage) : Prop :=
  (s.resume chunks).1.calls = s.calls ++ ms.map ClientMessage.call ∧ (s.resume chunks).2 = []

/-- The types and lengths of messages. -/
def shapes (ms : List ClientMessage) (wires : List Bytes) : List Shape :=
  List.zipWith (fun m w => (m.type, w.length)) ms wires

section Parses

variable {m : ClientMessage} {ms : List ClientMessage}

/-- A parser that lacks bytes of its next message waits for the next chunk. -/
theorem parses_cons_of_short (h : s.buffer.length < s.handler.need) (data : Bytes) :
    Parses s (data :: chunks) ms ↔ Parses (s.push data) chunks ms := by
  rw [Parses, Parses, resume_of_short h, receive_cons, calls_push]

/-- Without a next chunk it makes no more calls. -/
theorem not_parses_nil_of_short (h : s.buffer.length < s.handler.need) :
    ¬ Parses s [] (m :: ms) := by
  rintro ⟨hcalls, -⟩
  rw [resume_of_short h] at hcalls
  simp [receive] at hcalls

theorem Takes.parses {n : ℕ} (h : Takes m.call n s s') :
    Parses s chunks (m :: ms) ↔ Parses s' chunks ms := by
  rw [Parses, Parses, h.advances.resume_eq, h.calls, List.map_cons, List.append_assoc,
    List.singleton_append]

theorem Advances.parses (h : Advances s s') (hcalls : s'.calls = s.calls) :
    Parses s chunks ms ↔ Parses s' chunks ms := by
  rw [Parses, Parses, h.resume_eq, hcalls]

/-- A call that is not the message's spoils everything behind it. -/
theorem not_parses_of_calls {c : Callback} (h : Advances s s') (hcalls : s'.calls = s.calls ++ [c])
    (hprotocol : s'.handler.InProtocol) (hne : c ≠ m.call) : ¬ Parses s chunks (m :: ms) := by
  rintro ⟨hparsed, -⟩
  rw [h.resume_eq] at hparsed
  obtain ⟨more, hmore⟩ := calls_receive hprotocol ([] :: chunks)
  rw [resume, ← hmore, hcalls, List.append_assoc, List.append_cancel_left_eq] at hparsed
  simp only [List.singleton_append, List.map_cons, List.cons.injEq] at hparsed
  exact hne hparsed.1

/-- Empty chunks change nothing. -/
theorem receive_of_flatten_nil (h : s.buffer.length < s.handler.need)
    (hempty : chunks.flatten = []) : receive chunks s = (s, []) := by
  induction chunks with
  | nil => rfl
  | cons data chunks ih =>
    rw [List.flatten_cons, List.append_eq_nil_iff] at hempty
    obtain ⟨rfl, hempty⟩ := hempty
    simp [receive, dataReceived_nil_of_short h, ih hempty]

theorem parses_nil {t : ℕ} (hhandler : s.handler = .protocol t) (hpos : 0 < t)
    (h : s.buffer ++ chunks.flatten = []) : Parses s chunks [] := by
  rw [List.append_eq_nil_iff] at h
  have hshort : s.buffer.length < s.handler.need := by
    rw [h.1, hhandler]
    exact hpos
  rw [Parses, resume_of_short hshort, receive_of_flatten_nil hshort h.2]
  exact ⟨(List.append_nil _).symm, rfl⟩

/-- A header whose type arms no handler, taken without all of its body, spoils the rest: short
encodings raise, and a short fence is called back as it is. -/
theorem not_parses_of_incomplete {head body p : Bytes} {t : ℕ} (h : Wire m head body)
    (htype : ¬ HasHandler m.type) (hhandler : s.handler = .protocol t)
    (ht : t ≤ s.buffer.length) (hbuffer : s.buffer = head ++ p) (hp : p.length < body.length) :
    ¬ Parses s chunks (m :: ms) := by
  have hhandle : s.handle =
      handleMessage s.consumed m.type (head.drop 1) (s.delete head.length) := by
    rw [handle, hhandler]
    exact handleProtocol_of_head h hbuffer
  have hneed : s.handler.need ≤ s.buffer.length := by rwa [hhandler]
  obtain ⟨s₁, hs₁⟩ : ∃ s₁, s₁ = s.delete head.length := ⟨_, rfl⟩
  have hbuffer₁ : s₁.buffer = p := by
    rw [hs₁, buffer_delete, hbuffer, List.drop_left]
  have hcalls₁ : s₁.calls = s.calls := by rw [hs₁, calls_delete]
  have hprotocol₁ : s₁.handler.InProtocol := by
    rw [hs₁, handler_delete, hhandler]
    trivial
  rw [← hs₁] at hhandle
  cases h with
  | setEncodings hcount hrange =>
    rw [length_flatten_beInt32] at hp
    have hraise : s.handle = (s₁, some .struct) := by
      rw [hhandle]
      simp [ClientMessage.type, handleMessage, u16At_be16_zero hcount, hbuffer₁, unpackInts,
        Nat.not_le.mpr hp]
    exact fun hparses => resume_of_raises hneed hraise hparses.2
  -- The slice of a short buffer is short: the callback has fewer bytes than the fence.
  | @clientFence flags _ hflags hlength =>
    have hcall : s.handle =
        (callback s.consumed (.clientFence flags p) (s₁.delete body.length), none) := by
      rw [hhandle]
      simp [ClientMessage.type, handleMessage, u32At_be32 hflags, hbuffer₁,
        Nat.mod_eq_of_lt hlength, List.take_of_length_le hp.le]
    have hne : Callback.clientFence flags p ≠ (ClientMessage.clientFence flags body).call := by
      intro heq
      simp only [ClientMessage.call, Callback.clientFence.injEq] at heq
      rw [heq.2] at hp
      exact lt_irrefl _ hp
    exact not_parses_of_calls (.handle hneed hcall) (by simp [hcalls₁]) hprotocol₁ hne
  | setPixelFormat | framebufferUpdateRequest | keyEvent | pointerEvent =>
    exact absurd hp (Nat.not_lt_zero _)
  | clientCutText => exact absurd (.inl rfl) htype
  | qemuExtendedKeyEvent => exact absurd (.inr rfl) htype

end Parses

/-- Two cuts of one string: the longer first part starts with the shorter. -/
theorem exists_append_of_length_le {a b x y : Bytes} (h : a ++ b = x ++ y)
    (hle : x.length ≤ a.length) : ∃ z, a = x ++ z ∧ y = z ++ b := by
  rcases List.append_eq_append_iff.mp h with ⟨z, hx, hb⟩ | ⟨z, ha, hy⟩
  · have hz : z = [] := by
      rw [hx, List.length_append] at hle
      exact List.eq_nil_of_length_eq_zero (by omega)
    subst hz
    exact ⟨[], by simpa using hx.symm, by simpa using hb.symm⟩
  · exact ⟨z, ha, hy⟩

section Messages

variable {m : ClientMessage} {head body : Bytes} {ms : List ClientMessage} {wires : List Bytes}

/-- Where the parser stands when it waits for the next message, and what it has to do with
where the calls end. -/
def Frames (ms : List ClientMessage) (wires : List Bytes) : Prop :=
  ∀ (s : RFBServer) (chunks : List Bytes) (t start : ℕ), s.handler = .protocol t → 0 < t →
    s.buffer ++ chunks.flatten = wires.flatten →
      (Parses s chunks ms ↔
        Framed t start ((start + s.buffer.length) :: ends (start + s.buffer.length) chunks)
          (shapes ms wires))

/-- A body that has come is taken. -/
theorem parses_body_iff_of_le (hrest : Frames ms wires) (h : Wire m head body)
    (htype : HasHandler m.type) (hlast : m.type = .qemuClientMessage → wires.flatten = [])
    (start : ℕ) (hhandler : s.handler = bodyHandler m.type body.length)
    (hstream : s.buffer ++ chunks.flatten = body ++ wires.flatten)
    (hle : body.length ≤ s.buffer.length) :
    Parses s chunks (m :: ms) ↔ Framed 1 (start + body.length)
      ((start + s.buffer.length) :: ends (start + s.buffer.length) chunks)
      (shapes ms wires) := by
  obtain ⟨rest, hbuffer, hwires⟩ := exists_append_of_length_le hstream hle
  obtain ⟨s', htakes, hhandler'⟩ := takes_body h htype hhandler hbuffer
  have hbuffer' : s'.buffer = rest := by
    rw [htakes.buffer, hbuffer, ← List.drop_drop, List.drop_left]
    by_cases hqemu : m.type = .qemuClientMessage
    · -- the last message: there is nothing behind it to lose
      have hnil := hlast hqemu
      rw [hwires, List.append_eq_nil_iff] at hnil
      rw [hnil.1, List.drop_nil]
    · rw [excess, if_neg hqemu, List.drop_zero]
  have hlen : start + s.buffer.length = start + body.length + s'.buffer.length := by
    rw [hbuffer', hbuffer, List.length_append]
    omega
  rw [htakes.parses, hrest s' chunks 1 (start + body.length) hhandler' one_pos
    (by rw [hbuffer', hwires]), hlen]

/-- A parser that waits for a body. -/
theorem parses_body_iff (hrest : Frames ms wires) (h : Wire m head body)
    (htype : HasHandler m.type) (hlast : m.type = .qemuClientMessage → wires.flatten = [])
    (start : ℕ) (hhandler : s.handler = bodyHandler m.type body.length)
    (hstream : s.buffer ++ chunks.flatten = body ++ wires.flatten) :
    Parses s chunks (m :: ms) ↔
      ((start + s.buffer.length) :: ends (start + s.buffer.length) chunks).dropWhile
          (· < start + body.length) ≠ [] ∧
        Framed 1 (start + body.length)
          (((start + s.buffer.length) :: ends (start + s.buffer.length) chunks).dropWhile
            (· < start + body.length)) (shapes ms wires) := by
  induction chunks generalizing s with
  | nil =>
    by_cases hle : body.length ≤ s.buffer.length
    · rw [parses_body_iff_of_le hrest h htype hlast start hhandler hstream hle]
      simp [ends, hle]
    · have hshort : s.buffer.length < s.handler.need := by
        rw [hhandler, need_bodyHandler h htype]
        omega
      refine iff_of_false (not_parses_nil_of_short hshort) ?_
      simp [ends, Nat.lt_of_not_le hle]
  | cons data chunks ih =>
    by_cases hle : body.length ≤ s.buffer.length
    · rw [parses_body_iff_of_le hrest h htype hlast start hhandler hstream hle]
      simp [ends, hle]
    · have hshort : s.buffer.length < s.handler.need := by
        rw [hhandler, need_bodyHandler h htype]
        omega
      have hdrop : start + s.buffer.length < start + body.length := by omega
      rw [parses_cons_of_short hshort, ih (s := s.push data) hhandler (by simpa using hstream)]
      simp [ends, hdrop, Nat.add_assoc]

/-- A parser that waits for a header and has enough of the stream to take it. -/
theorem parses_header_iff_of_le (hrest : Frames ms wires) (h : Wire m head body)
    (hlast : m.type = .qemuClientMessage → wires.flatten = []) {t : ℕ} (start : ℕ)
    (hhandler : s.handler = .protocol t)
    (hpos : 0 < t) (hstream : s.buffer ++ chunks.flatten = head ++ (body ++ wires.flatten))
    (hle : max t (typeLen m.type.value) ≤ s.buffer.length) :
    Parses s chunks (m :: ms) ↔
      Framed t start ((start + s.buffer.length) :: ends (start + s.buffer.length) chunks)
        ((m.type, head.length + body.length) :: shapes ms wires) := by
  have hheader := h.length_head
  have hlater : ∀ e ∈ ends (start + s.buffer.length) chunks, start + s.buffer.length ≤ e :=
    fun e he => le_of_mem_ends he
  obtain ⟨p, hbuffer, hp⟩ := exists_append_of_length_le hstream (by omega)
  have hlength : s.buffer.length = head.length + p.length := by
    rw [hbuffer, List.length_append]
  by_cases htype : HasHandler m.type
  · obtain ⟨s₁, hadvances, hcalls, hbuffer₁, hhandler₁⟩ :=
      advances_header h htype hhandler (by omega) hbuffer
    have hlen : start + s.buffer.length = start + head.length + s₁.buffer.length := by
      rw [hbuffer₁]
      omega
    rw [framed_of_hasHandler htype hle, hadvances.parses hcalls,
      parses_body_iff hrest h htype hlast (start + head.length) hhandler₁
        (by rw [hbuffer₁, hp]), hlen, Nat.add_assoc start head.length]
  · -- A type without a handler of its own is taken at once, complete or not.
    by_cases hcomplete : body.length ≤ p.length
    · obtain ⟨rest, hbody, hwires⟩ := exists_append_of_length_le hp.symm hcomplete
      rw [hbody] at hbuffer
      obtain ⟨s', htakes, hhandler'⟩ := takes_atOnce h htype hhandler (by omega) hbuffer
      have hbuffer' : s'.buffer = rest := by
        rw [htakes.buffer, hbuffer, ← List.append_assoc, ← List.length_append, List.drop_left]
      have hlen : start + s.buffer.length =
          start + (head.length + body.length) + s'.buffer.length := by
        rw [hbuffer', hlength, hbody, List.length_append]
        omega
      rw [framed_of_complete htype hle (by omega) hlater, htakes.parses,
        hrest s' chunks t (start + (head.length + body.length)) hhandler' hpos
          (by rw [hbuffer', hwires]), hlen]
    · refine iff_of_false ?_ (not_framed_of_incomplete htype hle (by omega))
      exact not_parses_of_incomplete h htype hhandler (by omega) hbuffer (by omega)

/-- A parser that cannot take the header yet waits, at the threshold it had or at one raised to
the length of the header. -/
theorem exists_waiting (h : Wire m head body) {t : ℕ} (start : ℕ) (hhandler : s.handler = .protocol t)
    (hpos : 0 < t) {rest later : Bytes} (hstream : s.buffer ++ later = head ++ rest)
    (hlt : s.buffer.length < max t (typeLen m.type.value)) :
    ∃ s₁ t₁, Advances s s₁ ∧ s₁.calls = s.calls ∧ s₁.buffer = s.buffer ∧
      s₁.handler = .protocol t₁ ∧ s.buffer.length < t₁ ∧
      ∀ later length messages,
        Framed t start ((start + s.buffer.length) :: later) ((m.type, length) :: messages) ↔
          Framed t₁ start later ((m.type, length) :: messages) := by
  by_cases hshort : s.buffer.length < t
  · exact ⟨s, t, .refl s, rfl, rfl, hhandler, hshort, fun _ _ _ => framed_of_lt_threshold hshort⟩
  · have hheader : s.buffer.length < typeLen m.type.value := by omega
    have htype : byteAt s.buffer 0 = m.type.value := by
      rw [← byteAt_append_left later (by omega), hstream, h.byteAt_head]
    have hne : s.buffer ≠ [] := by
      rw [← List.length_pos_iff]
      omega
    have hhandle : s.handle = (s.arm (.protocol (typeLen m.type.value)), none) := by
      rw [handle, hhandler]
      simp only [handleProtocol, if_neg hne, htype, if_pos hheader]
    have hneed : s.handler.need ≤ s.buffer.length := by
      rw [hhandler]
      exact Nat.le_of_not_lt hshort
    exact ⟨_, _, .handle hneed hhandle, rfl, rfl, rfl, hheader,
      fun _ _ _ => framed_of_lt_header (Nat.le_of_not_lt hshort) hheader⟩

/-- A parser that waits for a header. -/
theorem frames_cons (hrest : Frames ms wires) (h : Wire m head body)
    (hlast : m.type = .qemuClientMessage → wires.flatten = []) :
    Frames (m :: ms) ((head ++ body) :: wires) := by
  intro s chunks t start hhandler hpos hstream
  have hshapes : shapes (m :: ms) ((head ++ body) :: wires) =
      (m.type, head.length + body.length) :: shapes ms wires := by
    simp [shapes]
  rw [hshapes]
  rw [List.flatten_cons, List.append_assoc] at hstream
  induction chunks generalizing s t with
  | nil =>
    by_cases hle : max t (typeLen m.type.value) ≤ s.buffer.length
    · exact parses_header_iff_of_le hrest h hlast start hhandler hpos hstream hle
    · obtain ⟨s₁, t₁, hadvances, hcalls, hbuffer, hhandler₁, hshort, -⟩ :=
        exists_waiting h start hhandler hpos hstream (Nat.lt_of_not_le hle)
      rw [hadvances.parses hcalls]
      refine iff_of_false (not_parses_nil_of_short ?_) (not_framed_of_short (Nat.lt_of_not_le hle))
      rwa [hhandler₁, hbuffer]
  | cons data chunks ih =>
    by_cases hle : max t (typeLen m.type.value) ≤ s.buffer.length
    · exact parses_header_iff_of_le hrest h hlast start hhandler hpos hstream hle
    · obtain ⟨s₁, t₁, hadvances, hcalls, hbuffer, hhandler₁, hshort, hframed⟩ :=
        exists_waiting h start hhandler hpos hstream (Nat.lt_of_not_le hle)
      have hwait : s₁.buffer.length < s₁.handler.need := by rwa [hhandler₁, hbuffer]
      have hends : (start + s.buffer.length + data.length) ::
          ends (start + s.buffer.length + data.length) chunks =
          (start + (s₁.push data).buffer.length) ::
            ends (start + (s₁.push data).buffer.length) chunks := by
        simp [hbuffer, Nat.add_assoc]
      rw [hadvances.parses hcalls, parses_cons_of_short hwait, hframed, ends, hends]
      exact ih (s₁.push data) t₁ hhandler₁ (by omega) (by simpa [hbuffer] using hstream)

/-- However the messages are cut, the parser makes their calls without raising if and only if
they are framed. -/
theorem frames_of_encoded (hwires : ClientMessage.Encoded ms wires)
    (hqemu : ∀ m ∈ ms.dropLast, m.type ≠ .qemuClientMessage) : Frames ms wires := by
  induction hwires with
  | nil =>
    intro s chunks t start hhandler hpos hstream
    exact iff_of_true (parses_nil hhandler hpos hstream) trivial
  | @cons m w ms wires hencode hwires ih =>
    obtain ⟨head, body, h, rfl⟩ := ClientMessage.wire_of_encode hencode
    cases ms with
    | nil =>
      cases hwires
      exact frames_cons (ih (by simp)) h fun _ => rfl
    | cons m' ms =>
      rw [List.dropLast_cons_cons] at hqemu
      simp only [List.mem_cons, forall_eq_or_imp] at hqemu
      exact frames_cons (ih hqemu.2) h fun htype => absurd htype hqemu.1

end Messages

/-- After ClientInit, messages cut into chunks in any way make the calls they make in one chunk,
and none raises, if and only if the chunks frame them. -/
theorem receive_messages_iff {ms : List ClientMessage} {wires : List Bytes}
    (hwires : ClientMessage.Encoded ms wires)
    (hqemu : ∀ m ∈ ms.dropLast, m.type ≠ .qemuClientMessage)
    (hhandler : s.handler = .protocol 1) (hbuffer : s.buffer = [])
    (hchunks : chunks.flatten = wires.flatten) :
    (receive chunks s).1.calls = (s.dataReceived wires.flatten).1.calls ∧
        (receive chunks s).2 = [] ↔
      Framed 1 0 (ends 0 chunks) (shapes ms wires) := by
  have hone : (s.dataReceived wires.flatten).1.calls = s.calls ++ ms.map ClientMessage.call := by
    rw [dataReceived_eq_nil]
    refine ((dataReceived_nil_messages_iff hwires ?_ ?_).mpr hqemu).1
    · exact hhandler
    · simp [hbuffer]
  have hshort : s.buffer.length < s.handler.need := by simp [hbuffer, hhandler, Handler.need]
  have hframes := frames_of_encoded hwires hqemu s chunks 1 0 hhandler one_pos
    (by rw [hbuffer, hchunks, List.nil_append])
  rw [Parses, resume_of_short hshort] at hframes
  rw [hone, hframes, framed_of_lt_threshold (by simp [hbuffer])]
  simp [hbuffer]

/-- Two messages in three pieces, cut inside the second. -/
theorem receive_messages_sample :
    (receive [[2, 0], [0, 1, 0, 0, 0, 7, 248, 0], [0, 0, 0, 0, 0, 0, 1, 9]] admitted).2 = [] := by
  have hwires : ClientMessage.Encoded [.setEncodings [7], .clientFence 0 [9]]
      [[2, 0, 0, 1, 0, 0, 0, 7], [248, 0, 0, 0, 0, 0, 0, 0, 1, 9]] := .cons rfl (.cons rfl .nil)
  exact ((receive_messages_iff (s := admitted) hwires (by simp [ClientMessage.type]) rfl rfl
    rfl).mpr (by decide)).2

/-- Encodings cut between their count and their list raise. -/
theorem not_parsed_cut_encodings :
    ¬ ∀ (ms : List ClientMessage) (wires chunks : List Bytes), ClientMessage.Encoded ms wires →
      chunks.flatten = wires.flatten →
        (receive chunks admitted).1.calls = (admitted.dataReceived wires.flatten).1.calls ∧
          (receive chunks admitted).2 = [] := by
  intro h
  have hfail := h [.setEncodings [7]] [[2, 0, 0, 1, 0, 0, 0, 7]] [[2, 0, 0, 1], [0, 0, 0, 7]]
    (.cons rfl .nil) rfl
  exact absurd hfail (by decide)

end RFBServer

end VncDoTool
