import VncDoTool.Proxy.Segmentation

/-!
# When a message is handled

Whether the proxy's parser handles every message of fixed length in the call that delivers its last
byte. It does not where a message was cut before: the threshold its header has raised is never taken
back, and a shorter message behind it waits for bytes of the next one.

* `FixedMessage`: a message of fixed length, with any bytes in its fields.
* `complete`: the messages all of whose bytes are among the first so many.
* `Prompt`: the condition on where the calls end, in terms of the lengths of the messages only.
* `prompt_of_short`, `prompt_of_raised`, `prompt_of_taken`: the condition along the loop.
* `receive_prompt_iff`: every complete message is handled after every call exactly under it.
-/

namespace VncDoTool

/-! ## Messages of fixed length -/

/-- A message of fixed length: what stands behind its type. -/
inductive FixedMessage : Type
  | setPixelFormat (padding : Block 3) (pixelFormat : Block 16)
  | framebufferUpdateRequest (fields : Block 9)
  | keyEvent (fields : Block 7)
  | pointerEvent (fields : Block 5)

namespace FixedMessage

/-- Its type. -/
def type : FixedMessage → MsgC2S
  | .setPixelFormat .. => .setPixelFormat
  | .framebufferUpdateRequest _ => .framebufferUpdateRequest
  | .keyEvent _ => .keyEvent
  | .pointerEvent _ => .pointerEvent

/-- What stands behind its type. -/
def body : FixedMessage → Bytes
  | .setPixelFormat padding pixelFormat => padding.bytes ++ pixelFormat.bytes
  | .framebufferUpdateRequest fields => fields.bytes
  | .keyEvent fields => fields.bytes
  | .pointerEvent fields => fields.bytes

/-- Its bytes. -/
def bytes (m : FixedMessage) : Bytes := UInt8.ofNat m.type.value :: m.body

/-- The callback it asks for. -/
def call : FixedMessage → Callback
  | .setPixelFormat _ pixelFormat => .setPixelFormat (.fromBytes pixelFormat)
  | .framebufferUpdateRequest fields =>
    .framebufferUpdate (u16At fields.bytes 1) (u16At fields.bytes 3) (u16At fields.bytes 5)
      (u16At fields.bytes 7) (byteAt fields.bytes 0)
  | .keyEvent fields => .keyEvent (u32At fields.bytes 3) (byteAt fields.bytes 0)
  | .pointerEvent fields =>
    .pointerEvent (u16At fields.bytes 1) (u16At fields.bytes 3) (byteAt fields.bytes 0)

/-- It is as long as the parser expects. -/
theorem length_bytes (m : FixedMessage) : m.bytes.length = typeLen m.type.value := by
  cases m with
  | setPixelFormat padding pixelFormat => simp [bytes, body, type, typeLen]
  | framebufferUpdateRequest fields => simp [bytes, body, type, typeLen]
  | keyEvent fields => simp [bytes, body, type, typeLen]
  | pointerEvent fields => simp [bytes, body, type, typeLen]

theorem byteAt_bytes (m : FixedMessage) (rest : Bytes) :
    byteAt (m.bytes ++ rest) 0 = m.type.value := by
  cases m <;> rfl

/-- The handler of its type makes the call. -/
theorem handleMessage_body (m : FixedMessage) (offset : ℕ) (s : RFBServer) :
    RFBServer.handleMessage offset m.type m.body s = (s.callback offset m.call, none) := by
  cases m with
  | setPixelFormat padding pixelFormat =>
    have hbody : (setPixelFormat padding pixelFormat).body.drop 3 = pixelFormat.bytes :=
      List.drop_left' padding.2
    have hlen : 16 ≤ ((setPixelFormat padding pixelFormat).body.drop 3).length := by
      rw [hbody, pixelFormat.length_bytes]
    have hblock :
        Block.ofPrefix 16 ((setPixelFormat padding pixelFormat).body.drop 3) hlen = pixelFormat := by
      apply Block.ext
      simp only [Block.ofPrefix, Block.bytes_mk, hbody]
      exact List.take_of_length_le pixelFormat.2.le
    refine (dif_pos hlen).trans ?_
    rw [hblock]
    rfl
  | framebufferUpdateRequest fields => rfl
  | keyEvent fields => rfl
  | pointerEvent fields => rfl

end FixedMessage

namespace RFBServer

/-! ## Where calls may end -/

/-- The bytes of messages, one after the other. -/
def wire (ms : List FixedMessage) : Bytes := (ms.map FixedMessage.bytes).flatten

/-- The messages all of whose bytes are among the first `n`. -/
def complete : (n : ℕ) → List FixedMessage → List FixedMessage
  | _, [] => []
  | n, m :: ms => if m.bytes.length ≤ n then m :: complete (n - m.bytes.length) ms else []

/-- Whether calls that end at `ends` hold up none of the messages that have these lengths and start
at `start`, when the parser waits for `threshold` bytes of the first. The call that brings the last
byte of a message must also reach the threshold, counted from where the message starts. A call that
ends inside a message and reaches the threshold raises it to the length of that message, for good. -/
def Prompt : (threshold start : ℕ) → (ends lengths : List ℕ) → Prop
  | _, _, _, [] => True
  | threshold, start, ends, length :: lengths =>
    let raised := ∃ e ∈ ends, start + threshold ≤ e ∧ e < start + length
    let later := ends.dropWhile (· < start + length)
    (∀ e ∈ later.head?, start + threshold ≤ e) ∧
      Prompt (if raised then length else threshold) (start + length) later lengths

instance decidablePrompt : ∀ threshold start ends lengths,
    Decidable (Prompt threshold start ends lengths)
  | _, _, _, [] => isTrue trivial
  | _, _, _, _ :: lengths =>
    have := fun threshold start ends => decidablePrompt threshold start ends lengths
    inferInstanceAs (Decidable (_ ∧ _))

section Prompt

variable {threshold start received length : ℕ} {later lengths : List ℕ}

/-- Where no call ends any more nothing is held up. -/
theorem prompt_nil : Prompt threshold start [] lengths := by
  induction lengths generalizing threshold start with
  | nil => trivial
  | cons length lengths ih => exact ⟨by simp, ih⟩

/-- An end inside the first message that does not reach the threshold changes nothing. -/
theorem prompt_of_short (h : received < threshold) (hlength : received < length) :
    Prompt threshold start ((start + received) :: later) (length :: lengths) ↔
      Prompt threshold start later (length :: lengths) := by
  have hdrop : start + received < start + length := by omega
  have hno : ¬ start + threshold ≤ start + received := by omega
  simp only [Prompt, List.dropWhile_cons, hdrop, decide_true, if_true, List.exists_mem_cons_iff,
    hno, false_and, false_or]

/-- An end inside the first message that reaches the threshold raises it. -/
theorem prompt_of_raised (h : threshold ≤ received) (hlength : received < length) :
    Prompt threshold start ((start + received) :: later) (length :: lengths) ↔
      Prompt length start later (length :: lengths) := by
  have hdrop : start + received < start + length := by omega
  have hyes : start + threshold ≤ start + received := by omega
  have hno : ¬ ∃ e ∈ later, start + length ≤ e ∧ e < start + length := by
    rintro ⟨e, -, hle, hlt⟩
    omega
  have hhead : ∀ e ∈ (later.dropWhile (· < start + length)).head?, start + length ≤ e := by
    intro e he
    have hkeep := List.head?_dropWhile_not (· < start + length) later
    rw [Option.mem_def.mp he] at hkeep
    simpa using hkeep
  have hhead' : ∀ e ∈ (later.dropWhile (· < start + length)).head?, start + threshold ≤ e := by
    intro e he
    have := hhead e he
    omega
  simp only [Prompt, List.dropWhile_cons, hdrop, decide_true, if_true, List.exists_mem_cons_iff,
    hyes, and_self, true_or, hno, ite_self]
  exact ⟨fun hprompt => ⟨hhead, hprompt.2⟩, fun hprompt => ⟨hhead', hprompt.2⟩⟩

/-- An end behind the first message has to reach the threshold, and is one for the messages behind
it, too. -/
theorem prompt_of_taken (hlength : length ≤ received) (hlater : ∀ e ∈ later, start + received ≤ e) :
    Prompt threshold start ((start + received) :: later) (length :: lengths) ↔
      threshold ≤ received ∧
        Prompt threshold (start + length) ((start + received) :: later) lengths := by
  have hkeep : ¬ start + received < start + length := by omega
  have hno : ¬ ∃ e ∈ (start + received) :: later, start + threshold ≤ e ∧ e < start + length := by
    rintro ⟨e, he, -, hlt⟩
    rcases List.mem_cons.mp he with rfl | he
    · omega
    · have := hlater e he
      omega
  simp only [Prompt, List.dropWhile_cons, hkeep, decide_false, if_neg hno, Bool.false_eq_true,
    if_false, List.head?_cons, Option.mem_some_iff, forall_eq', Nat.add_le_add_iff_left]

end Prompt

/-! ## Handling what is complete -/

variable {s : RFBServer} {m : FixedMessage} {ms : List FixedMessage} {chunks : List Bytes}

/-- Resumed with any of the chunks, the parser has handled every complete message. -/
def Timely (s : RFBServer) (chunks : List Bytes) (ms : List FixedMessage) : Prop :=
  ∀ received, received <+: chunks →
    (s.resume received).1.calls =
      s.calls ++ (complete (s.buffer ++ received.flatten).length ms).map FixedMessage.call

/-- A message at the front of the buffer is taken where the threshold is reached. -/
theorem takes_fixed {t : ℕ} {rest : Bytes} (hhandler : s.handler = .protocol t)
    (ht : t ≤ s.buffer.length) (hbuffer : s.buffer = m.bytes ++ rest) :
    ∃ s', Takes m.call m.bytes.length s s' ∧ s'.handler = .protocol t := by
  have htype := m.byteAt_bytes rest
  have hlen := m.length_bytes
  have hne : s.buffer ≠ [] := by simp [hbuffer, FixedMessage.bytes]
  have hlong : ¬ s.buffer.length < m.bytes.length := by
    rw [hbuffer, List.length_append]
    omega
  have hbody : (s.buffer.take m.bytes.length).drop 1 = m.body := by
    rw [hbuffer, List.take_left]
    rfl
  have hhandle : s.handle = (callback s.consumed m.call (s.delete m.bytes.length), none) := by
    rw [handle, hhandler]
    simp only
    rw [handleProtocol, if_neg hne]
    simp only [hbuffer ▸ htype, ← hlen, if_neg hlong, MsgC2S.lookup_value, hbody]
    exact m.handleMessage_body s.consumed (s.delete m.bytes.length)
  exact ⟨_, ⟨.handle (by rwa [hhandler]) hhandle, by simp, by simp⟩, by simpa using hhandler⟩

/-- An incomplete message that reaches the threshold raises it. -/
theorem advances_raised {t : ℕ} {rest : Bytes} (hhandler : s.handler = .protocol t) (hpos : 0 < t)
    (ht : t ≤ s.buffer.length) (hlt : s.buffer.length < m.bytes.length)
    (hstream : s.buffer ++ rest = m.bytes ++ wire ms) :
    Advances s (s.arm (.protocol m.bytes.length)) := by
  have hne : s.buffer ≠ [] := by
    rw [← List.length_pos_iff]
    omega
  have htype : byteAt s.buffer 0 = m.type.value := by
    rw [← byteAt_append_left rest (by omega), hstream, m.byteAt_bytes]
  refine .handle (by rwa [hhandler]) ?_
  rw [handle, hhandler]
  simp only [handleProtocol, if_neg hne, htype, ← m.length_bytes, if_pos hlt]

/-- A parser that waits has handled what is complete if nothing is. -/
theorem timely_of_short {data : Bytes} (h : s.buffer.length < s.handler.need)
    (hlt : s.buffer.length < m.bytes.length) :
    Timely s (data :: chunks) (m :: ms) ↔ Timely (s.push data) chunks (m :: ms) := by
  have hnone : complete s.buffer.length (m :: ms) = [] := if_neg (by omega)
  constructor
  · intro htimely received hprefix
    have hnow := htimely (data :: received) (List.cons_prefix_cons.mpr ⟨rfl, hprefix⟩)
    rw [resume_of_short h, receive_cons] at hnow
    simpa [List.append_assoc] using hnow
  · intro htimely received hprefix
    cases received with
    | nil =>
      rw [resume_of_short h]
      simp [receive, hnone]
    | cons data' received =>
      obtain ⟨rfl, hrest⟩ := List.cons_prefix_cons.mp hprefix
      have hlater := htimely received hrest
      rw [resume_of_short h, receive_cons, hlater]
      simp [List.append_assoc]

/-- A waiting parser that is given nothing more. -/
theorem timely_nil_of_short (h : s.buffer.length < s.handler.need)
    (hlt : s.buffer.length < m.bytes.length) : Timely s [] (m :: ms) := by
  intro received hprefix
  obtain rfl := List.prefix_nil.mp hprefix
  have hnone : complete s.buffer.length (m :: ms) = [] := if_neg (by omega)
  rw [resume_of_short h]
  simp [receive, hnone]

/-- A complete message that is below the threshold is held up. -/
theorem not_timely_of_short (h : s.buffer.length < s.handler.need)
    (hle : m.bytes.length ≤ s.buffer.length) : ¬ Timely s chunks (m :: ms) := by
  intro htimely
  have hnow := htimely [] (List.nil_prefix)
  rw [resume_of_short h] at hnow
  simp [receive, complete, hle] at hnow

/-- A complete message that is taken leaves the rest to the messages behind it. -/
theorem Takes.timely {s' : RFBServer} (h : Takes m.call m.bytes.length s s')
    (hle : m.bytes.length ≤ s.buffer.length) : Timely s chunks (m :: ms) ↔ Timely s' chunks ms := by
  refine forall₂_congr fun received _ => ?_
  have hcount : (s.buffer ++ received.flatten).length - m.bytes.length =
      (s'.buffer ++ received.flatten).length := by
    rw [h.buffer, List.length_append, List.length_append, List.length_drop]
    omega
  have hcomplete : complete (s.buffer ++ received.flatten).length (m :: ms) =
      m :: complete (s'.buffer ++ received.flatten).length ms := by
    rw [complete, if_pos (by rw [List.length_append]; omega), hcount]
  rw [hcomplete, h.advances.resume_eq, h.calls, List.map_cons, List.append_assoc,
    List.singleton_append]

theorem Advances.timely {s' : RFBServer} (h : Advances s s') (hcalls : s'.calls = s.calls)
    (hbuffer : s'.buffer = s.buffer) : Timely s chunks ms ↔ Timely s' chunks ms := by
  refine forall₂_congr fun received _ => ?_
  rw [h.resume_eq, hcalls, hbuffer]

/-- Without messages there is nothing to handle. -/
theorem timely_of_nil {t : ℕ} (hhandler : s.handler = .protocol t) (hpos : 0 < t)
    (hstream : s.buffer ++ chunks.flatten = []) : Timely s chunks [] := by
  intro received hprefix
  rw [List.append_eq_nil_iff] at hstream
  have hshort : s.buffer.length < s.handler.need := by
    rw [hstream.1, hhandler]
    exact hpos
  obtain ⟨more, rfl⟩ := hprefix
  rw [List.flatten_append, List.append_eq_nil_iff] at hstream
  rw [resume_of_short hshort, receive_of_flatten_nil hshort hstream.2.1]
  simp [complete]

/-- Where the parser stands between two messages, and what it has to do with where the calls end. -/
def Punctual (ms : List FixedMessage) : Prop :=
  ∀ (s : RFBServer) (chunks : List Bytes) (t start : ℕ), s.handler = .protocol t → 0 < t →
    s.buffer ++ chunks.flatten <+: wire ms →
      (Timely s chunks ms ↔
        Prompt t start ((start + s.buffer.length) :: ends (start + s.buffer.length) chunks)
          (ms.map fun m => m.bytes.length))

/-- A complete message is taken, or held up. -/
theorem punctual_of_le (hrest : Punctual ms) {t : ℕ} (start : ℕ) (hhandler : s.handler = .protocol t)
    (hpos : 0 < t) (hstream : s.buffer ++ chunks.flatten <+: wire (m :: ms))
    (hle : m.bytes.length ≤ s.buffer.length) :
    Timely s chunks (m :: ms) ↔
      Prompt t start ((start + s.buffer.length) :: ends (start + s.buffer.length) chunks)
        ((m :: ms).map fun m => m.bytes.length) := by
  obtain ⟨more, hmore⟩ := hstream
  have hwire : m.bytes ++ wire ms = s.buffer ++ (chunks.flatten ++ more) := by
    rw [← List.append_assoc, hmore]
    rfl
  obtain ⟨rest, hbuffer, hwires⟩ := exists_append_of_length_le hwire.symm hle
  have hlater : ∀ e ∈ ends (start + s.buffer.length) chunks, start + s.buffer.length ≤ e :=
    fun e he => le_of_mem_ends he
  rw [List.map_cons, prompt_of_taken hle hlater]
  by_cases ht : t ≤ s.buffer.length
  · obtain ⟨s', htakes, hhandler'⟩ := takes_fixed hhandler ht hbuffer
    have hbuffer' : s'.buffer = rest := by
      rw [htakes.buffer, hbuffer, List.drop_left]
    have hlen : start + s.buffer.length = start + m.bytes.length + s'.buffer.length := by
      rw [hbuffer', hbuffer, List.length_append]
      omega
    have hstream' : s'.buffer ++ chunks.flatten <+: wire ms :=
      ⟨more, by rw [hbuffer', List.append_assoc, hwires]⟩
    rw [htakes.timely hle, hrest s' chunks t (start + m.bytes.length) hhandler' hpos hstream', hlen]
    exact ⟨fun h => ⟨ht, h⟩, fun h => h.2⟩
  · have hshort : s.buffer.length < s.handler.need := by
      rw [hhandler]
      exact Nat.lt_of_not_le ht
    exact iff_of_false (not_timely_of_short hshort hle) fun h => ht h.1

/-- A parser that lacks bytes of its next message waits, at the threshold it had or at one raised to
the length of the message. -/
theorem exists_waiting_fixed {t : ℕ} (start : ℕ) (hhandler : s.handler = .protocol t) (hpos : 0 < t)
    (hstream : s.buffer ++ chunks.flatten <+: wire (m :: ms))
    (hlt : s.buffer.length < m.bytes.length) :
    ∃ s₁ t₁, Advances s s₁ ∧ s₁.calls = s.calls ∧ s₁.buffer = s.buffer ∧
      s₁.handler = .protocol t₁ ∧ s.buffer.length < t₁ ∧
      ∀ later lengths,
        Prompt t start ((start + s.buffer.length) :: later) (m.bytes.length :: lengths) ↔
          Prompt t₁ start later (m.bytes.length :: lengths) := by
  by_cases hshort : s.buffer.length < t
  · exact ⟨s, t, .refl s, rfl, rfl, hhandler, hshort, fun _ _ => prompt_of_short hshort hlt⟩
  · have ht := Nat.le_of_not_lt hshort
    obtain ⟨more, hmore⟩ := hstream
    have hwhole : s.buffer ++ (chunks.flatten ++ more) = m.bytes ++ wire ms := by
      rw [← List.append_assoc, hmore]
      rfl
    have hraised := advances_raised hhandler hpos ht hlt hwhole
    exact ⟨_, _, hraised, rfl, rfl, rfl, hlt, fun _ _ => prompt_of_raised ht hlt⟩

/-- A parser that waits for its next message. -/
theorem punctual_cons (hrest : Punctual ms) : Punctual (m :: ms) := by
  intro s chunks t start hhandler hpos hstream
  induction chunks generalizing s t with
  | nil =>
    by_cases hle : m.bytes.length ≤ s.buffer.length
    · exact punctual_of_le hrest start hhandler hpos hstream hle
    · obtain ⟨s₁, t₁, hadvances, hcalls, hbuffer, hhandler₁, hshort, hprompt⟩ :=
        exists_waiting_fixed start hhandler hpos hstream (Nat.lt_of_not_le hle)
      have hwait : s₁.buffer.length < s₁.handler.need := by rwa [hhandler₁, hbuffer]
      rw [hadvances.timely hcalls hbuffer, List.map_cons, ends, hprompt]
      exact iff_of_true (timely_nil_of_short hwait (hbuffer ▸ Nat.lt_of_not_le hle)) prompt_nil
  | cons data chunks ih =>
    by_cases hle : m.bytes.length ≤ s.buffer.length
    · exact punctual_of_le hrest start hhandler hpos hstream hle
    · obtain ⟨s₁, t₁, hadvances, hcalls, hbuffer, hhandler₁, hshort, hprompt⟩ :=
        exists_waiting_fixed start hhandler hpos hstream (Nat.lt_of_not_le hle)
      have hwait : s₁.buffer.length < s₁.handler.need := by rwa [hhandler₁, hbuffer]
      have hends : (start + s.buffer.length + data.length) ::
          ends (start + s.buffer.length + data.length) chunks =
          (start + (s₁.push data).buffer.length) ::
            ends (start + (s₁.push data).buffer.length) chunks := by
        simp [hbuffer, Nat.add_assoc]
      rw [hadvances.timely hcalls hbuffer,
        timely_of_short hwait (hbuffer ▸ Nat.lt_of_not_le hle), List.map_cons,
        hprompt, ends, hends]
      exact ih (s₁.push data) t₁ hhandler₁ (by omega)
        (by simpa [hbuffer, List.append_assoc] using hstream)

theorem punctual (ms : List FixedMessage) : Punctual ms := by
  induction ms with
  | nil =>
    intro s chunks t start hhandler hpos hstream
    exact iff_of_true (timely_of_nil hhandler hpos (List.prefix_nil.mp hstream)) trivial
  | cons m ms ih => exact punctual_cons ih

/-- However messages of fixed length are cut, and however many of them have come: after each call
the parser has handled every message all of whose bytes were delivered, if and only if the calls
hold up none of them. -/
theorem receive_prompt_iff (hhandler : s.handler = .protocol 1) (hbuffer : s.buffer = [])
    (hstream : chunks.flatten <+: wire ms) :
    (∀ received, received <+: chunks →
      (receive received s).1.calls =
        s.calls ++ (complete received.flatten.length ms).map FixedMessage.call) ↔
      Prompt 1 0 (ends 0 chunks) (ms.map fun m => m.bytes.length) := by
  have hshort : s.buffer.length < s.handler.need := by simp [hbuffer, hhandler, Handler.need]
  have hpunctual := punctual ms s chunks 1 0 hhandler one_pos (by simpa [hbuffer] using hstream)
  have htimely : Timely s chunks ms ↔ ∀ received, received <+: chunks →
      (receive received s).1.calls =
        s.calls ++ (complete received.flatten.length ms).map FixedMessage.call := by
    refine forall₂_congr fun received _ => ?_
    rw [resume_of_short hshort, hbuffer, List.nil_append]
  rw [← htimely, hpunctual, hbuffer]
  cases ms with
  | nil => exact iff_of_true trivial trivial
  | cons m ms =>
    have hpositive : 0 < m.bytes.length := Nat.succ_pos _
    simp only [List.length_nil, Nat.add_zero, List.map_cons]
    have hnone : 0 < 1 := one_pos
    exact prompt_of_short hnone hpositive

/-- A pointer event cut after its header byte, and a longer message behind it. -/
theorem receive_prompt_sample :
    (receive [[5], [1, 0, 9, 0, 7], [4, 1, 0, 0, 0, 0, 0, 97]] admitted).1.calls =
      [.clientInit 1, .pointerEvent 9 7 1, .keyEvent 97 1] := by
  let pointer : FixedMessage := .pointerEvent (.of [1, 0, 9, 0, 7] rfl)
  let key : FixedMessage := .keyEvent (.of [1, 0, 0, 0, 0, 0, 97] rfl)
  have hprompt := (@receive_prompt_iff admitted [pointer, key]
    [[5], [1, 0, 9, 0, 7], [4, 1, 0, 0, 0, 0, 0, 97]] rfl rfl (List.prefix_refl _)).mpr (by decide)
  exact hprompt _ (List.prefix_refl _)

/-- A key event behind a pixel format that was cut is held up. -/
theorem not_prompt_behind_cut :
    ¬ ∀ (ms : List FixedMessage) (chunks : List Bytes), chunks.flatten <+: wire ms →
      ∀ received, received <+: chunks →
        (receive received admitted).1.calls =
          admitted.calls ++ (complete received.flatten.length ms).map FixedMessage.call := by
  intro h
  let format : FixedMessage := .setPixelFormat (.of [0, 0, 0] rfl)
    (.of [32, 24, 0, 1, 0, 255, 0, 255, 0, 255, 0, 8, 16, 0, 0, 0] rfl)
  let key : FixedMessage := .keyEvent (.of [1, 0, 0, 0, 0, 0, 97] rfl)
  have hfail := h [format, key]
    [[0], [0, 0, 0, 32, 24, 0, 1, 0, 255, 0, 255, 0, 255, 0, 8, 16, 0, 0, 0],
      [4, 1, 0, 0, 0, 0, 0, 97]] (List.prefix_refl _) _ (List.prefix_refl _)
  exact absurd hfail (by decide)

end RFBServer

end VncDoTool
