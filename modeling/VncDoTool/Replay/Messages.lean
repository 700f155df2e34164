import Mathlib.Data.List.Basic
import VncDoTool.Client.Encoders

/-!
# The messages of a replay's client

How `replay.py` finds its way through what the client sends, up to the message that asks for a
framebuffer.

* `Replay.clientMessageLength`, `Replay.sawUpdateRequest`: the functions of the same names.
* `Replay.Asks`: a framebuffer has been asked for; `Replay.saw_iff_asks` and `Replay.saw_append`: what
  the second of them finds, and that what it leaves will do for the rest.
* `Replay.measures_iff`: which messages of this client the first of them measures.
-/

namespace VncDoTool

namespace Replay

/-- `NEED_MORE`. -/
def needMore : ℤ := -1

/-- `UNKNOWN_MESSAGE`. -/
def unknownMessage : ℤ := -2

/-- `client_message_length`: the size of the message at the head of a buffer that is not empty. -/
def clientMessageLength (buffer : Bytes) (h : buffer ≠ []) : ℤ :=
  let kind := (buffer.head h).toNat
  if kind = MsgC2S.setPixelFormat.value then 20
  else if kind = MsgC2S.setEncoding.value then
    if buffer.length < 4 then needMore else (4 + 4 * u16At buffer 2 : ℕ)
  else if kind = MsgC2S.framebufferUpdateRequest.value then 10
  else if kind = MsgC2S.keyEvent.value then 8
  else if kind = MsgC2S.pointerEvent.value then 6
  else if kind = MsgC2S.clientCutText.value then
    if buffer.length < 8 then needMore else (8 + u32At buffer 4 : ℕ)
  else if kind = MsgC2S.qemuClientMessage.value then
    if buffer.length < 2 then needMore
    else if byteAt buffer 1 = QemuClientMessage.extendedKeyEvent then 12
    else unknownMessage
  else unknownMessage

/-- What a measurement may come to. -/
theorem clientMessageLength_cases {P : ℤ → Prop} (buffer : Bytes) (h : buffer ≠ [])
    (hmore : P needMore) (hunknown : P unknownMessage) (hlength : ∀ n : ℕ, 4 ≤ n → P n) :
    P (clientMessageLength buffer h) := by
  have hbranch : ∀ {c : Prop} [Decidable c] {m n : ℤ}, P m → P n → P (if c then m else n) := by
    intro c _ m n hm hn
    split
    · exact hm
    · exact hn
  have htwenty : P 20 := hlength 20 (by decide)
  have hten : P 10 := hlength 10 (by decide)
  have height : P 8 := hlength 8 (by decide)
  have hsix : P 6 := hlength 6 (by decide)
  have htwelve : P 12 := hlength 12 (by decide)
  have hencodings : P (4 + 4 * u16At buffer 2 : ℕ) := hlength _ (Nat.le_add_right 4 _)
  have htext : P (8 + u32At buffer 4 : ℕ) :=
    hlength _ ((by decide : 4 ≤ 8).trans (Nat.le_add_right 8 _))
  unfold clientMessageLength
  refine hbranch htwenty (hbranch (hbranch hmore hencodings) (hbranch hten ?_))
  refine hbranch height (hbranch hsix (hbranch (hbranch hmore htext) ?_))
  exact hbranch (hbranch hmore (hbranch htwelve hunknown)) hunknown

/-- A message that can be measured is not empty. -/
theorem four_le_clientMessageLength {buffer : Bytes} {h : buffer ≠ []}
    (hunknown : clientMessageLength buffer h ≠ unknownMessage)
    (hmore : clientMessageLength buffer h ≠ needMore) : 4 ≤ clientMessageLength buffer h := by
  revert hunknown hmore
  apply clientMessageLength_cases (P := fun n => n ≠ unknownMessage → n ≠ needMore → 4 ≤ n)
  · exact fun _ hmore => absurd rfl hmore
  · exact fun hunknown => absurd rfl hunknown
  · exact fun n hn _ _ => Int.ofNat_le.mpr hn

/-- `saw_update_request`: whether a message asks for a framebuffer, and what is left behind the whole
messages up to it. -/
def sawUpdateRequest (buffer : Bytes) : Bool × Bytes :=
  if h : buffer = [] then (false, buffer)
  else
    let length := clientMessageLength buffer h
    if length = unknownMessage then (true, [])
    else if length = needMore ∨ (buffer.length : ℤ) < length then (false, buffer)
    else if (buffer.head h).toNat = MsgC2S.framebufferUpdateRequest.value then
      (true, buffer.drop length.toNat)
    else sawUpdateRequest (buffer.drop length.toNat)
termination_by buffer.length
decreasing_by
  next hunknown hmeasured _ =>
    have hfour := four_le_clientMessageLength hunknown (not_or.mp hmeasured).1
    rw [List.length_drop]
    exact Nat.sub_lt (List.length_pos_iff.mpr h) (by omega)

/-! ## Measuring -/

/-- More bytes do not change what could be measured. -/
theorem clientMessageLength_append {buffer : Bytes} (h : buffer ≠ []) (more : Bytes) :
    clientMessageLength buffer h = needMore ∨
      clientMessageLength (buffer ++ more) (List.append_ne_nil_of_left_ne_nil h more) =
        clientMessageLength buffer h := by
  have hhead : (buffer ++ more).head (List.append_ne_nil_of_left_ne_nil h more) = buffer.head h :=
    List.head_append_of_ne_nil h
  have hcount : ¬buffer.length < 4 → u16At (buffer ++ more) 2 = u16At buffer 2 :=
    fun hlong => u16At_append_left more (by omega)
  have htext : ¬buffer.length < 8 → u32At (buffer ++ more) 4 = u32At buffer 4 :=
    fun hlong => u32At_append_left more (by omega)
  have hqemu : ¬buffer.length < 2 → byteAt (buffer ++ more) 1 = byteAt buffer 1 :=
    fun hlong => byteAt_append_left more (by omega)
  have hlonger : ∀ {n}, ¬buffer.length < n → ¬(buffer ++ more).length < n := by
    intro n hlong
    rw [List.length_append]
    omega
  unfold clientMessageLength
  dsimp only
  rw [hhead]
  generalize (buffer.head h).toNat = kind
  by_cases hencodings : kind = MsgC2S.setEncoding.value
  · subst hencodings
    by_cases hshort : buffer.length < 4
    · exact .inl (if_pos hshort)
    · right
      rw [if_neg (by decide), if_pos rfl, if_neg (hlonger hshort), if_neg (by decide), if_pos rfl,
        if_neg hshort, hcount hshort]
  by_cases hcut : kind = MsgC2S.clientCutText.value
  · subst hcut
    by_cases hshort : buffer.length < 8
    · exact .inl (if_pos hshort)
    · right
      show (if (buffer ++ more).length < 8 then needMore else _) = if buffer.length < 8 then _ else _
      rw [if_neg (hlonger hshort), if_neg hshort, htext hshort]
  by_cases hclient : kind = MsgC2S.qemuClientMessage.value
  · subst hclient
    by_cases hshort : buffer.length < 2
    · exact .inl (if_pos hshort)
    · right
      show (if (buffer ++ more).length < 2 then needMore else _) = if buffer.length < 2 then _ else _
      rw [if_neg (hlonger hshort), if_neg hshort, hqemu hshort]
  · -- the length of the other messages is that of their type
    right
    rw [if_neg hencodings, if_neg hencodings, if_neg hcut, if_neg hcut, if_neg hclient,
      if_neg hclient]

/-! ## The request -/

theorem clientMessageLength_request {buffer : Bytes} {h : buffer ≠ []}
    (hkind : (buffer.head h).toNat = MsgC2S.framebufferUpdateRequest.value) :
    clientMessageLength buffer h = 10 := by
  unfold clientMessageLength
  rw [hkind]
  rfl

/-- One round of the loop, on a message that is all there. -/
theorem saw_message {buffer : Bytes} (h : buffer ≠ []) {n : ℕ}
    (hlength : clientMessageLength buffer h = n) (hall : n ≤ buffer.length) :
    sawUpdateRequest buffer =
      if (buffer.head h).toNat = MsgC2S.framebufferUpdateRequest.value then (true, buffer.drop n)
      else sawUpdateRequest (buffer.drop n) := by
  have hunknown : ¬(n : ℤ) = unknownMessage := by
    unfold unknownMessage
    omega
  have hmeasured : ¬((n : ℤ) = needMore ∨ (buffer.length : ℤ) < n) := by
    unfold needMore
    omega
  rw [sawUpdateRequest, dif_neg h]
  dsimp only
  rw [hlength, if_neg hunknown, if_neg hmeasured, Int.toNat_natCast]

/-- A message that cannot be measured lets everything through. -/
theorem saw_unknown {buffer : Bytes} (h : buffer ≠ [])
    (hunknown : clientMessageLength buffer h = unknownMessage) :
    sawUpdateRequest buffer = (true, []) := by
  rw [sawUpdateRequest, dif_neg h]
  exact if_pos hunknown

/-- What the loop leaves behind will do in place of what it was given. -/
theorem saw_append (buffer more : Bytes) :
    ((sawUpdateRequest buffer).1 = true → (sawUpdateRequest (buffer ++ more)).1 = true) ∧
      ((sawUpdateRequest buffer).1 = false →
        sawUpdateRequest (buffer ++ more) = sawUpdateRequest ((sawUpdateRequest buffer).2 ++ more)) := by
  induction buffer using sawUpdateRequest.induct with
  | case1 =>
    have hnil : sawUpdateRequest [] = (false, []) := by rw [sawUpdateRequest, dif_pos rfl]
    rw [hnil]
    exact ⟨fun hfalse => absurd hfalse (by simp), fun _ => rfl⟩
  -- A type that cannot be measured counts as a request, whatever follows it.
  | case2 buffer h length hunknown =>
    have hmore := (clientMessageLength_append h more).resolve_left fun hmore => by
      exact absurd (hunknown.symm.trans hmore) (by decide)
    rw [saw_unknown h hunknown,
      saw_unknown (List.append_ne_nil_of_left_ne_nil h more) (hmore.trans hunknown)]
    exact ⟨fun _ => rfl, fun hfalse => absurd hfalse (by simp)⟩
  | case3 buffer h length hunknown hshort =>
    have hleft : sawUpdateRequest buffer = (false, buffer) := by
      rw [sawUpdateRequest, dif_neg h]
      dsimp only
      rw [if_neg hunknown, if_pos hshort]
    rw [hleft]
    exact ⟨fun hfalse => absurd hfalse (by simp), fun _ => rfl⟩
  | case4 buffer h length hunknown hmeasured hrequest =>
    have hfour := four_le_clientMessageLength hunknown (not_or.mp hmeasured).1
    have hle := not_lt.mp (not_or.mp hmeasured).2
    have hmore := (clientMessageLength_append h more).resolve_left (not_or.mp hmeasured).1
    have hhead : (buffer ++ more).head (List.append_ne_nil_of_left_ne_nil h more) =
        buffer.head h := List.head_append_of_ne_nil h
    have hlength : length = (length.toNat : ℤ) := (Int.toNat_of_nonneg (by omega)).symm
    have hround := saw_message (List.append_ne_nil_of_left_ne_nil h more) (hmore.trans hlength) (by
      rw [List.length_append]
      omega)
    rw [hround, saw_message h hlength (by omega), if_pos hrequest, hhead, if_pos hrequest]
    exact ⟨fun _ => rfl, fun hfalse => absurd hfalse (by simp)⟩
  -- A whole message of another type is dropped on both sides.
  | case5 buffer h length hunknown hmeasured hother ih =>
    have hfour := four_le_clientMessageLength hunknown (not_or.mp hmeasured).1
    have hle := not_lt.mp (not_or.mp hmeasured).2
    have hmore := (clientMessageLength_append h more).resolve_left (not_or.mp hmeasured).1
    have hhead : (buffer ++ more).head (List.append_ne_nil_of_left_ne_nil h more) =
        buffer.head h := List.head_append_of_ne_nil h
    have hlength : length = (length.toNat : ℤ) := (Int.toNat_of_nonneg (by omega)).symm
    have hround := saw_message (List.append_ne_nil_of_left_ne_nil h more) (hmore.trans hlength) (by
      rw [List.length_append]
      omega)
    rw [hround, saw_message h hlength (by omega), if_neg hother, hhead, if_neg hother,
      List.drop_append_of_le_length (by omega)]
    exact ih

/-- Behind whole messages there is a FramebufferUpdateRequest, or a message that cannot be
measured. -/
inductive Asks : Bytes → Prop
  | request {message rest : Bytes} (hlength : message.length = 10)
      (hkind : byteAt message 0 = MsgC2S.framebufferUpdateRequest.value) : Asks (message ++ rest)
  | unmeasurable {buffer : Bytes} (h : buffer ≠ [])
      (hunknown : clientMessageLength buffer h = unknownMessage) : Asks buffer
  | behind {message rest : Bytes} (h : message ++ rest ≠ [])
      (hlength : clientMessageLength (message ++ rest) h = message.length) (hrest : Asks rest) :
      Asks (message ++ rest)

/-- The loop finds the request exactly where there is one. -/
theorem saw_iff_asks (buffer : Bytes) : (sawUpdateRequest buffer).1 = true ↔ Asks buffer := by
  constructor
  · induction buffer using sawUpdateRequest.induct with
    | case1 =>
      intro hsaw
      rw [sawUpdateRequest, dif_pos rfl] at hsaw
      exact absurd hsaw (by simp)
    | case2 buffer h length hunknown => exact fun _ => .unmeasurable h hunknown
    | case3 buffer h length hunknown hshort =>
      intro hsaw
      rw [sawUpdateRequest, dif_neg h] at hsaw
      dsimp only at hsaw
      rw [if_neg hunknown, if_pos hshort] at hsaw
      exact absurd hsaw (by simp)
    | case4 buffer h length hunknown hmeasured hrequest =>
      intro _
      have hten := clientMessageLength_request hrequest
      have hle := not_lt.mp (not_or.mp hmeasured).2
      rw [← List.take_append_drop 10 buffer]
      refine .request (List.length_take_of_le (by omega)) ?_
      obtain ⟨b, rest, rfl⟩ := List.exists_cons_of_ne_nil h
      exact hrequest
    | case5 buffer h length hunknown hmeasured hother ih =>
      intro hsaw
      have hfour := four_le_clientMessageLength hunknown (not_or.mp hmeasured).1
      have hle := not_lt.mp (not_or.mp hmeasured).2
      have hlength : length = (length.toNat : ℤ) := (Int.toNat_of_nonneg (by omega)).symm
      rw [saw_message h hlength (by omega), if_neg hother] at hsaw
      have hasks := ih hsaw
      have hsplit := List.take_append_drop length.toNat buffer
      have htake : (buffer.take length.toNat).length = length.toNat :=
        List.length_take_of_le (by omega)
      have hmessage : ∀ h', clientMessageLength
          (buffer.take length.toNat ++ buffer.drop length.toNat) h' =
            (buffer.take length.toNat).length := by
        rw [hsplit, htake]
        exact fun _ => hlength
      rw [← hsplit]
      exact .behind (hsplit.symm ▸ h) (hmessage _) hasks
  · -- And back, by the grammar of what asks.
    intro hasks
    induction hasks with
    | @request message rest hlength hkind =>
      obtain ⟨b, tail, rfl⟩ := List.exists_cons_of_length_pos (l := message) (by omega)
      have hhead : ((b :: tail ++ rest).head (List.cons_ne_nil _ _)).toNat =
          MsgC2S.framebufferUpdateRequest.value := hkind
      rw [saw_message (n := 10) _ (clientMessageLength_request hhead)
        (by rw [List.length_append]; omega), if_pos hhead]
    | unmeasurable h hunknown => rw [saw_unknown h hunknown]
    | behind h hlength _ ih =>
      rw [saw_message h hlength (by rw [List.length_append]; omega), List.drop_left]
      split
      · rfl
      · exact ih

instance (buffer : Bytes) : Decidable (Asks buffer) :=
  decidable_of_iff _ (saw_iff_asks buffer)

/-! ## The messages of this client -/

theorem length_flatten_beInt32 (encodings : List ℤ) :
    (encodings.map beInt32).flatten.length = 4 * encodings.length := by
  induction encodings with
  | nil => rfl
  | cons e encodings ih =>
    rw [List.map_cons, List.flatten_cons, List.length_append, length_beInt32, ih, List.length_cons]
    omega

/-- What is made of the bytes of a message, whatever follows them. -/
theorem clientMessageLength_wire {m : ClientMessage} {head body : Bytes}
    (hwire : ClientMessage.Wire m head body) (rest : Bytes) (h : head ++ body ++ rest ≠ []) :
    clientMessageLength (head ++ body ++ rest) h =
      if m.type = .clientFence then unknownMessage else (head ++ body).length := by
  cases hwire with
  | setPixelFormat block =>
    have hlength : ([0, 0, 0, 0] ++ block.bytes ++ []).length = 20 := by simp
    rw [hlength]
    rfl
  -- The count in front says how many four-byte encodings follow.
  | @setEncodings encodings hcount hrange =>
    have hlength : ([2, 0] ++ be16 encodings.length ++ (encodings.map beInt32).flatten).length =
        4 + 4 * encodings.length := by
      rw [List.length_append, length_flatten_beInt32]
      rfl
    have hread : u16At ([2, 0] ++ be16 encodings.length ++ (encodings.map beInt32).flatten ++ rest)
        2 = encodings.length := by
      rw [List.append_assoc, List.append_assoc]
      exact u16At_be16 hcount ((encodings.map beInt32).flatten ++ rest)
    rw [hlength]
    show ((4 + 4 * u16At _ 2 : ℕ) : ℤ) = (4 + 4 * encodings.length : ℕ)
    rw [hread]
  | framebufferUpdateRequest incremental hx hy hw hh hwidth hheight => rfl
  | keyEvent hkey down => rfl
  | pointerEvent hx hy hbuttonmask => rfl
  | @clientCutText message hlatin hlength =>
    have htotal : ([6, 0, 0, 0] ++ be32 message.toList.length ++
        message.toList.map (fun c : Char => UInt8.ofNat c.toNat)).length = 8 + message.toList.length := by
      rw [List.length_append, List.length_map]
      rfl
    have hread : u32At ([6, 0, 0, 0] ++ be32 message.toList.length ++
        message.toList.map (fun c : Char => UInt8.ofNat c.toNat) ++ rest) 4 = message.toList.length := by
      rw [List.append_assoc, List.append_assoc]
      exact u32At_be32 hlength (message.toList.map (fun c : Char => UInt8.ofNat c.toNat) ++ rest)
    rw [htotal]
    show ((8 + u32At _ 4 : ℕ) : ℤ) = (8 + message.toList.length : ℕ)
    rw [hread]
  -- A fence is not among the types the replay measures.
  | clientFence hflags hlength => rfl
  | qemuExtendedKeyEvent hdownFlag hkeysym hkeycode => rfl

/-- A message of this client is measured, and each of its beginnings is found to be one, if and only if
it is no fence. -/
theorem measures_iff {m : ClientMessage} {wire : Bytes} (hm : m.encode = .ok wire) :
    ((∀ rest h, clientMessageLength (wire ++ rest) h = wire.length) ∧
      ∀ start (h : start ≠ []), start <+: wire → start ≠ wire →
        clientMessageLength start h = needMore ∨ (start.length : ℤ) < clientMessageLength start h) ↔
      m.type ≠ .clientFence := by
  obtain ⟨head, body, hwire, rfl⟩ := ClientMessage.wire_of_encode hm
  have hmeasured := clientMessageLength_wire hwire
  have hne : head ++ body ≠ [] := by cases hwire <;> simp
  constructor
  · rintro ⟨hall, -⟩ hfence
    have hlength := hall [] (by simpa using hne)
    rw [hmeasured, if_pos hfence] at hlength
    unfold unknownMessage at hlength
    omega
  · intro hother
    have hall : ∀ rest h, clientMessageLength (head ++ body ++ rest) h = (head ++ body).length := by
      intro rest h
      rw [hmeasured, if_neg hother]
    refine ⟨hall, fun start h hprefix hproper => ?_⟩
    -- what could be measured of a beginning is the length of the whole
    obtain ⟨rest, hrest⟩ := hprefix
    have hshorter : start.length < (head ++ body).length := by
      have hrest' : rest ≠ [] := by
        rintro rfl
        exact hproper (by rw [← hrest, List.append_nil])
      have hpos := List.length_pos_iff.mpr hrest'
      rw [← hrest, List.length_append]
      omega
    have hwhole : ∀ h', clientMessageLength (start ++ rest) h' = (head ++ body).length := by
      rw [hrest, ← List.append_nil (head ++ body)]
      intro h'
      rw [hall [] h', List.append_nil]
    rcases clientMessageLength_append h rest with hmore | hsame
    · exact .inl hmore
    · right
      rw [← hsame, hwhole]
      exact Int.ofNat_lt.mpr hshorter

/-- A beginning of a key event. -/
theorem measures_key : clientMessageLength [4, 1, 0, 0, 0] (List.cons_ne_nil _ _) = needMore ∨
    (5 : ℤ) < clientMessageLength [4, 1, 0, 0, 0] (List.cons_ne_nil _ _) := by
  have hkey : (ClientMessage.keyEvent 97 true).encode = .ok [4, 1, 0, 0, 0, 0, 0, 97] := by rfl
  exact ((measures_iff hkey).mpr (by decide)).2 [4, 1, 0, 0, 0] (List.cons_ne_nil _ _)
    (by decide) (by decide)

/-- The replay finds no length in a fence, and takes it for a request. -/
theorem measures_no_fence :
    (ClientMessage.clientFence 1 [7]).encode = .ok [248, 0, 0, 0, 0, 0, 0, 1, 1, 7] ∧
      clientMessageLength [248, 0, 0, 0, 0, 0, 0, 1, 1, 7] (List.cons_ne_nil _ _) ≠ 10 ∧
      sawUpdateRequest [248, 0, 0, 0, 0, 0, 0, 1, 1, 7] = (true, []) := by
  refine ⟨rfl, by decide, saw_unknown (List.cons_ne_nil _ _) rfl⟩

end Replay

end VncDoTool
