import VncDoTool.Client.Framing

/-!
# What a connected server sends

The messages of a server behind its name, as it writes them, and what a client makes of any list of them.

* `ServerMessage`: the messages; `ServerMessage.serialise`: their bytes.
* `ServerMessage.WellFormed`: the client will not refuse it; `ServerMessage.events`: what it denotes.
* `RFBClient.takes_serverMessage`: a message is taken whole.
* `RFBClient.session_framing`: a list of messages, however its bytes are cut.
-/

namespace VncDoTool

/-- A message behind the name of the server. -/
inductive ServerMessage : Type where
  /-- An update, and what it announces beyond its rectangles where a LastRect ends it early. -/
  | framebufferUpdate (padding : UInt8) (rects : List (Rect × RectangleBody))
      (last : Option (ℕ × Rect))
  | setColourMapEntries (padding : UInt8) (first : ℕ) (colours : List (ℕ × ℕ × ℕ))
  | bell
  | cutText (padding : UInt8 × UInt8 × UInt8) (text : Bytes)
  | fence (padding : UInt8 × UInt8 × UInt8) (flags : ℕ) (payload : Bytes)

namespace ServerMessage

/-- The number of rectangles in the head of an update. -/
def declared (rects : List (Rect × RectangleBody)) : Option (ℕ × Rect) → ℕ
  | none => rects.length
  | some (beyond, _) => rects.length + beyond

/-- The bytes of a rectangle. -/
def serialiseRect (entry : Rect × RectangleBody) : Bytes :=
  RFBClient.rectangleHead entry.1 entry.2.encoding ++ entry.2.serialise

/-- The bytes of a colour. -/
def serialiseColour (colour : ℕ × ℕ × ℕ) : Bytes := be16 colour.1 ++ (be16 colour.2.1 ++ be16 colour.2.2)

/-- The bytes of a message. -/
def serialise : ServerMessage → Bytes
  | framebufferUpdate padding rects last =>
    (0 :: padding :: be16 (declared rects last)) ++ (rects.flatMap serialiseRect ++
      match last with
      | none => []
      | some (_, rect) => RFBClient.rectangleHead rect Encoding.pseudoLastRect)
  | setColourMapEntries padding first colours =>
    1 :: ((padding :: (be16 first ++ be16 colours.length)) ++ colours.flatMap serialiseColour)
  | bell => [2]
  | cutText padding text =>
    3 :: ((padding.1 :: padding.2.1 :: padding.2.2 :: be32 text.length) ++ text)
  | fence padding flags payload =>
    248 :: ((padding.1 :: padding.2.1 :: padding.2.2 :: (be32 flags ++ [UInt8.ofNat payload.length])) ++
      payload)

/-- The numbers of a message fit their fields, its payload is not refused, and its rectangles are
well formed. An update that a LastRect ends announces more than came. -/
def WellFormed (display : Display) : ServerMessage → Prop
  | framebufferUpdate _ rects last =>
    declared rects last < 65536 ∧
      (∀ entry ∈ rects, RFBClient.PacksRect entry.1 ∧ entry.2.WellFormed display entry.1) ∧
      ∀ beyond rect, last = some (beyond, rect) → 1 ≤ beyond ∧ RFBClient.PacksRect rect
  | setColourMapEntries _ first colours =>
    first < 65536 ∧ 6 * colours.length ≤ RFBClient.maxMessagePayload ∧ colours.length < 65536 ∧
      ∀ colour ∈ colours, colour.1 < 65536 ∧ colour.2.1 < 65536 ∧ colour.2.2 < 65536
  | bell => True
  | cutText _ text => text.length ≤ RFBClient.maxMessagePayload
  | fence _ flags payload => flags < 2 ^ 32 ∧ payload.length < 256

/-- What a rectangle has called. -/
def called (display : Display) (entry : Rect × RectangleBody) : List RFBClient.Event :=
  ((entry.2.callback display entry.1).map RFBClient.Event.called).toList

/-- The rectangles that count as a screen change. -/
def changes (rects : List (Rect × RectangleBody)) : List Rect :=
  (rects.filter fun entry => entry.2.changed).map Prod.fst

/-- The reply to a fence, if one is asked for: the same payload, and the flags that are understood. -/
def fenceReply (flags : ℕ) (payload : Bytes) : List RFBClient.Event :=
  if flags &&& FenceFlags.request ≠ 0 then
    [.wrote .message ([248, 0, 0, 0] ++ be32 (flags &&& RFBClient.knownFlags) ++
      [UInt8.ofNat payload.length] ++ payload)]
  else []

/-- What a message denotes. -/
def events (display : Display) : ServerMessage → List RFBClient.Event
  | framebufferUpdate _ rects _ =>
    .called .beginUpdate :: (rects.flatMap (called display) ++ [.called (.commitUpdate (changes rects))])
  | setColourMapEntries _ first colours => [.called (.setColorMap first colours)]
  | bell => [.called .bell]
  | cutText _ text => [.called (.copyText (PyText.decodeLatin1 text))]
  | fence _ flags payload => fenceReply flags payload

end ServerMessage

namespace RFBClient

open Coroutine Decoders ServerMessage

variable {codecs : Codecs} {S : Type} {library : Library} {a a' a'' : DAttrs codecs S}

/-- A client that showed some events and is otherwise ready for what comes next as it was. -/
structure Showed (a : DAttrs codecs S) (events : List Event) (a' : DAttrs codecs S) : Prop where
  log : a'.log = a.log ++ events
  display : Decoders.display a' = Decoders.display a
  clear : a'.tlsHandshakePending = a.tlsHandshakePending

theorem Showed.trans {events events' : List Event} (h : Showed a events a')
    (h' : Showed a' events' a'') : Showed a (events ++ events') a'' where
  log := by rw [h'.log, h.log, List.append_assoc]
  display := h'.display.trans h.display
  clear := h'.clear.trans h.clear

/-! ## Updates -/

/-- The rectangles of an update are taken one after the other. -/
theorem takes_rects {rects : List (Rect × RectangleBody)} (hroom : rects.length ≤ a.rectangles)
    (hrects : ∀ entry ∈ rects, PacksRect entry.1 ∧ entry.2.WellFormed (display a) entry.1) :
    ∃ a', Takes (connected codecs S library) (updating a) (rects.flatMap serialiseRect) (updating a') ∧
      Showed a (rects.flatMap (called (display a))) a' ∧
      a'.rectangles = a.rectangles - rects.length ∧
      a'.rectanglePos = a.rectanglePos ++ changes rects := by
  induction rects generalizing a with
  | nil => exact ⟨a, .refl _, ⟨by simp, rfl, rfl⟩, by simp, by simp [changes]⟩
  | cons entry rects ih =>
    obtain ⟨rect, body⟩ := entry
    obtain ⟨hpacks, hwell⟩ := hrects _ List.mem_cons_self
    have hsome : a.rectangles ≠ 0 := by
      rw [List.length_cons] at hroom
      omega
    -- the rectangle itself
    obtain ⟨decoder, outcome, a₁, hdecoder, hdecodes, hleaves⟩ :=
      @decodes_body codecs S { a with rectangles := a.rectangles - 1 } rect library body a.pixelFormat
        rfl hwell
    obtain ⟨hlast, hlow, hhigh⟩ := body.encoding_spec
    have htakes := takes_rectangle hsome hpacks hlast hlow hhigh hdecoder hdecodes hleaves.sizes
    obtain ⟨decoding, encodings, log, hkept⟩ := hleaves.keeps
    have hshowed : Showed a (called (display a) (rect, body)) (settleAttrs rect outcome a₁) :=
      ⟨hleaves.log, by rw [hkept]; rfl, by rw [hkept]; rfl⟩
    have hcounted : (settleAttrs rect outcome a₁).rectangles = a.rectangles - 1 := by
      rw [hkept]
      rfl
    have hpositions : (settleAttrs rect outcome a₁).rectanglePos =
        a.rectanglePos ++ changes [(rect, body)] := by
      show a₁.rectanglePos ++ (if outcome.changed = true then [rect] else []) = _
      rw [hkept, hleaves.changed]
      unfold changes
      rw [List.filter_singleton]
      cases body.changed <;> rfl
    -- and those behind it
    obtain ⟨a', htakes', hshowed', hcounted', hpositions'⟩ := @ih (settleAttrs rect outcome a₁)
      (by rw [hcounted]; rw [List.length_cons] at hroom; omega)
      (by
        rw [hshowed.display]
        exact fun entry hentry => hrects entry (List.mem_cons_of_mem _ hentry))
    rw [hshowed.display] at hshowed'
    refine ⟨a', htakes.trans htakes', hshowed.trans hshowed', ?_, ?_⟩
    · rw [hcounted', hcounted, List.length_cons]
      omega
    · rw [hpositions', hpositions, List.append_assoc]
      unfold changes
      rw [← List.map_append, ← List.filter_append]
      rfl

/-- An update is taken whole, and committed once. -/
theorem takes_framebufferUpdate {padding : UInt8} {rects : List (Rect × RectangleBody)}
    {last : Option (ℕ × Rect)}
    (h : (framebufferUpdate padding rects last).WellFormed (display a)) :
    ∃ a', Takes (connected codecs S library) (parked a)
        (framebufferUpdate padding rects last).serialise (parked a') ∧
      Showed a ((framebufferUpdate padding rects last).events (display a)) a' := by
  obtain ⟨hcount, hrects, hlast⟩ := h
  have hhead := @takes_update codecs S library a padding _ hcount
  obtain ⟨a₁, hbodies, hshowed, hleft, hpositions⟩ := @takes_rects codecs S library
    { a with
      rectangles := declared rects last
      rectanglePos := []
      log := a.log ++ [.called .beginUpdate] } rects
    (by cases last <;> simp [declared]) hrects
  have hopened : Showed a [.called .beginUpdate] { a with
      rectangles := declared rects last
      rectanglePos := []
      log := a.log ++ [.called .beginUpdate] } := ⟨rfl, rfl, rfl⟩
  have hclosed : ∀ rectangles, Showed a
      ((framebufferUpdate padding rects last).events (display a))
      { a₁ with
        rectangles := rectangles
        log := a₁.log ++ [.called (.commitUpdate a₁.rectanglePos)] } := by
    intro rectangles
    have hcommit : Showed a₁ [.called (.commitUpdate (changes rects))] { a₁ with
        rectangles := rectangles
        log := a₁.log ++ [.called (.commitUpdate a₁.rectanglePos)] } :=
      ⟨by rw [hpositions]; rfl, rfl, rfl⟩
    exact hopened.trans (hshowed.trans hcommit)
  -- With no rectangle left, going back to `_doConnection` commits the update.
  have hover : ∀ a₂ : DAttrs codecs S, a₂.rectangles = 0 → updating a₂ =
      parked { a₂ with log := a₂.log ++ [.called (.commitUpdate a₂.rectanglePos)] } := by
    intro a₂ hzero
    exact if_neg (not_not_intro hzero)
  cases last with
  | none =>
    have hzero : a₁.rectangles = 0 := by
      rw [hleft]
      exact Nat.sub_self _
    refine ⟨_, ?_, hclosed a₁.rectangles⟩
    have hall := hhead.trans hbodies
    rw [hover a₁ hzero] at hall
    show Takes _ _ (_ ++ (_ ++ [])) _
    rw [List.append_nil]
    exact hall
  -- LastRect comes while rectangles are still due, and sets their number to 0.
  | some last =>
    obtain ⟨beyond, rect⟩ := last
    obtain ⟨hbeyond, hpacks⟩ := hlast beyond rect rfl
    have hsome : a₁.rectangles ≠ 0 := by
      rw [hleft]
      show rects.length + beyond - rects.length ≠ 0
      omega
    refine ⟨_, ?_, hclosed 0⟩
    have hall := hhead.trans (hbodies.trans (takes_lastRect hsome hpacks))
    rw [hover { a₁ with rectangles := 0 } rfl] at hall
    exact hall

/-! ## Other messages -/

/-- A payload that is not too long. -/
theorem decodes_requirePayload {length : ℕ} (h : length ≤ maxMessagePayload) (a : DAttrs codecs S) :
    Decodes (requirePayload length) a [] () a := by
  unfold requirePayload
  rw [if_neg (Nat.not_lt.mpr h)]
  exact Consumes.pure () a

/-- A method of the client that does nothing. -/
theorem decodes_call {method : Callback} (hmethod : method ≠ .vncRequestPassword)
    (a : DAttrs codecs S) :
    Decodes (Gen.lift ((connected codecs S library).call method)) a [] ()
      { a with log := a.log ++ [.called method] } := by
  intro rest
  rw [Gen.run_lift, run_call_base hmethod]
  rfl

/-- Colours are read back. -/
theorem map_serialiseColour {colours : List (ℕ × ℕ × ℕ)}
    (h : ∀ colour ∈ colours, colour.1 < 65536 ∧ colour.2.1 < 65536 ∧ colour.2.2 < 65536) :
    ((List.range colours.length).map fun i =>
      (u16At (colours.flatMap serialiseColour) (6 * i),
        u16At (colours.flatMap serialiseColour) (6 * i + 2),
        u16At (colours.flatMap serialiseColour) (6 * i + 4))) = colours := by
  induction colours with
  | nil => rfl
  | cons colour colours ih =>
    obtain ⟨red, green, blue⟩ := colour
    obtain ⟨hred, hgreen, hblue⟩ := h _ List.mem_cons_self
    have hrest := ih fun colour hcolour => h colour (List.mem_cons_of_mem _ hcolour)
    rw [List.length_cons, List.range_succ_eq_map, List.map_cons, List.map_map, List.flatMap_cons]
    refine List.cons_eq_cons.mpr ⟨?_, Eq.trans ?_ hrest⟩
    · have h₀ : u16At (serialiseColour (red, green, blue) ++ colours.flatMap serialiseColour) 0 = red :=
        u16At_be16 hred (be16 green ++ be16 blue ++ colours.flatMap serialiseColour)
      have h₂ : u16At (serialiseColour (red, green, blue) ++ colours.flatMap serialiseColour) 2 = green :=
        u16At_be16 hgreen (be16 blue ++ colours.flatMap serialiseColour)
      have h₄ : u16At (serialiseColour (red, green, blue) ++ colours.flatMap serialiseColour) 4 = blue :=
        u16At_be16 hblue (colours.flatMap serialiseColour)
      rw [Nat.mul_zero, Nat.zero_add, Nat.zero_add, h₀, h₂, h₄]
    · -- the colours behind the first lie six bytes further on
      apply List.map_congr_left
      intro i _
      have hshift : ∀ k, u16At (serialiseColour (red, green, blue) ++ colours.flatMap serialiseColour)
          (6 + k) = u16At (colours.flatMap serialiseColour) k := fun k => u16At_append_right _ _ k
      simp only [Function.comp_apply]
      rw [← hshift (6 * i), ← hshift (6 * i + 2), ← hshift (6 * i + 4)]
      have hsix : 6 * i.succ = 6 + 6 * i := by omega
      rw [hsix, Nat.add_assoc, Nat.add_assoc]

/-- A colour map is taken whole. -/
theorem takes_setColourMapEntries {padding : UInt8} {first : ℕ} {colours : List (ℕ × ℕ × ℕ)}
    (h : (setColourMapEntries padding first colours).WellFormed (display a)) :
    Takes (connected codecs S library) (parked a) (setColourMapEntries padding first colours).serialise
      (parked { a with log := a.log ++ [.called (.setColorMap first colours)] }) := by
  obtain ⟨hfirst, hpayload, hcount, hcolours⟩ := h
  have hreadFirst : u16At (padding :: (be16 first ++ be16 colours.length)) 1 = first :=
    u16At_be16 hfirst (be16 colours.length)
  have hreadCount : u16At (padding :: (be16 first ++ be16 colours.length)) 3 = colours.length := by
    have hread := u16At_be16 hcount []
    rwa [List.append_nil] at hread
  have hblock : (colours.flatMap serialiseColour).length = 6 * colours.length := by
    rw [List.length_flatMap]
    show (colours.map fun _ => 6).sum = _
    simp [Nat.mul_comm]
  have hfive : (padding :: (be16 first ++ be16 colours.length)).length = 5 := rfl
  -- Five bytes of header, the check of the length, and the colours in one block.
  refine takes_message MsgS2C.setColourMapEntries (by decide) (by decide) rfl ?_
  unfold setColourMapEntriesHandler
  refine decodes_read_bind hfive ?_
  dsimp only
  rw [Block.bytes_of, hreadFirst, hreadCount]
  refine (decodes_requirePayload hpayload a).bind_nil ?_
  refine (decodes_read hblock a).bind_pure ?_
  rw [Block.bytes_of, map_serialiseColour hcolours]
  exact decodes_call (by simp) a

/-- A bell is taken whole. -/
theorem takes_bell :
    Takes (connected codecs S library) (parked a) ServerMessage.bell.serialise
      (parked { a with log := a.log ++ [.called .bell] }) :=
  takes_message MsgS2C.bell (by decide) (by decide) rfl (decodes_call (by simp) a)

/-- A text is taken whole. -/
theorem takes_cutText {padding : UInt8 × UInt8 × UInt8} {text : Bytes}
    (h : text.length ≤ maxMessagePayload) :
    Takes (connected codecs S library) (parked a) (cutText padding text).serialise
      (parked { a with log := a.log ++ [.called (.copyText (PyText.decodeLatin1 text))] }) := by
  have hlength : text.length < 2 ^ 32 := Nat.lt_of_le_of_lt h (by decide)
  have hread : u32At (padding.1 :: padding.2.1 :: padding.2.2 :: be32 text.length) 3 = text.length := by
    have hfield := u32At_be32 hlength []
    rwa [List.append_nil] at hfield
  have hseven : (padding.1 :: padding.2.1 :: padding.2.2 :: be32 text.length).length = 7 := rfl
  refine takes_message MsgS2C.serverCutText (by decide) (by decide) rfl ?_
  unfold serverCutTextHandler
  refine decodes_read_bind hseven ?_
  dsimp only
  rw [Block.bytes_of, hread]
  refine (decodes_requirePayload h a).bind_nil ?_
  refine (decodes_read rfl a).bind_pure ?_
  rw [Block.bytes_of]
  exact decodes_call (by simp) a

/-- The answer to a fence, if one is asked for. -/
theorem decodes_answerFence (flags : ℕ) {payload : Bytes} (h : payload.length < 256)
    (a : DAttrs codecs S) :
    Decodes (Gen.lift (answerFence flags payload)) a [] ()
      { a with log := a.log ++ fenceReply flags payload } := by
  intro rest
  unfold answerFence fenceReply
  rw [Gen.run_lift]
  by_cases hrequest : flags &&& FenceFlags.request ≠ 0
  · rw [if_pos hrequest, if_pos hrequest, clientFence_knownFlags flags h]
    rfl
  · rw [if_neg hrequest, if_neg hrequest, List.append_nil]
    rfl

/-- A fence is taken whole. -/
theorem takes_fence {padding : UInt8 × UInt8 × UInt8} {flags : ℕ} {payload : Bytes}
    (hflags : flags < 2 ^ 32) (h : payload.length < 256) :
    Takes (connected codecs S library) (parked a) (fence padding flags payload).serialise
      (parked { a with log := a.log ++ fenceReply flags payload }) := by
  have hreadFlags : u32At (padding.1 :: padding.2.1 :: padding.2.2 ::
      (be32 flags ++ [UInt8.ofNat payload.length])) 3 = flags :=
    u32At_be32 hflags [UInt8.ofNat payload.length]
  have hreadLength : byteAt (padding.1 :: padding.2.1 :: padding.2.2 ::
      (be32 flags ++ [UInt8.ofNat payload.length])) 7 = payload.length := byteAt_ofNat h []
  have height : (padding.1 :: padding.2.1 :: padding.2.2 ::
      (be32 flags ++ [UInt8.ofNat payload.length])).length = 8 := rfl
  refine takes_message MsgS2C.serverFence (by decide) (by decide) rfl ?_
  unfold serverFenceHandler
  refine decodes_read_bind height ?_
  dsimp only
  rw [Block.bytes_of, hreadFlags, hreadLength]
  split_ifs with hempty
  · -- a payload of no bytes is not read
    obtain rfl := List.length_eq_zero_iff.mp hempty
    exact decodes_answerFence flags h a
  · refine (decodes_read rfl a).bind_pure ?_
    rw [Block.bytes_of]
    exact decodes_answerFence flags h a

/-! ## Sessions -/

/-- A message is taken whole, and does what it denotes. -/
theorem takes_serverMessage {message : ServerMessage} (h : message.WellFormed (display a)) :
    ∃ a', Takes (connected codecs S library) (parked a) message.serialise (parked a') ∧
      Showed a (message.events (display a)) a' := by
  cases message with
  | framebufferUpdate padding rects last => exact takes_framebufferUpdate h
  | setColourMapEntries padding first colours =>
    exact ⟨_, takes_setColourMapEntries h, rfl, rfl, rfl⟩
  | bell => exact ⟨_, takes_bell, rfl, rfl, rfl⟩
  | cutText padding text => exact ⟨_, takes_cutText h, rfl, rfl, rfl⟩
  | fence padding flags payload => exact ⟨_, takes_fence h.1 h.2, rfl, rfl, rfl⟩

/-- Messages are taken one after the other. -/
theorem takes_serverMessages {messages : List ServerMessage}
    (h : ∀ message ∈ messages, message.WellFormed (display a)) :
    ∃ a', Takes (connected codecs S library) (parked a) (messages.flatMap serialise) (parked a') ∧
      Showed a (messages.flatMap (events (display a))) a' := by
  induction messages generalizing a with
  | nil => exact ⟨a, .refl _, ⟨by simp, rfl, rfl⟩⟩
  | cons message messages ih =>
    obtain ⟨a₁, htakes, hshowed⟩ := @takes_serverMessage codecs S library a message
      (h message List.mem_cons_self)
    obtain ⟨a', htakes', hshowed'⟩ := @ih a₁ (by
      rw [hshowed.display]
      exact fun message' hmessage => h message' (List.mem_cons_of_mem _ hmessage))
    rw [hshowed.display] at hshowed'
    exact ⟨a', htakes.trans htakes', hshowed.trans hshowed'⟩

/-- However the bytes of well-formed messages are cut into deliveries, a client between two messages
shows exactly what they denote, in order, and is between two messages again with nothing buffered. -/
theorem session_framing (library : Library) {a : DAttrs codecs S} {messages : List ServerMessage}
    (h : ∀ message ∈ messages, message.WellFormed (display a)) {chunks : List Bytes}
    (hcut : chunks.flatten = messages.flatMap serialise) :
    ∃ a', Receives AvoidsVeNCrypt (connected codecs S library) (parked a) chunks (parked a') ∧
      a'.log = a.log ++ messages.flatMap (events (display a)) ∧ display a' = display a := by
  obtain ⟨a', htakes, hshowed⟩ :=
    @takes_serverMessages codecs S library { a with tlsHandshakePending := false } messages h
  have hreceives := receives_of_takes rfl hcut htakes
  cases chunks with
  | nil =>
    -- nothing arrives, and nothing changes
    cases hreceives
    exact ⟨a, .nil _, hshowed.log, rfl⟩
  | cons data chunks => exact ⟨a', receives_of_cleared hreceives, hshowed.log, hshowed.display⟩

/-- An update of one pixel that ends early, and a fence that asks for a reply. -/
abbrev pixelAndFence : List ServerMessage :=
  [.framebufferUpdate 0 [(⟨0, 0, 1, 1⟩, .raw [1, 2, 3, 4])] (some (1, ⟨0, 0, 0, 0⟩)),
    .fence (0, 0, 0) 0x80000009 [7]]

/-- However these are cut, the pixel is shown and the update committed, and the fence is replied to. -/
theorem session_framing_pixelAndFence :
    ∃ a', Receives AvoidsVeNCrypt (connected sampleCodecs Unit sampleLibrary)
      (parked { factory := {}, decoding := {}, own := (), width := 1, height := 1 })
      [[0, 0, 0], [2, 0, 0, 0, 0, 0, 1, 0, 1, 0, 0, 0, 0, 1, 2], [3, 4, 0, 0, 0, 0, 0, 0, 0, 0],
        [255, 255, 255, 32, 248, 0, 0, 0, 128, 0, 0, 9, 1], [7]] (parked a') ∧
      a'.log = [.called .beginUpdate, .called (.updateRectangle ⟨0, 0, 1, 1⟩ [1, 2, 3, 4] {}),
        .called (.commitUpdate [⟨0, 0, 1, 1⟩]), .wrote .message [248, 0, 0, 0, 0, 0, 0, 1, 1, 7]] ∧
      display a' = ⟨1, 1, {}⟩ := by
  have hwell : ∀ message ∈ pixelAndFence, message.WellFormed ⟨1, 1, {}⟩ := by
    simp only [List.forall_mem_cons, List.not_mem_nil, false_imp_iff, implies_true, and_true]
    refine ⟨⟨by decide, ?_, ?_⟩, by decide, by decide⟩
    · simp only [List.forall_mem_cons, List.not_mem_nil, false_imp_iff, implies_true, and_true]
      exact ⟨⟨by decide, by decide, by decide, by decide⟩, ⟨by decide, by decide⟩, by decide⟩
    · rintro beyond rect ⟨rfl, rfl⟩
      exact ⟨Nat.le_refl 1, by decide, by decide, by decide, by decide⟩
  exact @session_framing sampleCodecs Unit sampleLibrary
    { factory := {}, decoding := {}, own := (), width := 1, height := 1 } pixelAndFence hwell
    [[0, 0, 0], [2, 0, 0, 0, 0, 0, 1, 0, 1, 0, 0, 0, 0, 1, 2], [3, 4, 0, 0, 0, 0, 0, 0, 0, 0],
        [255, 255, 255, 32, 248, 0, 0, 0, 128, 0, 0, 9, 1], [7]] rfl

end RFBClient

end VncDoTool
