import VncDoTool.Client.Segmentation
import VncDoTool.Decoders.Bodies
import Mathlib.Logic.Relation

/-!
# Framing

What a connected client does with the bytes of one part of the protocol: it takes exactly those off
its buffer.

* `RFBClient.Takes`: from one client to another over some bytes, whatever is buffered behind them.
* `RFBClient.advances_pump`: a handler that takes exactly some bytes, when it is run by `_pump`.
* `RFBClient.takes_message`, `RFBClient.takes_rectangle`: a message, and a rectangle of an update.
* `RFBClient.receives_of_takes`: however the bytes are cut into deliveries.
-/

namespace VncDoTool

namespace RFBClient

open Coroutine Decoders

variable {codecs : Codecs} {S : Type} {library : Library}

/-- A client with the decoders of a connection. -/
abbrev connected (codecs : Codecs) (S : Type) (library : Library) : Env (Decoding codecs) S :=
  base library (forConnection (baseCallback library))

/-! ## From handler call to handler call -/

/-- A turn of the loop that settles on no VeNCrypt. -/
def Advances (env : Env (Decoding codecs) S) (c c' : RFBClient (Decoding codecs) S) : Prop :=
  Turns env c c' ∧ AvoidsVeNCrypt c

/-- The client takes exactly `input` off the front of its buffer and goes on as `c'`. -/
def Takes (env : Env (Decoding codecs) S) (c : RFBClient (Decoding codecs) S) (input : Bytes)
    (c' : RFBClient (Decoding codecs) S) : Prop :=
  ∀ rest, Relation.ReflTransGen (Advances env) { c with packet := input ++ rest }
    { c' with packet := rest }

variable {env : Env (Decoding codecs) S} {c c' c'' : RFBClient (Decoding codecs) S}
  {a a' : DAttrs codecs S} {input input' : Bytes}

theorem Takes.refl (c : RFBClient (Decoding codecs) S) : Takes env c [] c := fun _ => .refl

theorem Takes.trans (h : Takes env c input c') (h' : Takes env c' input' c'') :
    Takes env c (input ++ input') c'' := by
  intro rest
  rw [List.append_assoc]
  exact (h (input' ++ rest)).trans (h' rest)

/-- A handler call that settles on no VeNCrypt belongs to a turn that does not. -/
theorem avoidsVeNCrypt_of_avoids {e : Expected (Decoding codecs) S} (hphase : c.phase = .expecting e)
    (havoids : ∀ hroom : e.len ≤ c.packet.length, e.Avoids (Block.ofPrefix e.len c.packet hroom)) :
    AvoidsVeNCrypt c := by
  intro secType hready hchosen
  obtain ⟨e', hphase', hroom, -⟩ := exists_of_ready hready
  obtain rfl : e = e' := Phase.expecting.inj (hphase.symm.trans hphase')
  apply havoids hroom secType
  unfold chosenType at hchosen
  rw [hphase] at hchosen
  cases e with
  | auth => exact hchosen
  | securityTypes count => exact hchosen
  | _ => cases hchosen

/-- A handler that settles on no type at all. -/
def Expected.past : Expected (Decoding codecs) S → Bool
  | .auth | .securityTypes _ => false
  | _ => true

theorem Expected.avoids_of_past {e : Expected (Decoding codecs) S} (hpast : e.past = true)
    (block : Block e.len) : e.Avoids block := by
  intro secType hchooses
  cases e with
  | auth => cases hpast
  | securityTypes count => cases hpast
  | _ => cases hchooses

/-- A block that is there is handled. -/
theorem advances_of_avoids (e : Expected (Decoding codecs) S) (bytes rest : Bytes)
    (hphase : c.phase = .expecting e)
    (havoids : ∀ block : Block e.len, block.bytes = bytes → e.Avoids block)
    (hlive : c.aborted = false) (hlength : bytes.length = e.len) (hpacket : c.packet = bytes ++ rest)
    (hhandle : ∀ block : Block e.len, block.bytes = bytes →
      (handle env e block).run { c with packet := rest } = .ok () c') :
    Advances env c c' := by
  have hroom : e.len ≤ c.packet.length := by
    rw [hpacket, List.length_append]
    omega
  have hblock : (Block.ofPrefix e.len c.packet hroom).bytes = bytes := by
    rw [Block.bytes_ofPrefix, hpacket, List.take_left' hlength]
  have hdrop : c.packet.drop e.len = rest := by
    rw [hpacket, List.drop_left' hlength]
  refine ⟨⟨?_, ?_⟩, ?_⟩
  · unfold ready
    simp only [hphase, hlive, Bool.not_false, Bool.and_true, decide_eq_true_eq]
    exact hroom
  · rw [run_turn env hphase hroom, hdrop]
    exact hhandle _ hblock
  · exact avoidsVeNCrypt_of_avoids hphase fun hroom' => havoids _ hblock

/-- The same past the security exchange. -/
theorem advances_of_handle (e : Expected (Decoding codecs) S) (bytes rest : Bytes)
    (hphase : c.phase = .expecting e) (hpast : e.past = true) (hlive : c.aborted = false)
    (hlength : bytes.length = e.len) (hpacket : c.packet = bytes ++ rest)
    (hhandle : ∀ block : Block e.len, block.bytes = bytes →
      (handle env e block).run { c with packet := rest } = .ok () c') :
    Advances env c c' :=
  advances_of_avoids e bytes rest hphase (fun block _ => e.avoids_of_past hpast block) hlive hlength
    hpacket hhandle

/-! ## Generators -/

/-- A generator that takes exactly some bytes, run by `_pump`. -/
theorem advances_pump (task : Task) {x : GenStep (Decoding codecs) S task.Result} {rest : Bytes}
    {v : task.Result} {a : DAttrs codecs S} (hplods : Plods a x)
    (hfed : x.feed supply input = .done a' v rest)
    (hpacket : c.packet = input) (hlive : c.aborted = false)
    (hfinish : ∀ phase, (finish env task v).run { c with attrs := a', packet := rest, phase } =
      .ok () c') :
    ∃ c₁, (pump env task x).run c = .ok () c₁ ∧ Relation.ReflTransGen (Advances env) c₁ c' := by
  induction x generalizing a c input with
  | done s w =>
    cases hfed
    refine ⟨c', ?_, .refl⟩
    rw [run_pump]
    subst hpacket
    exact hfinish c.phase
  | failed s e => cases hfed
  -- It asks for bytes, and what it is fed says that they are there.
  | yielded s y resume ih =>
    obtain ⟨-, ⟨n, rfl⟩, hresume⟩ := hplods
    rw [Step.feed] at hfed
    by_cases hroom : n ≤ input.length
    · -- the bytes are there, so that the next turn of the loop resumes the generator
      have hsupply : supply (.bytes (n : ℤ)) input =
          some (Block.ofPrefix n input hroom, input.drop n) := dif_pos hroom
      rw [hsupply] at hfed
      have hnext := ih (Block.ofPrefix n input hroom) s (hresume _ s (KeepsClear.refl s)) hfed
        (c := { c with
          attrs := s
          packet := input.drop n
          phase := .expecting (.ended task n) }) rfl hlive hfinish
      obtain ⟨c₁, hpump, hadvances⟩ := hnext
      refine ⟨{ c with attrs := s, phase := .expecting (.pump task n resume) }, ?_, ?_⟩
      · rw [run_pump]
        rfl
      · refine .head ?_ hadvances
        refine advances_of_handle (.pump task n resume) (input.take n) (input.drop n) rfl rfl hlive
          (List.length_take_of_le hroom) (hpacket.trans (List.take_append_drop n input).symm) ?_
        intro block hblock
        have hsame : block = Block.ofPrefix n input hroom := by
          apply Block.ext
          exact hblock.trans (Block.bytes_ofPrefix n input hroom).symm
        subst hsame
        exact hpump
    · have hnone : supply (.bytes (n : ℤ)) input = none := dif_neg hroom
      rw [hnone] at hfed
      cases hfed

/-! ## Messages -/

/-- The client between two messages. -/
def parked (a : DAttrs codecs S) : RFBClient (Decoding codecs) S :=
  { attrs := a, phase := .expecting .connection }

/-- A message of a type and what its handler reads. -/
theorem takes_message (msgid : ℕ) {handler : Gen (Decoding codecs) S Unit} (hid : msgid < 256)
    (hupdate : msgid ≠ MsgS2C.framebufferUpdate)
    (hhandler : messageHandler (connected codecs S library) msgid = some handler)
    (hdecodes : Decodes handler a input () a') :
    Takes (connected codecs S library) (parked a) (UInt8.ofNat msgid :: input) (parked a') := by
  intro rest
  obtain ⟨c₁, hpump, hadvances⟩ := @advances_pump codecs S (connected codecs S library)
    { parked a with packet := input ++ rest } { parked a' with packet := rest } a' _ (.message msgid)
    _ rest () a (plods_messageHandler hhandler a) (hdecodes rest) rfl rfl fun _ => rfl
  refine .head ?_ hadvances
  refine advances_of_handle .connection [UInt8.ofNat msgid] (input ++ rest) rfl rfl rfl rfl rfl ?_
  intro block hblock
  show (handleConnection _ block).run _ = _
  have hread : byteAt block.bytes 0 = msgid := by
    rw [hblock]
    exact byteAt_ofNat hid []
  unfold handleConnection
  dsimp only
  rw [hread, if_neg hupdate, hhandler]
  exact hpump

/-! ## Updates -/

/-- The client inside an update: it waits for the next rectangle, or the update is over. -/
def updating (a : DAttrs codecs S) : RFBClient (Decoding codecs) S :=
  if a.rectangles ≠ 0 then { attrs := a, phase := .expecting .rectangle }
  else parked { a with log := a.log ++ [.called (.commitUpdate a.rectanglePos)] }

theorem run_doConnection_live (hlive : c.aborted = false) :
    (doConnection (connected codecs S library)).run c =
      .ok () { updating c.attrs with packet := c.packet } := by
  rcases c with ⟨attrs, packet, phase, aborted⟩
  obtain rfl : aborted = false := hlive
  rw [run_doConnection]
  unfold updating
  split_ifs <;> rfl

/-- The head of an update. -/
theorem takes_update (padding : UInt8) {count : ℕ} (hcount : count < 65536) :
    Takes (connected codecs S library) (parked a) (0 :: padding :: be16 count)
      (updating { a with
        rectangles := count
        rectanglePos := []
        log := a.log ++ [.called .beginUpdate] }) := by
  intro rest
  -- first the type of the message, then the rest of the head
  refine .head (b := { parked a with
      packet := padding :: be16 count ++ rest
      phase := .expecting .framebufferUpdate }) ?_ (.single ?_)
  · refine advances_of_handle .connection [0] (padding :: be16 count ++ rest) rfl rfl rfl rfl rfl ?_
    intro block hblock
    have hread : byteAt block.bytes 0 = MsgS2C.framebufferUpdate := by
      rw [hblock]
      rfl
    show (handleConnection _ block).run _ = _
    unfold handleConnection
    dsimp only
    rw [if_pos hread]
    rfl
  · refine advances_of_handle .framebufferUpdate (padding :: be16 count) rest rfl rfl rfl rfl rfl ?_
    intro block hblock
    have hread : u16At block.bytes 1 = count := by
      rw [hblock]
      have hfield := u16At_be16 hcount []
      rwa [List.append_nil] at hfield
    show (handleFramebufferUpdate _ block).run _ = _
    rw [run_handleFramebufferUpdate, run_doConnection_live rfl, hread]
    rfl

/-! ## Rectangles -/

/-- The numbers of a rectangle fit their fields. -/
def PacksRect (rect : Rect) : Prop :=
  rect.x < 65536 ∧ rect.y < 65536 ∧ rect.width < 65536 ∧ rect.height < 65536

/-- The head of a rectangle. -/
def rectangleHead (rect : Rect) (encoding : ℤ) : Bytes :=
  be16 rect.x ++ (be16 rect.y ++ (be16 rect.width ++ (be16 rect.height ++ beInt32 encoding)))

/-- A head is read back. -/
theorem read_rectangleHead {rect : Rect} {encoding : ℤ} {block : Block 12}
    (hblock : block.bytes = rectangleHead rect encoding) (hrect : PacksRect rect)
    (hlow : -2 ^ 31 ≤ encoding) (hhigh : encoding < 2 ^ 31) :
    announcedRect block = rect ∧ i32At block.bytes 8 = encoding := by
  obtain ⟨hx, hy, hwidth, hheight⟩ := hrect
  unfold announcedRect
  rw [hblock]
  have h₀ : u16At (rectangleHead rect encoding) 0 = rect.x := u16At_be16 hx _
  have h₂ : u16At (rectangleHead rect encoding) 2 = rect.y :=
    u16At_be16 hy (be16 rect.width ++ (be16 rect.height ++ beInt32 encoding))
  have h₄ : u16At (rectangleHead rect encoding) 4 = rect.width :=
    u16At_be16 hwidth (be16 rect.height ++ beInt32 encoding)
  have h₆ : u16At (rectangleHead rect encoding) 6 = rect.height :=
    u16At_be16 hheight (beInt32 encoding)
  have h₈ : i32At (rectangleHead rect encoding) 8 = encoding := by
    have hread := i32At_beInt32 hlow hhigh []
    rwa [List.append_nil] at hread
  rw [h₀, h₂, h₄, h₆]
  exact ⟨rfl, h₈⟩

/-- The attributes once the outcome of a rectangle is dealt with. -/
def settleAttrs (rect : Rect) (outcome : Outcome) (a : DAttrs codecs S) : DAttrs codecs S :=
  { a with
    log := a.log ++ (outcome.paste.map fun paste =>
      Event.called (.updateRectangle rect paste.1 paste.2)).toList
    rectanglePos := a.rectanglePos ++ if outcome.changed then [rect] else [] }

theorem run_finishRectangle_of_sizes {rect : Rect} {outcome : Outcome} (hsizes : Sizes rect outcome)
    (hlive : c.aborted = false) :
    (finishRectangle (connected codecs S library) rect outcome).run c =
      .ok () { updating (settleAttrs rect outcome c.attrs) with packet := c.packet } := by
  rcases outcome with ⟨changed, paste⟩
  cases paste with
  | none =>
    show (settleRectangle _ rect changed).run c = _
    rw [run_settleRectangle]
    unfold settleAttrs
    cases changed with
    | true =>
      rw [if_pos rfl, run_doConnection_live (by exact hlive)]
      simp
    | false =>
      rw [if_neg (by decide), run_doConnection_live hlive]
      simp
  | some paste =>
    rw [run_finishRectangle_of_length (hsizes paste.1 paste.2 rfl), run_settleRectangle]
    unfold settleAttrs
    cases changed with
    | true =>
      rw [if_pos rfl, run_doConnection_live (by exact hlive)]
      simp
    | false =>
      rw [if_neg (by decide), run_doConnection_live (by exact hlive)]
      simp

/-- A rectangle whose decoder takes exactly its bytes. -/
theorem takes_rectangle {rect : Rect} {encoding : ℤ} {decoder : Decoder (baseCallback library)}
    {outcome : Outcome} (hsome : a.rectangles ≠ 0) (hrect : PacksRect rect)
    (hlast : encoding ≠ Encoding.pseudoLastRect)
    (hlow : -2 ^ 31 ≤ encoding) (hhigh : encoding < 2 ^ 31)
    (hdecoder : @forConnection codecs S (baseCallback library) encoding = some decoder)
    (hdecodes : Decodes (decoder.decode rect a.pixelFormat)
      { a with rectangles := a.rectangles - 1 } input outcome a')
    (hsizes : Sizes rect outcome) :
    Takes (connected codecs S library) (updating a) (rectangleHead rect encoding ++ input)
      (updating (settleAttrs rect outcome a')) := by
  intro rest
  -- The header is one turn; what the decoder takes behind it are the turns of `advances_pump`.
  have hreads : OnlyReads (@forConnection codecs S (baseCallback library)) :=
    fun _ _ hdecoder => reads_forConnection _ hdecoder
  obtain ⟨c₁, hpump, hadvances⟩ := @advances_pump codecs S (connected codecs S library)
    { attrs := { a with rectangles := a.rectangles - 1 }
      packet := input ++ rest
      phase := .expecting .rectangle }
    { updating (settleAttrs rect outcome a') with packet := rest } a' _ (.rectangle rect) _ rest
    outcome _ (plods_decode hreads hdecoder rect a.pixelFormat { a with rectangles := a.rectangles - 1 })
    (hdecodes rest) rfl rfl
    fun phase => run_finishRectangle_of_sizes hsizes rfl
  have hupdating : updating a = { attrs := a, phase := .expecting .rectangle } := if_pos hsome
  rw [hupdating]
  refine .head ?_ hadvances
  refine advances_of_handle .rectangle (rectangleHead rect encoding) (input ++ rest) rfl rfl rfl rfl
    (List.append_assoc _ _ _) ?_
  intro block hblock
  obtain ⟨hread, hencoding⟩ := read_rectangleHead hblock hrect hlow hhigh
  show (handleRectangle _ block).run _ = _
  have hremaining : remaining block a.rectangles = a.rectangles := by
    unfold remaining
    rw [hencoding, if_neg hlast]
  rw [run_handleRectangle, hremaining, if_pos hsome, hread, hencoding, run_pumpRectangle]
  rw [show (connected codecs S library).decoders encoding = some decoder from hdecoder]
  exact hpump

/-- A LastRect ends the update. -/
theorem takes_lastRect {rect : Rect} (hsome : a.rectangles ≠ 0) (hrect : PacksRect rect) :
    Takes (connected codecs S library) (updating a) (rectangleHead rect Encoding.pseudoLastRect)
      (updating { a with rectangles := 0 }) := by
  intro rest
  have hupdating : updating a = { attrs := a, phase := .expecting .rectangle } := if_pos hsome
  rw [hupdating]
  refine .single (advances_of_handle .rectangle (rectangleHead rect Encoding.pseudoLastRect) rest rfl
    rfl rfl rfl rfl ?_)
  intro block hblock
  obtain ⟨-, hencoding⟩ := read_rectangleHead hblock hrect (by decide) (by decide)
  show (handleRectangle _ block).run _ = _
  have hremaining : remaining block a.rectangles = 0 := by
    unfold remaining
    rw [hencoding, if_pos rfl]
  rw [run_handleRectangle, hremaining, if_neg (not_not_intro rfl), run_doConnection_live rfl]

/-! ## Deliveries -/

/-- Where the loop rests behind turns that settle on no VeNCrypt. -/
theorem drains_of_advances (h : Relation.ReflTransGen (Advances env) c c')
    (hrest : ready c' = false) : Drains AvoidsVeNCrypt env c c' := by
  induction h using Relation.ReflTransGen.head_induction_on with
  | refl => exact .rest hrest
  | head hadvances _ ih =>
    exact .turn hadvances.1 hadvances.2 ih

/-- However the bytes of whole messages are cut, the client takes them. -/
theorem receives_of_takes {chunks : List Bytes} (hclear : a.tlsHandshakePending = false)
    (hcut : chunks.flatten = input)
    (h : Takes (connected codecs S library) (parked a) input (parked a')) :
    Receives AvoidsVeNCrypt (connected codecs S library) (parked a) chunks (parked a') := by
  have hreads : OnlyReads (@forConnection codecs S (baseCallback library)) :=
    fun _ _ hdecoder => reads_forConnection _ hdecoder
  have hplodding : Plodding (parked a) := plodding_of_plain hclear rfl
  refine (receives_iff_drains hreads (.inr (by simp [parked])) hplodding rfl).mpr ?_
  rw [hcut, more_of_live rfl]
  have hall := h []
  rw [List.append_nil] at hall
  exact drains_of_advances hall rfl

/-- A delivery forgets first that a TLS handshake was waited for. -/
theorem receives_of_cleared {good : RFBClient (Decoding codecs) S → Prop} {data : Bytes}
    {chunks : List Bytes} {c' : RFBClient (Decoding codecs) S}
    (h : Receives good env (parked { a with tlsHandshakePending := false }) (data :: chunks) c') :
    Receives good env (parked a) (data :: chunks) c' := by
  cases h with
  | cons hdata hrest =>
    refine .cons ?_ hrest
    cases hdata with
    | dropped habort => exact absurd habort Bool.false_ne_true
    | taken hlive hdeliver hdrains =>
      refine .taken hlive ?_ hdrains
      rw [← hdeliver, run_deliver_of_expecting env rfl, run_deliver_of_expecting env rfl]
      rfl

end RFBClient

end VncDoTool
