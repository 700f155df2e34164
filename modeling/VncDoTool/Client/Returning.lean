import VncDoTool.Client.Diagnosis
import VncDoTool.Client.Termination
import VncDoTool.Decoders.Failures

/-!
# Deliveries that return

A delivery returns when its loop ends and no handler call in it lets an exception out.

* `RFBClient.tabled`: a client that overrides nothing, with the decoders of the table.
* `RFBClient.Spared`: what the next handler call finds makes it neither raise nor stay for ever.
* `RFBClient.minds_turn`: a turn of the loop raises only where the client is not spared.
* `RFBClient.returns_iff`: a delivery returns exactly if every handler call in it is spared.
-/

namespace VncDoTool

namespace RFBClient

open Decoders

variable {codecs : Codecs} {S : Type} {library : Library}

/-- A client that overrides nothing, with the decoders of the table. -/
abbrev tabled (library : Library) : Env (Decoding codecs) S :=
  base library (forConnection (baseCallback library))

/-! ## What a handler call finds -/

/-- A version header, once it is complete, announces 3.3 or later. -/
def Greets (c : RFBClient (Decoding codecs) S) : Prop :=
  c.phase = .initial → normalise (c.packet.take 12) = header →
    Ver.le (3, 3) (announced (c.packet.take 12))

/-- What the next handler call finds makes it neither raise nor stay for ever: -/
structure Spared (env : Env (Decoding codecs) S) (c : RFBClient (Decoding codecs) S) : Prop where
  /-- a challenge meets a password whose first eight characters are ASCII, -/
  challenge : ∀ secType (block : Block 16), Hands c (awaitingChallenge env secType) block →
    ∀ password, c.attrs.factory.password = some password →
      ∀ ch ∈ password.toList.take 8, ch.toNat < 128
  /-- the reason for a failure is not empty, and no longer than a message may be, -/
  reason : ∀ secType (block : Block 4), Hands c (awaitingReasonLength env secType) block →
    u32At block.bytes 0 ≠ 0 ∧ u32At block.bytes 0 ≤ maxMessagePayload
  /-- the indices of a Tight palette, plain or compressed, have an image mode, -/
  indices : ∀ rect pixelFormat palette block,
    Hands c (awaitingIndices rect pixelFormat palette) block → ¬Unmatched palette block.bytes
  packed : ∀ rect pixelFormat palette streamId length block,
    Hands c (awaitingPacked rect pixelFormat palette streamId length) block →
      ∀ data stream, decompressLoop codecs streamId (rect.height * indexRow palette rect.width)
        ((c.attrs.decoding.streams.getD streamId none).getD codecs.decompressobj) [] block.bytes =
          .ok (data, stream) → data.length = rect.height * indexRow palette rect.width →
        ¬Unmatched palette data
  /-- and no decoder is resumed that an earlier delivery was left by. -/
  ended : ∀ rect size block, ¬Hands c (.ended (.rectangle rect) size) block

/-! ## Passwords -/

/-- What is raised for a character that is not ASCII. -/
def notAscii : PyErr := ⟨.unicodeEncodeError, "ordinal not in range(128)"⟩

theorem encodeAscii_of_not_ascii {text : List Char} {ch : Char} (hmem : ch ∈ text)
    (h : ¬ch.toNat < 128) : encodeAscii text = .error notAscii := by
  induction text with
  | nil => cases hmem
  | cons ch' text ih =>
    unfold encodeAscii at ih ⊢
    rw [List.mapM_cons]
    by_cases hfirst : ch'.toNat < 128
    · have htail : ch ∈ text := by
        rcases List.mem_cons.mp hmem with rfl | htail
        · exact absurd hfirst h
        · exact htail
      rw [if_pos hfirst, ih htail]
      rfl
    · rw [if_neg hfirst]
      rfl

/-- A password with one among its first eight characters has no DES key. -/
theorem vncDes_of_not_ascii {password : String}
    (h : ¬∀ ch ∈ password.toList.take 8, ch.toNat < 128) : vncDes password = .error notAscii := by
  simp only [not_forall] at h
  obtain ⟨ch, hch, hascii⟩ := h
  have herror := encodeAscii_of_not_ascii
    (List.mem_append_left (List.replicate (8 - (password.toList.take 8).length) (Char.ofNat 0)) hch)
    hascii
  unfold vncDes
  simp only [herror]
  rfl

/-! ## Suspended decoders -/

/-- The suspended decoder, if there is one, raises only what the pump catches, or where it waits for
palette indices. -/
def Expected.Guarded : Expected (Decoding codecs) S → Prop
  | .pump (.rectangle rect) size resume =>
    AwaitsPalette rect (.bytes size) resume ∨
      ∀ block t, (resume block t).Fails Caught (AwaitsPalette rect)
  | _ => True

/-- So does the decoder of a client. -/
def Guarded (c : RFBClient (Decoding codecs) S) : Prop :=
  match c.phase with
  | .initial => True
  | .expecting e => e.Guarded

theorem guarded_of_plain {c : RFBClient (Decoding codecs) S} (h : Plain c) : Guarded c := by
  unfold Plain at h
  unfold Guarded
  split
  · trivial
  next e hphase =>
    rw [hphase] at h
    cases e with
    | pump task size resume => exact absurd h (by simp [Expected.plain])
    | _ => trivial

/-- A handler call leaves such a decoder, and returns unless it is `faulty`. -/
structure Minds (faulty : Prop) (d : Delivery (Decoding codecs) S) : Prop where
  guarded : Guarded (client d)
  returned : returned d = false → faulty

theorem Minds.mono {faulty faulty' : Prop} {d : Delivery (Decoding codecs) S} (h : Minds faulty d)
    (hfaulty : faulty → faulty') : Minds faulty' d :=
  ⟨h.guarded, fun hraised => hfaulty (h.returned hraised)⟩

section

variable {faulty : Prop} {c : RFBClient (Decoding codecs) S}

theorem minds_of_guarded {c' : RFBClient (Decoding codecs) S} (h : Guarded c') :
    Minds faulty (.ok () c') :=
  ⟨h, fun hraised => absurd hraised (by simp [RFBClient.returned])⟩

theorem minds_of_plain {c' : RFBClient (Decoding codecs) S} (h : Plain c') :
    Minds faulty (.ok () c') :=
  minds_of_guarded (guarded_of_plain h)

theorem minds_abortConnection {reason : String} (h : Plain c) :
    Minds faulty ((abortConnection (tabled library) reason).run c) := by
  have hplain := @plain_abortConnection _ S library (forConnection (baseCallback library)) reason _ h
  rw [run_abortConnection] at hplain ⊢
  exact minds_of_plain hplain

theorem minds_doConnection : Minds faulty ((doConnection (tabled library)).run c) := by
  have hplain := @plain_doConnection _ S library (forConnection (baseCallback library)) c
  rw [run_doConnection] at hplain ⊢
  split_ifs at hplain ⊢ <;> exact minds_of_plain hplain

theorem minds_settleRectangle (rect : Rect) (changed : Bool) :
    Minds faulty ((settleRectangle (tabled library) rect changed).run c) := by
  rw [run_settleRectangle]
  exact minds_doConnection

theorem minds_finish {task : Task} (v : task.Result) (h : Plain c) :
    Minds faulty ((finish (tabled library) task v).run c) := by
  cases task with
  | security secType =>
    cases v with
    | true => exact minds_of_plain rfl
    | false => exact minds_of_plain h
  | message msgid => exact minds_of_plain rfl
  | rectangle rect =>
    obtain ⟨changed, paste⟩ := v
    cases paste with
    | none => exact minds_settleRectangle rect changed
    | some paste =>
      -- `_finishRectangle` checks the length of what the decoder pasted.
      by_cases hlen : paste.1.length = rect.width * rect.height * paste.2.bypp
      · change Minds faulty ((finishRectangle _ rect ⟨changed, some (paste.1, paste.2)⟩).run c)
        rw [run_finishRectangle_of_length hlen]
        exact minds_settleRectangle rect changed
      · have habort : finish (@tabled codecs S library) (.rectangle rect)
            ⟨changed, some paste⟩ = abortConnection (tabled library) _ := if_pos hlen
        rw [habort]
        exact minds_abortConnection h

/-- One step of a generator. -/
theorem minds_pump {task : Task} {x : GenStep (Decoding codecs) S task.Result} (hplain : Plain c)
    (hfailed : ∀ a e, drive (!c.packet.isEmpty) x = .failed a e →
      task.catches e.cls = true ∨ faulty)
    (hwants : ∀ a size resume, drive (!c.packet.isEmpty) x = .wants a size resume →
      (Expected.pump task size resume).Guarded) :
    Minds faulty ((pump (tabled library) task x).run c) := by
  rw [run_pump]
  cases hdrive : drive (!c.packet.isEmpty) x with
  | done a v => exact minds_finish v hplain
  | failed a e =>
    simp only
    split_ifs with hcatches
    · exact minds_abortConnection hplain
    · exact ⟨guarded_of_plain (c := { c with attrs := a }) hplain,
        fun _ => (hfailed a e hdrive).resolve_left hcatches⟩
  | wants a size resume =>
    simp only
    split_ifs
    · exact minds_abortConnection hplain
    · have hguarded : Guarded { c with attrs := a, phase := .expecting (.pump task size resume) } :=
        hwants a size resume hdrive
      exact minds_of_guarded hguarded

/-- Where a decoder stands when its questions are answered. -/
theorem drive_of_fails {rect : Rect} {x : GenStep (Decoding codecs) S Outcome} (waiting : Bool)
    (h : x.Fails Caught (AwaitsPalette rect)) :
    (∀ a e, drive waiting x = .failed a e → Caught e) ∧
      ∀ a size resume, drive waiting x = .wants a size resume →
        (Expected.pump (.rectangle rect) size resume).Guarded := by
  -- A question about `_packet` is answered at once: the run goes on behind it.
  induction x with
  | done a v => exact ⟨fun _ _ h => (by cases h), fun _ _ _ h => (by cases h)⟩
  | failed a e =>
    refine ⟨fun a' e' h' => ?_, fun _ _ _ h => (by cases h)⟩
    obtain ⟨-, rfl⟩ := Pause.failed.inj h'
    exact h
  | yielded a y resume ih =>
    cases y with
    | packet => exact ih waiting a (h.resolve_left not_false waiting a)
    | bytes size =>
      refine ⟨fun _ _ h => (by cases h), fun a' size' resume' h' => ?_⟩
      cases h'
      exact h

theorem minds_pump_rectangle {rect : Rect} {x : GenStep (Decoding codecs) S Outcome}
    (hplain : Plain c) (h : x.Fails Caught (AwaitsPalette rect)) :
    Minds faulty ((pump (tabled library) (.rectangle rect) x).run c) :=
  minds_pump hplain (fun a e hdrive => .inl ((drive_of_fails _ h).1 a e hdrive rect))
    (drive_of_fails _ h).2

theorem minds_pump_message {msgid : ℕ} {x : GenStep (Decoding codecs) S Unit} (hplain : Plain c)
    (h : x.Honours conversation anything c.attrs) :
    Minds faulty ((pump (tabled library) (.message msgid) x).run c) := by
  refine minds_pump hplain (fun a e hdrive => ?_) fun _ _ _ _ => trivial
  have hpause := drive_honours Meanwhile.refl (!c.packet.isEmpty) h
  rw [hdrive] at hpause
  cases hpause with
  | failed _ hraises =>
    left
    rw [show e.cls = .decodeError from hraises]
    rfl

theorem minds_startSecurity {secType : ℕ}
    (htype : secType = AuthTypes.none.value ∨ secType = AuthTypes.vncAuthentication.value) :
    Minds faulty ((startSecurity (tabled library) secType).run c) := by
  rcases htype with rfl | rfl
  · by_cases hversion : Ver.le (3, 8) c.attrs.version
    · rw [run_startSecurity_none_of_le hversion]
      exact minds_of_guarded trivial
    · rw [run_startSecurity_none_of_lt hversion]
      exact minds_of_plain rfl
  · rw [run_startSecurity_vnc]
    exact minds_of_guarded trivial

end

/-! ## Palette indices -/

section

variable {rect : Rect} {pixelFormat : PixelFormat} {palette : List Bytes} {streamId length : ℕ}
  {c : RFBClient (Decoding codecs) S}

theorem run_finishPalette (data : Bytes) (a : DAttrs codecs S) :
    (finishPalette rect pixelFormat palette data).run a =
      match unpalette codecs data palette rect.width rect.height (indexRow palette rect.width) with
      | .ok pixels =>
        .done a { changed := true, paste := some (pixels, tightOutputFormat pixelFormat) }
      | .error e => .failed a e := by
  unfold finishPalette
  rw [Coroutine.run_bind, Gen.run_lift]
  cases unpalette codecs data palette rect.width rect.height (indexRow palette rect.width) <;> rfl

/-- The stream of a compressed block. -/
def streamOf (streamId : ℕ) (a : DAttrs codecs S) : codecs.Stream :=
  (a.decoding.streams.getD streamId none).getD codecs.decompressobj

theorem run_tightDecompress (streamId : ℕ) (block : Bytes) (size : ℕ) (a : DAttrs codecs S) :
    (tightDecompress streamId block size).run a =
      match decompressLoop codecs streamId size (streamOf streamId a) [] block with
      | .ok (out, stream) =>
        let a : DAttrs codecs S := { a with
          decoding := { a.decoding with streams := a.decoding.streams.set streamId (some stream) } }
        if out.length = size then .done a out
        else .failed a ⟨.decodeError,
          s!"Tight stream {streamId} produced {out.length} bytes, wanted {size}"⟩
      | .error e => .failed a e := by
  unfold tightDecompress streamOf
  rw [Coroutine.run_bind, Coroutine.run_get, Coroutine.Step.bind_done, Coroutine.run_bind,
    Gen.run_lift]
  cases hloop : decompressLoop codecs streamId size
      ((a.decoding.streams.getD streamId none).getD codecs.decompressobj) [] block with
  | error e => rfl
  | ok result =>
    obtain ⟨out, stream⟩ := result
    change (if out.length ≠ size then _ else _ : Gen (Decoding codecs) S Bytes).run _ = _
    -- The stream is kept either way; only the number of bytes it gave decides.
    by_cases hlength : out.length = size
    · rw [if_neg (not_not_intro hlength)]
      simp only [if_pos hlength]
      rfl
    · rw [if_pos hlength]
      simp only [if_neg hlength]
      rfl

/-- Indices with an image mode, or the lack of one. -/
theorem minds_finishPalette {data : Bytes} {a : DAttrs codecs S} (hplain : Plain c) :
    Minds (Unmatched palette data) ((pump (tabled library) (.rectangle rect)
      ((finishPalette rect pixelFormat palette data).run a)).run c) := by
  rw [run_finishPalette]
  cases hpixels : unpalette codecs data palette rect.width rect.height
      (indexRow palette rect.width) with
  | ok pixels =>
    exact minds_pump hplain (fun _ _ hdrive => (by cases hdrive)) fun _ _ _ hdrive => (by cases hdrive)
  | error e =>
    refine minds_pump hplain (fun a e' hdrive => ?_) fun _ _ _ hdrive => (by cases hdrive)
    obtain ⟨-, rfl⟩ := Pause.failed.inj hdrive
    exact (unpalette_error hpixels).imp_left fun hcaught => hcaught rect

theorem minds_awaitingIndices (block : Block (rect.height * indexRow palette rect.width)) :
    Minds (Unmatched palette block.bytes)
      ((handle (tabled library) (awaitingIndices rect pixelFormat palette) block).run c) := by
  unfold awaitingIndices
  rw [run_handle_pump]
  refine minds_finishPalette ?_
  rfl

/-- Compressed indices do not decompress to as many as there should be, or they are indices. -/
theorem minds_awaitingPacked (block : Block length) :
    Minds (∃ data stream, decompressLoop codecs streamId (rect.height * indexRow palette rect.width)
          (streamOf streamId c.attrs) [] block.bytes = .ok (data, stream) ∧
        data.length = rect.height * indexRow palette rect.width ∧ Unmatched palette data)
      ((handle (tabled library) (awaitingPacked rect pixelFormat palette streamId length)
        block).run c) := by
  unfold awaitingPacked
  rw [run_handle_pump, Coroutine.run_bind, run_tightDecompress]
  cases hloop : decompressLoop codecs streamId (rect.height * indexRow palette rect.width)
      (streamOf streamId c.attrs) [] block.bytes with
  -- What zlib refuses is a `DecodeError`, which `_pump` catches.
  | error e =>
    refine minds_pump rfl (fun a e' hdrive => ?_) fun _ _ _ hdrive => (by cases hdrive)
    obtain ⟨-, rfl⟩ := Pause.failed.inj hdrive
    exact .inl (decompressLoop_error hloop rect)
  | ok result =>
    obtain ⟨data, stream⟩ := result
    dsimp only
    -- Too few bytes are a `DecodeError` as well: only matched lengths reach the palette.
    by_cases hlength : data.length = rect.height * indexRow palette rect.width
    · rw [if_pos hlength, Coroutine.Step.bind_done]
      refine (minds_finishPalette ?_).mono fun hunmatched => ⟨data, stream, rfl, hlength, hunmatched⟩
      rfl
    · rw [if_neg hlength]
      refine minds_pump rfl (fun a e' hdrive => ?_) fun _ _ _ hdrive => (by cases hdrive)
      obtain ⟨-, rfl⟩ := Pause.failed.inj hdrive
      exact .inl rfl

/-- Without an image mode an exception escapes. -/
theorem raises_finishPalette {data : Bytes} {a : DAttrs codecs S} (h : Unmatched palette data) :
    returned ((pump (tabled library) (.rectangle rect)
      ((finishPalette rect pixelFormat palette data).run a)).run c) = false := by
  rw [run_finishPalette, unpalette_of_unmatched _ _ _ h]
  rfl

theorem raises_awaitingIndices {block : Block (rect.height * indexRow palette rect.width)}
    (h : Unmatched palette block.bytes) :
    returned ((handle (tabled library) (awaitingIndices rect pixelFormat palette) block).run c) =
      false := by
  unfold awaitingIndices
  rw [run_handle_pump]
  exact raises_finishPalette h

theorem raises_awaitingPacked {block : Block length} {data : Bytes} {stream : codecs.Stream}
    (hloop : decompressLoop codecs streamId (rect.height * indexRow palette rect.width)
      (streamOf streamId c.attrs) [] block.bytes = .ok (data, stream))
    (hlength : data.length = rect.height * indexRow palette rect.width)
    (h : Unmatched palette data) :
    returned ((handle (tabled library) (awaitingPacked rect pixelFormat palette streamId length)
      block).run c) = false := by
  unfold awaitingPacked
  rw [run_handle_pump, Coroutine.run_bind, run_tightDecompress]
  simp only [hloop, if_pos hlength, Coroutine.Step.bind_done]
  exact raises_finishPalette h

end

/-! ## Handler calls -/

section

variable {c : RFBClient (Decoding codecs) S}

/-- Without a password, or with one that encodes, a challenge is answered. -/
theorem minds_awaitingChallenge {secType : ℕ} (block : Block 16) :
    Minds (∃ password, c.attrs.factory.password = some password ∧
        ¬∀ ch ∈ password.toList.take 8, ch.toNat < 128)
      ((handle (tabled library) (awaitingChallenge (tabled library) secType) block).run c) := by
  cases hpassword : c.attrs.factory.password with
  | none =>
    -- The transport is told to close, and the exchange goes on to the SecurityResult.
    have hrun : (answerChallenge (tabled library) block).run c.attrs =
        (securityResult (tabled library)).run { c.attrs with
          challenge := block.bytes
          log := c.attrs.log ++ [.called .vncRequestPassword, .loseConnection] } := by
      unfold answerChallenge
      simp [run_call, base, baseCallback, vncRequestPassword, hpassword]
    unfold awaitingChallenge
    rw [run_handle_pump, hrun, run_securityResult]
    exact minds_pump rfl (fun _ _ hdrive => (by cases hdrive)) fun _ _ _ _ => trivial
  | some password =>
    by_cases hascii : ∀ ch ∈ password.toList.take 8, ch.toNat < 128
    · obtain ⟨key, hkey⟩ := vncDes_of_ascii hascii
      rw [run_handle_awaitingChallenge hpassword hkey block]
      exact minds_of_guarded trivial
    · unfold awaitingChallenge
      rw [run_handle_pump]
      exact minds_pump rfl (fun _ _ _ => .inr ⟨password, rfl, hascii⟩) fun _ _ _ _ => trivial

/-- With a password that does not encode an exception escapes. -/
theorem raises_awaitingChallenge {secType : ℕ} {block : Block 16} {password : String}
    (hpassword : c.attrs.factory.password = some password)
    (h : ¬∀ ch ∈ password.toList.take 8, ch.toNat < 128) :
    returned ((handle (tabled library) (awaitingChallenge (tabled library) secType) block).run c) =
      false := by
  have hrun : (answerChallenge (tabled library) block).run c.attrs =
      .failed { c.attrs with
        challenge := block.bytes
        log := c.attrs.log ++ [.called .vncRequestPassword] } notAscii := by
    unfold answerChallenge
    simp [run_call, base, baseCallback, vncRequestPassword, hpassword, sendPassword, ofExcept,
      vncDes_of_not_ascii h]
    rfl
  unfold awaitingChallenge
  rw [run_handle_pump, hrun]
  rfl

/-- The indices of a palette are handed over. -/
theorem minds_of_awaitsPalette {c₀ : RFBClient (Decoding codecs) S} {rect : Rect}
    {e : Expected (Decoding codecs) S} {block : Block e.len} (hhands : Hands c₀ e block)
    (h : (∃ pixelFormat palette, e = awaitingIndices rect pixelFormat palette) ∨
      ∃ pixelFormat palette streamId length,
        e = awaitingPacked rect pixelFormat palette streamId length) :
    Minds (¬Spared (tabled library) c₀) ((handle (tabled library) e block).run
      { c₀ with packet := c₀.packet.drop e.len }) := by
  rcases h with ⟨pixelFormat, palette, rfl⟩ | ⟨pixelFormat, palette, streamId, length, rfl⟩
  · refine (minds_awaitingIndices block).mono fun hunmatched hspared => ?_
    exact hspared.indices rect pixelFormat palette block hhands hunmatched
  · refine (minds_awaitingPacked block).mono ?_
    rintro ⟨data, stream, hloop, hlength, hunmatched⟩ hspared
    exact hspared.packed rect pixelFormat palette streamId length block hhands data stream hloop
      hlength hunmatched

/-- A handler without a generator that stays armed leaves none behind. -/
theorem plain_of_hands {c₀ : RFBClient (Decoding codecs) S} {e : Expected (Decoding codecs) S}
    {block : Block e.len} (hhands : Hands c₀ e block) (he : e.plain = true)
    (c : RFBClient (Decoding codecs) S) (hphase : c.phase = c₀.phase) : Plain c := by
  unfold Plain
  rw [hphase, hhands.1]
  exact he

/-- The handlers of the session raise only where a decoder does. -/
theorem minds_handle_of_admitted {c₀ : RFBClient (Decoding codecs) S}
    {e : Expected (Decoding codecs) S} {block : Block e.len} (hhands : Hands c₀ e block)
    (hadmitted : e.admitted = true) (hguarded : e.Guarded)
    (hsound : e.Sound (baseCallback library) c₀.attrs) :
    Minds (¬Spared (tabled library) c₀) ((handle (tabled library) e block).run
      { c₀ with packet := c₀.packet.drop e.len }) := by
  have hplain : e.plain = true → ∀ c, c.phase = c₀.phase → Plain c := plain_of_hands hhands
  cases e with
  | serverInit => exact minds_of_plain rfl
  | serverName namelen => exact minds_of_plain rfl
  | connection =>
    simp only [handle, handleConnection]
    split_ifs
    · exact minds_of_plain rfl
    · split
      · exact minds_abortConnection (hplain rfl _ rfl)
      next handler hhandler =>
        exact minds_pump_message (hplain rfl _ rfl) (honours_messageHandler hhandler _)
  | framebufferUpdate =>
    simp only [handle]
    rw [run_handleFramebufferUpdate]
    exact minds_doConnection
  | rectangle =>
    simp only [handle]
    rw [run_handleRectangle]
    split_ifs
    · rw [run_pumpRectangle]
      cases hdecoder : (@tabled codecs S library).decoders (i32At block.bytes 8) with
      | none => exact minds_abortConnection (hplain rfl _ rfl)
      | some decoder =>
        exact minds_pump_rectangle (hplain rfl _ rfl) (fails_forConnection hdecoder _ _)
    · exact minds_doConnection
  | pump task size resume =>
    cases task with
    | security secType => exact absurd hadmitted (by simp [Expected.admitted, Task.inSession])
    | message msgid =>
      rw [run_handle_pump]
      exact minds_pump_message rfl (hsound.2.2 block _ (Meanwhile.refl _))
    | rectangle rect =>
      -- Where a decoder waits for palette indices, what they are decides whether it raises.
      rcases hguarded with hpalette | hfails
      · exact minds_of_awaitsPalette hhands hpalette
      · rw [run_handle_pump]
        exact minds_pump_rectangle rfl (hfails block _)
  | ended task size =>
    cases task with
    | security secType => exact absurd hadmitted (by simp [Expected.admitted, Task.inSession])
    | message msgid => exact minds_of_plain rfl
    | rectangle rect =>
      -- A decoder that raised is parked still: resumed, it ends without an outcome.
      exact ⟨guarded_of_plain (hplain rfl _ rfl), fun _ hspared => hspared.ended rect size block hhands⟩
  | _ => exact absurd hadmitted (by simp [Expected.admitted])

theorem minds_handle {c₀ : RFBClient (Decoding codecs) S} {e : Expected (Decoding codecs) S}
    {block : Block e.len} (hhands : Hands c₀ e block) (htame : e.Tame (tabled library))
    (hguarded : e.Guarded) (hsound : e.Sound (baseCallback library) c₀.attrs)
    (hchosen : ∀ secType, e.chooses block = some secType →
      secType ≠ AuthTypes.vencrypt.value ∧ secType ≠ AuthTypes.diffieHellman.value) :
    Minds (¬Spared (tabled library) c₀) ((handle (tabled library) e block).run
      { c₀ with packet := c₀.packet.drop e.len }) := by
  have hplain : e.plain = true → ∀ c, c.phase = c₀.phase → Plain c := plain_of_hands hhands
  cases htame with
  | admitted h => exact minds_handle_of_admitted hhands h hguarded hsound
  | auth =>
    simp only [handle, handleAuth]
    split_ifs with hinvalid hsome
    · exact minds_of_plain rfl
    · exact minds_startSecurity
        (type_of_supported ((securityHandler_isSome_iff _ _).mp hsome) (hchosen _ rfl))
    · exact minds_abortConnection (hplain rfl _ rfl)
  | numberSecurityTypes =>
    simp only [handle, handleNumberSecurityTypes]
    split_ifs <;> exact minds_of_plain rfl
  | securityTypes count =>
    simp only [handle, handleSecurityTypes]
    split
    next secType hmax =>
      have hsupported : secType ∈ supportedAuths := by
        have hmem := List.max?_mem hmax
        simpa using (List.mem_filter.mp hmem).2
      exact minds_startSecurity (type_of_supported hsupported (hchosen _ hmax))
    · exact minds_abortConnection (hplain rfl _ rfl)
  | connFailed =>
    simp only [handle, handleConnFailed]
    split_ifs
    · exact minds_abortConnection (hplain rfl _ rfl)
    · exact minds_of_plain rfl
  | connMessage waitfor => exact minds_abortConnection (hplain rfl _ rfl)
  -- The answer to a challenge raises on a password that is not ASCII: the first thing `Spared` excludes.
  | awaitingChallenge secType =>
    refine (minds_awaitingChallenge block).mono ?_
    rintro ⟨password, hpassword, hascii⟩ hspared
    exact hascii (hspared.challenge secType block hhands password hpassword)
  | awaitingResult secType =>
    by_cases hzero : u32At block.bytes 0 = 0
    · rw [run_handle_awaitingResult_of_zero hzero]
      exact minds_of_plain rfl
    by_cases hgt : 2 < u32At block.bytes 0
    · rw [run_handle_awaitingResult_of_gt hgt]
      exact minds_of_plain rfl
    -- From 3.8 on a failed result is followed by its reason.
    have hfailed : u32At block.bytes 0 = 1 ∨ u32At block.bytes 0 = 2 := by omega
    generalize ({ c₀ with packet := c₀.packet.drop _ } : RFBClient (Decoding codecs) S) = c
    by_cases hversion : Ver.le (3, 8) c.attrs.version
    · rw [run_handle_awaitingResult_of_le hfailed hversion]
      exact minds_of_guarded trivial
    · rw [run_handle_awaitingResult_of_lt hfailed hversion]
      exact minds_of_plain rfl
  -- Over the bound it is a `DecodeError`, which `_pump` does not catch in the security phase.
  | awaitingReasonLength secType =>
    by_cases hle : u32At block.bytes 0 ≤ maxMessagePayload
    · rw [run_handle_awaitingReasonLength_of_le hle]
      exact minds_of_guarded trivial
    · rw [run_handle_awaitingReasonLength_of_gt (Nat.not_le.mp hle)]
      exact ⟨trivial, fun _ hspared => hle (hspared.reason secType block hhands).2⟩
  | awaitingReason secType waitfor hne =>
    rw [run_handle_awaitingReason waitfor block]
    exact minds_of_plain rfl
  | ended secType size hne => exact minds_of_plain (hplain rfl _ rfl)

/-- A turn of the loop. -/
theorem minds_turn (hready : ready c = true) (htame : Tame (tabled library) c)
    (hguarded : Guarded c) (hsound : Sound (baseCallback library) c) (htypes : PlainTypes c) :
    Minds (¬Spared (tabled library) c) ((turn (tabled library)).run c) := by
  obtain ⟨e, hphase, hlen, hlive⟩ := exists_of_ready hready
  rw [run_turn _ hphase hlen]
  have htame' : e.Tame (tabled library) := by
    cases htame with
    | aborted habort => exact absurd (hlive.symm.trans habort) (by simp)
    | initial hinitial => exact absurd (hphase.symm.trans hinitial) (by simp)
    | expecting e' hphase' h =>
      obtain rfl : e = e' := Phase.expecting.inj (hphase.symm.trans hphase')
      exact h
  unfold Guarded at hguarded
  unfold Sound at hsound
  rw [hphase] at hguarded hsound
  exact minds_handle ⟨hphase, hlen, rfl⟩ htame' hguarded hsound
    (htypes.of_chooses hready hphase hlen)

/-- Unless it reads that a reason is empty, a client is spared whose handler call returns. -/
theorem spared_of_returned (hready : ready c = true)
    (hreason : ¬ReadsEmptyReason (tabled library) c)
    (h : returned ((turn (tabled library)).run c) = true) : Spared (tabled library) c where
  challenge secType block hhands password hpassword := by
    -- Each field the other way round: were it violated, the call would have raised.
    by_contra hascii
    have hraises := @raises_awaitingChallenge _ _ library { c with packet := c.packet.drop 16 } secType
      block _ hpassword hascii
    rw [run_turn_of_hands _ hhands] at h
    exact absurd (hraises.symm.trans h) (by simp)
  reason secType block hhands := by
    refine ⟨fun hzero => hreason ⟨hready, secType, block, hhands, hzero⟩, ?_⟩
    by_contra hgt
    rw [run_turn_of_hands _ hhands, run_handle_awaitingReasonLength_of_gt (Nat.not_le.mp hgt)] at h
    exact absurd h (by simp [RFBClient.returned])
  indices rect pixelFormat palette block hhands hunmatched := by
    rw [run_turn_of_hands _ hhands, raises_awaitingIndices hunmatched] at h
    cases h
  packed rect pixelFormat palette streamId length block hhands data stream hloop hlength
      hunmatched := by
    have hraises := @raises_awaitingPacked _ _ library _ pixelFormat _ _ _
      { c with packet := c.packet.drop length } _ _ _ hloop hlength hunmatched
    rw [run_turn_of_hands _ hhands] at h
    exact absurd (hraises.symm.trans h) (by simp)
  ended rect size block hhands := by
    rw [run_turn_of_hands _ hhands] at h
    cases h

end

/-! ## Runs -/

section

variable {c : RFBClient (Decoding codecs) S}

/-- What is true of every point of a run that never reads that a reason is empty. -/
structure Poised (library : Library) (c : RFBClient (Decoding codecs) S) : Prop where
  tame : Tame (tabled library) c
  guarded : Guarded c
  sound : Sound (baseCallback library) c

theorem guarded_deliver (data : Bytes) (h : Guarded c) :
    Guarded (client ((deliver (tabled library) data).run c)) := by
  cases hphase : c.phase with
  | initial =>
    rw [run_deliver_of_initial _ hphase, run_handleInitial]
    -- Only a whole header leaves the initial phase; too many bytes of none abort.
    have hplain : Plain (extend c data) := by
      unfold Plain
      rw [show (extend c data).phase = .initial from hphase]
      trivial
    split_ifs
    · rw [run_answerHeader]
      cases negotiate (announced ((extend c data).packet.take 12)) with
      | none => exact guarded_of_plain hplain
      | some version =>
        refine guarded_of_plain ?_
        unfold Plain greeted
        simp only [client]
        split_ifs <;> rfl
    · exact guarded_of_plain hplain
    · exact (@minds_abortConnection _ _ _ False _ _ hplain).guarded
  | expecting e =>
    rw [run_deliver_of_expecting _ hphase]
    unfold Guarded at h ⊢
    rw [hphase] at h
    simp only [client, extend, hphase]
    exact h

theorem Poised.deliver (data : Bytes) (h : Poised library c) :
    Poised library (client ((deliver (tabled library) data).run c)) :=
  ⟨tame_deliver data h.tame, guarded_deliver data h.guarded, sound_deliver data h.sound⟩

theorem Poised.turn (hready : ready c = true) (htypes : PlainTypes c)
    (hreason : ¬ReadsEmptyReason (tabled library) c) (h : Poised library c) :
    Poised library (client ((turn (tabled library)).run c)) :=
  ⟨tame_turn h.tame hready htypes hreason,
    (minds_turn hready h.tame h.guarded h.sound htypes).guarded, sound_turn hready h.sound⟩

theorem poised_of_reachesBy {factory : Factory} {decoding : Decoding codecs} {own : S}
    {received : Bytes} {d : Delivery (Decoding codecs) S}
    (h : ReachesBy (fun c => PlainTypes c ∧ ¬ReadsEmptyReason (tabled library) c)
      (tabled library) (fresh factory decoding own) received d) : Poised library (client d) := by
  induction h with
  | start => exact ⟨.initial rfl, guarded_of_plain trivial, sound_of_plain trivial⟩
  | delivered data _ _ _ _ ih => exact ih.deliver data
  | dropped data _ _ _ ih => exact ih
  | turned _ hready hgood ih => exact ih.turn hready hgood.1 hgood.2

/-! ## Loops that return -/

/-- The loop ends from here, and no handler call in it raises. -/
def Returns (env : Env (Decoding codecs) S) (c : RFBClient (Decoding codecs) S) : Prop :=
  ∃ fuel c', handleExpected env fuel c = some (.ok () c')

variable {env : Env (Decoding codecs) S}

theorem Returns.finishes (h : Returns env c) : Finishes env c := by
  obtain ⟨fuel, c', hd⟩ := h
  exact ⟨fuel, _, hd⟩

theorem Returns.returned (h : Returns env c) (hready : ready c = true) :
    returned ((RFBClient.turn env).run c) = true := by
  obtain ⟨fuel, c', hd⟩ := h
  cases fuel with
  | zero =>
    unfold handleExpected at hd
    rw [if_pos hready] at hd
    exact absurd hd (by simp)
  | succ fuel =>
    rw [handleExpected_of_ready fuel hready] at hd
    cases hturn : (RFBClient.turn env).run c with
    | ok _ c₁ => rfl
    | error e c₁ =>
      rw [hturn] at hd
      cases hd

theorem Returns.of_turns {c' : RFBClient (Decoding codecs) S} (h : Returns env c)
    (hturns : Turns env c c') : Returns env c' := by
  obtain ⟨fuel, c₁, hd⟩ := h
  cases fuel with
  | zero =>
    unfold handleExpected at hd
    rw [if_pos hturns.1] at hd
    exact absurd hd (by simp)
  | succ fuel =>
    rw [handleExpected_of_ready fuel hturns.1, hturns.2] at hd
    exact ⟨fuel, c₁, hd⟩

theorem Returns.of_later {c' : RFBClient (Decoding codecs) S} (h : Returns env c)
    (hlater : Relation.ReflTransGen (Turns env) c c') : Returns env c' := by
  induction hlater with
  | refl => exact h
  | tail _ hturns ih => exact ih.of_turns hturns

/-- A loop that ends returns where every handler call in it is spared. -/
theorem returns_of_finishes (hpoised : Poised library c)
    (htypes : ∀ c', Relation.ReflTransGen (Turns (tabled library)) c c' → PlainTypes c')
    (hspared : ∀ c', Relation.ReflTransGen (Turns (tabled library)) c c' → ready c' = true →
      Spared (tabled library) c')
    (h : Finishes (tabled library) c) : Returns (tabled library) c := by
  obtain ⟨fuel, d, hd⟩ := h
  -- By induction on the turns the loop takes: each finds the client spared, and so returns.
  induction fuel generalizing c with
  | zero =>
    cases hready : ready c with
    | false => exact ⟨0, c, handleExpected_of_not_ready 0 hready⟩
    | true =>
      unfold handleExpected at hd
      rw [if_pos hready] at hd
      exact absurd hd (by simp)
  | succ fuel ih =>
    cases hready : ready c with
    | false => exact ⟨0, c, handleExpected_of_not_ready 0 hready⟩
    | true =>
      have hnow := hspared c .refl hready
      have hminds := minds_turn hready hpoised.tame hpoised.guarded hpoised.sound (htypes c .refl)
      have hreason : ¬ReadsEmptyReason (tabled library) c := by
        rintro ⟨-, secType, block, hhands, hzero⟩
        exact (hnow.reason secType block hhands).1 hzero
      have hpoised' := hpoised.turn hready (htypes c .refl) hreason
      rw [handleExpected_of_ready fuel hready] at hd
      cases hturn : (turn (tabled library)).run c with
      | error e c₁ =>
        rw [hturn] at hminds
        exact absurd hnow (hminds.returned rfl)
      | ok _ c₁ =>
        rw [hturn] at hd hpoised'
        have hturns : Turns (tabled library) c c₁ := ⟨hready, hturn⟩
        obtain ⟨fuel', c', hd'⟩ := ih hpoised' (fun c' hlater => htypes c' (hlater.head hturns))
          (fun c' hlater => hspared c' (hlater.head hturns)) hd
        refine ⟨fuel' + 1, c', ?_⟩
        rw [handleExpected_of_ready fuel' hready, hturn]
        exact hd'

/-- The loop returns exactly if every handler call in it is spared. -/
theorem returns_loop_iff (hpoised : Poised library c)
    (htypes : ∀ c', Relation.ReflTransGen (Turns (tabled library)) c c' → PlainTypes c') :
    Returns (tabled library) c ↔
      ∀ c', Relation.ReflTransGen (Turns (tabled library)) c c' → ready c' = true →
        Spared (tabled library) c' := by
  constructor
  · intro hreturns c' hlater hready
    have hreason := (finishes_iff hpoised.tame htypes).mp hreturns.finishes c' hlater
    exact spared_of_returned hready hreason ((hreturns.of_later hlater).returned hready)
  · intro hspared
    refine returns_of_finishes hpoised htypes hspared ((finishes_iff hpoised.tame htypes).mpr ?_)
    rintro c' hlater ⟨hready, secType, block, hhands, hzero⟩
    exact ((hspared c' hlater hready).reason secType block hhands).1 hzero

/-- A version header that is complete is answered if it is one of 3.3 or later. -/
theorem returned_deliver_iff (data : Bytes) :
    returned ((deliver (tabled library) data).run c) = true ↔ Greets (extend c data) := by
  unfold Greets
  cases hphase : c.phase with
  | expecting e =>
    have hextended : (extend c data).phase = .expecting e := hphase
    rw [run_deliver_of_expecting _ hphase, hextended]
    simp [RFBClient.returned]
  | initial =>
    have hextended : (extend c data).phase = .initial := hphase
    rw [run_deliver_of_initial _ hphase, run_handleInitial, hextended]
    by_cases hheader : normalise ((extend c data).packet.take 12) = header
    · rw [if_pos hheader, run_answerHeader, ← negotiate_isSome_iff]
      cases negotiate (announced ((extend c data).packet.take 12)) <;>
        simp [RFBClient.returned, hheader]
    · rw [if_neg hheader]
      split_ifs
      · simp [RFBClient.returned, hheader]
      · rw [run_abortConnection]
        simp [RFBClient.returned, hheader]

/-- A call of `dataReceived` makes finitely many handler calls and returns exactly if the version
header it completes, if it does, is one of 3.3 or later, and every handler call of its loop is
spared: whatever came before it, however that was cut, and for every password. -/
theorem returns_iff {factory : Factory} {decoding : Decoding codecs} {own : S} {received : Bytes}
    {d : Delivery (Decoding codecs) S}
    (h : ReachesBy PlainTypes (tabled library) (fresh factory decoding own) received d)
    (hrest : Resting d) (data : Bytes)
    (htypes : ∀ c', InLoop (tabled library) (client d) data c' → PlainTypes c') :
    (∃ fuel c', dataReceived (tabled library) fuel (client d) data = some (.ok () c')) ↔
      ((client d).aborted = false → Greets (extend (client d) data)) ∧
        ∀ c', InLoop (tabled library) (client d) data c' → ready c' = true →
          Spared (tabled library) c' := by
  have hpoised : Poised library (client ((deliver (tabled library) data).run (client d))) :=
    (poised_of_reachesBy (reachesBy_of_resting h hrest)).deliver data
  have hgreets := @returned_deliver_iff codecs S library (client d) data
  unfold dataReceived
  by_cases habort : (client d).aborted = true
  · simp only [habort, if_true]
    refine ⟨fun _ => ⟨fun hlive => (by cases hlive), ?_⟩, fun _ => ⟨0, _, rfl⟩⟩
    exact fun c' hloop => absurd (hloop.1.symm.trans habort) (by simp)
  have hlive : (client d).aborted = false := by simpa using habort
  simp only [hlive, Bool.false_eq_true, if_false, true_imp_iff]
  cases hdeliver : (deliver (tabled library) data).run (client d) with
  | error e c₁ =>
    -- Only a version header raises before the loop is reached.
    rw [hdeliver] at hgreets
    refine ⟨?_, fun hboth => absurd (hgreets.mpr hboth.1) (by simp [RFBClient.returned])⟩
    rintro ⟨fuel, c', hd⟩
    cases hd
  | ok _ c₁ =>
    rw [hdeliver] at hpoised hgreets
    have hinLoop : ∀ c', InLoop (tabled library) (client d) data c' ↔
        Relation.ReflTransGen (Turns (tabled library)) c₁ c' := by
      intro c'
      constructor
      · rintro ⟨-, c₂, hok, hlater⟩
        obtain ⟨-, rfl⟩ := EStateM.Result.ok.inj (hdeliver.symm.trans hok)
        exact hlater
      · exact fun hlater => ⟨hlive, c₁, hdeliver, hlater⟩
    simp only [hinLoop] at htypes ⊢
    exact (returns_loop_iff hpoised htypes).trans (and_iff_right (hgreets.mp rfl)).symm

/-! ## A refusal with a reason -/

/-- A loop that has ended takes no turn. -/
theorem eq_of_later_resting {c' : RFBClient (Decoding codecs) S}
    (hrest : ready c = false) (hlater : Relation.ReflTransGen (Turns env) c c') : c' = c := by
  rcases Relation.ReflTransGen.cases_head hlater with heq | ⟨_, hturns, -⟩
  · exact heq.symm
  · exact absurd (hturns.1.symm.trans hrest) (by simp)

/-- The loop goes on from where a turn leads. -/
theorem eq_or_later_of_turns {c₁ c' : RFBClient (Decoding codecs) S} (hturns : Turns env c c₁)
    (hlater : Relation.ReflTransGen (Turns env) c c') :
    c' = c ∨ Relation.ReflTransGen (Turns env) c₁ c' := by
  rcases Relation.ReflTransGen.cases_head hlater with heq | ⟨c₂, hturns', hlater⟩
  · exact .inl heq.symm
  · obtain ⟨-, rfl⟩ := EStateM.Result.ok.inj (hturns.2.symm.trans hturns'.2)
    exact .inr hlater

/-- A handler that no generator is suspended in is spared. -/
theorem spared_of_unsuspended {e : Expected (Decoding codecs) S} (hphase : c.phase = .expecting e)
    (hpump : ∀ task size resume, e ≠ .pump task size resume)
    (hended : ∀ task size, e ≠ .ended task size) : Spared env c where
  challenge _ _ hhands := absurd (Phase.expecting.inj (hphase.symm.trans hhands.1)) (hpump _ _ _)
  reason _ _ hhands := absurd (Phase.expecting.inj (hphase.symm.trans hhands.1)) (hpump _ _ _)
  indices _ _ _ _ hhands :=
    absurd (Phase.expecting.inj (hphase.symm.trans hhands.1)) (hpump _ _ _)
  packed _ _ _ _ _ _ hhands :=
    absurd (Phase.expecting.inj (hphase.symm.trans hhands.1)) (hpump _ _ _)
  ended _ _ _ hhands := absurd (Phase.expecting.inj (hphase.symm.trans hhands.1)) (hended _ _)

/-- A security type that waits for no challenge is, if four bytes are not zero and no longer than a
message may be. -/
theorem spared_of_security {secType : ℕ} {size : ℤ}
    {resume : Block size.toNat → DAttrs codecs S → GenStep (Decoding codecs) S Bool}
    (hphase : c.phase = .expecting (.pump (.security secType) size resume)) (hsize : size ≠ 16)
    (hreason : size = 4 →
      u32At (c.packet.take 4) 0 ≠ 0 ∧ u32At (c.packet.take 4) 0 ≤ maxMessagePayload) :
    Spared env c where
  challenge _ _ hhands := by
    cases Phase.expecting.inj (hphase.symm.trans hhands.1)
    exact absurd rfl hsize
  reason _ _ hhands := by
    obtain ⟨hphase', _, rfl⟩ := hhands
    cases Phase.expecting.inj (hphase.symm.trans hphase')
    exact hreason rfl
  indices _ _ _ _ hhands := by cases Phase.expecting.inj (hphase.symm.trans hhands.1)
  packed _ _ _ _ _ _ hhands := by cases Phase.expecting.inj (hphase.symm.trans hhands.1)
  ended _ _ _ hhands := by cases Phase.expecting.inj (hphase.symm.trans hhands.1)

end

/-- A fresh client that has answered a server of 3.8. -/
def answered38 (written : List Event) (packet : Bytes)
    (phase : Phase (Decoding sampleCodecs) Unit) : RFBClient (Decoding sampleCodecs) Unit where
  attrs := { (fresh {} {} () : RFBClient (Decoding sampleCodecs) Unit).attrs with
    version := (3, 8)
    versionServer := (3, 8)
    log := .wrote .protocolVersion (versionMessage (3, 8)) :: written }
  packet := packet
  phase := phase

/-- It is offered the type None, and refused it. -/
theorem turns_refused (rest : Bytes) :
    let env : Env (Decoding sampleCodecs) Unit := tabled sampleLibrary
    let offered := answered38 [] (1 :: 0 :: 0 :: 0 :: 1 :: rest) (.expecting (.securityTypes 1))
    let chosen := answered38 [.wrote .securityType [1]] (0 :: 0 :: 0 :: 1 :: rest)
      (.expecting (awaitingResult env 1))
    Turns env (answered38 [] (1 :: 1 :: 0 :: 0 :: 0 :: 1 :: rest) (.expecting .numberSecurityTypes))
        offered ∧
      Turns env offered chosen ∧
      Turns env chosen (answered38 [.wrote .securityType [1]] rest
        (.expecting (awaitingReasonLength env 1))) := by
  intro env offered chosen
  have hlen : 4 ≤ chosen.packet.length := by
    show 4 ≤ rest.length + 4
    omega
  have hhands : Hands chosen (awaitingResult env 1) (Block.ofPrefix 4 chosen.packet hlen) :=
    ⟨rfl, hlen, rfl⟩
  refine ⟨⟨rfl, rfl⟩, ⟨rfl, rfl⟩, rfl, ?_⟩
  rw [run_turn_of_hands _ hhands,
    run_handle_awaitingResult_of_le (.inl rfl) (show Ver.le (3, 8) (3, 8) by decide)]
  rfl

/-- A server that speaks 3.8 refuses None for a reason of one byte, all in one delivery: the client
reports the reason and closes, and the call returns. -/
theorem returns_iff_refused :
    let env : Env (Decoding sampleCodecs) Unit := tabled sampleLibrary
    let c₀ : RFBClient (Decoding sampleCodecs) Unit := fresh {} {} ()
    let sent : Bytes :=
      [82, 70, 66, 32, 48, 48, 51, 46, 48, 48, 56, 10, 1, 1, 0, 0, 0, 1, 0, 0, 0, 1, 120]
    ∃ fuel c', dataReceived env fuel c₀ sent = some (.ok () c') := by
  intro env c₀ sent
  obtain ⟨hoffered, hchosen, hrefused⟩ := turns_refused [0, 0, 0, 1, 120]
  let c₄ := answered38 [.wrote .securityType [1]] [0, 0, 0, 1, 120]
    (.expecting (awaitingReasonLength env 1))
  let c₅ := answered38 [.wrote .securityType [1]] [120] (.expecting (awaitingReason env 1 1))
  let c₆ := answered38
    [.wrote .securityType [1], .called (.vncAuthFailed (.bytes [120])), .loseConnection] []
    (.expecting (.ended (.security 1) 1))
  have hlength : Turns env c₄ c₅ := by
    have hhands : Hands c₄ (awaitingReasonLength env 1) (Block.ofPrefix 4 c₄.packet (by decide)) :=
      ⟨rfl, by decide, rfl⟩
    refine ⟨rfl, ?_⟩
    rw [run_turn_of_hands _ hhands, run_handle_awaitingReasonLength_of_le (by decide)]
    rfl
  have hreason : Turns env c₅ c₆ := by
    have hhands : Hands c₅ (awaitingReason env 1 1) (Block.ofPrefix 1 c₅.packet (by decide)) :=
      ⟨rfl, by decide, rfl⟩
    refine ⟨rfl, ?_⟩
    rw [run_turn_of_hands _ hhands, run_handle_awaitingReason 1]
    rfl
  -- The six points of the loop, one after the other.
  have hpoints : ∀ c', InLoop env c₀ sent c' → PlainTypes c' ∧ (ready c' = true → Spared env c') := by
    rintro c' ⟨-, c, hdeliver, hlater⟩
    obtain rfl := (EStateM.Result.ok.inj hdeliver).2
    rcases eq_or_later_of_turns hoffered hlater with rfl | hlater
    · refine ⟨fun _ _ => nofun, fun _ => ?_⟩
      exact spared_of_unsuspended rfl (fun _ _ _ => nofun) fun _ _ => nofun
    rcases eq_or_later_of_turns hchosen hlater with rfl | hlater
    · refine ⟨fun secType _ hsettled => ?_, fun _ => ?_⟩
      · obtain rfl : 1 = secType := Option.some.inj hsettled
        decide
      · exact spared_of_unsuspended rfl (fun _ _ _ => nofun) fun _ _ => nofun
    rcases eq_or_later_of_turns hrefused hlater with rfl | hlater
    · exact ⟨fun _ _ => nofun, fun _ => spared_of_security rfl (by decide) fun _ => by decide⟩
    rcases eq_or_later_of_turns hlength hlater with rfl | hlater
    · exact ⟨fun _ _ => nofun, fun _ => spared_of_security rfl (by decide) fun _ => by decide⟩
    rcases eq_or_later_of_turns hreason hlater with rfl | hlater
    · refine ⟨fun _ _ => nofun, fun _ => spared_of_security rfl (by decide) fun hsize => ?_⟩
      exact absurd hsize (by decide)
    · obtain rfl := eq_of_later_resting rfl hlater
      exact ⟨fun _ _ => nofun, fun hready => absurd hready (by decide)⟩
  exact (returns_iff (d := .ok () c₀) .start rfl sent fun c' hloop => (hpoints c' hloop).1).mpr
    ⟨fun _ _ _ => by decide, fun c' hloop => (hpoints c' hloop).2⟩

/-- With an empty reason instead the call does not return. -/
theorem not_returns_empty_reason :
    let env : Env (Decoding sampleCodecs) Unit := tabled sampleLibrary
    let c₀ : RFBClient (Decoding sampleCodecs) Unit := fresh {} {} ()
    let sent : Bytes := [82, 70, 66, 32, 48, 48, 51, 46, 48, 48, 56, 10, 1, 1, 0, 0, 0, 1, 0, 0, 0, 0]
    ∀ fuel, dataReceived env fuel c₀ sent = none := by
  intro env c₀ sent fuel
  obtain ⟨hoffered, hchosen, hrefused⟩ := turns_refused [0, 0, 0, 0]
  have hreads : ReadsEmptyReason env (answered38 [.wrote .securityType [1]] [0, 0, 0, 0]
      (.expecting (awaitingReasonLength env 1))) :=
    ⟨rfl, 1, Block.ofPrefix 4 [0, 0, 0, 0] (by decide), ⟨rfl, by decide, rfl⟩, rfl⟩
  cases hdata : dataReceived env fuel c₀ sent with
  | none => rfl
  | some d =>
    have hfinishes : Finishes env _ := ⟨fuel, d, hdata⟩
    have hlater := ((hfinishes.of_turns hoffered).of_turns hchosen).of_turns hrefused
    exact absurd hlater (not_finishes_of_stuck (.length hreads))

end RFBClient

end VncDoTool
