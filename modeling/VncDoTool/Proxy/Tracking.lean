import VncDoTool.Proxy.Observer

/-!
# The pixel format of a logged session

The observer of a session decodes with the format that is in force between the server and the real
client, exactly where it could read what the server announced or the client has asked for a format.

* `VNCLoggingClient.frame`: what leaves the format of an observer alone.
* `VNCLoggingClient.Tracks`: how the format of an observer follows the session;
  `VNCLoggingClient.tracks_delivered`, `tracks_next`, `tracks_told`: every step keeps it.
* `LoggingSession.observer_format`: the format of an observer that goes on decoding.
-/

namespace VncDoTool

/-- Pillow has a mode for it. -/
def PixelFormat.Readable (pf : PixelFormat) : Prop := ∃ mode, pf.rawMode = .ok mode

namespace VNCLoggingClient

open RFBClient VNCDoToolClient

variable {codecs : Codecs} {a a' a'' : State codecs}

/-! ## What leaves the format alone -/

/-- The pixel format and the mode that unpacks it are as they were. -/
structure SameFormat (a a' : State codecs) : Prop where
  pixelFormat : a'.pixelFormat = a.pixelFormat
  imageMode : a'.own.imageMode = a.own.imageMode

theorem SameFormat.refl (a : State codecs) : SameFormat a a := ⟨rfl, rfl⟩

theorem SameFormat.trans (h : SameFormat a a') (h' : SameFormat a' a'') : SameFormat a a'' :=
  ⟨h'.pixelFormat.trans h.pixelFormat, h'.imageMode.trans h.imageMode⟩

/-- Code that leaves the format alone. -/
abbrev Leaves {α : Type} (m : Py (State codecs) α) : Prop := Effect.Does SameFormat m

section

variable {α β : Type}

theorem leaves_pure (v : α) : Leaves (pure v : Py (State codecs) α) :=
  Effect.does_pure SameFormat.refl v

theorem leaves_bind {m : Py (State codecs) α} {f : α → Py (State codecs) β} (hm : Leaves m)
    (hf : ∀ v, Leaves (f v)) : Leaves (m >>= f) :=
  Effect.does_bind (fun _ _ _ h h' => h.trans h') hm hf

theorem leaves_get_bind {f : State codecs → Py (State codecs) α} (h : ∀ a, Leaves (f a)) :
    Leaves (get >>= f) := Effect.does_get_bind fun a => h a a

theorem leaves_emit (e : Event) : Leaves (Attrs.emit e : Py (State codecs) Unit) := fun _ => ⟨rfl, rfl⟩

theorem leaves_setFields {f : Fields → Fields} (h : ∀ s, (f s).imageMode = s.imageMode) :
    Leaves (setFields f : Py (State codecs) Unit) := fun a => ⟨rfl, h a.own⟩

theorem leaves_ofExcept (v : Except PyErr α) : Leaves (RFBClient.ofExcept v : Py (State codecs) α) := by
  cases v with
  | ok v => exact leaves_pure v
  | error e => exact Effect.does_throw SameFormat.refl e

theorem leaves_encoded (v : Except EncodeError Bytes) :
    Leaves (encoded v : Py (State codecs) Bytes) := by
  rcases v with e | v
  · cases e <;> exact Effect.does_throw SameFormat.refl _
  · exact leaves_pure v

theorem leaves_framebufferUpdateRequest :
    Leaves (VNCDoToolClient.framebufferUpdateRequest : Py (State codecs) Unit) := by
  unfold VNCDoToolClient.framebufferUpdateRequest
  refine leaves_get_bind fun a => leaves_bind (leaves_encoded _) fun message => ?_
  exact leaves_emit _

theorem leaves_rawModeFor (pixelFormat : PixelFormat) :
    Leaves (rawModeFor pixelFormat : Py (State codecs) (Option RawMode)) := by
  unfold rawModeFor
  refine leaves_get_bind fun a => ?_
  split_ifs
  · refine leaves_bind (leaves_setFields fun _ => rfl) fun _ => ?_
    split
    · exact Effect.does_throw SameFormat.refl _
    · exact leaves_bind (leaves_setFields fun _ => rfl) fun _ => leaves_pure _
  · exact leaves_pure _

end

section

variable (library : Library) (imaging : Imaging)

/-- A method other than `vncConnectionMade`. -/
theorem leaves_callback {method : RFBClient.Callback} (h : method ≠ .vncConnectionMade) :
    Leaves (callback (hooks : Hooks codecs) library imaging method) := by
  cases method with
  | vncConnectionMade => exact absurd rfl h
  | vncRequestPassword =>
    refine leaves_get_bind fun a => ?_
    split
    · exact leaves_bind (leaves_emit _) fun _ => leaves_pure _
    · refine leaves_bind (leaves_ofExcept _) fun key => leaves_get_bind fun a => ?_
      exact leaves_emit _
  | vncAuthFailed reason => exact leaves_pure _
  | vncProtocolError reason => exact leaves_pure _
  | beginUpdate => exact leaves_pure _
  -- What an update completes changes the connection's own fields only, never `pixel_format`.
  | commitUpdate rectangles =>
    refine leaves_get_bind fun a => ?_
    split_ifs
    · exact leaves_framebufferUpdateRequest
    · refine leaves_bind (leaves_setFields fun _ => rfl) fun _ => ?_
      exact leaves_framebufferUpdateRequest
    · refine leaves_bind (leaves_setFields fun _ => rfl) fun _ => ?_
      exact fun a => SameFormat.refl a
    · exact leaves_pure _
  -- A conversion Pillow refuses raises before anything is pasted.
  | updateRectangle rect data pixelFormat =>
    change Leaves (updateRectangle imaging rect data pixelFormat)
    unfold updateRectangle
    split_ifs
    · exact leaves_pure _
    · refine leaves_bind (leaves_rawModeFor _) fun mode => ?_
      exact leaves_bind (leaves_ofExcept _) fun update => fun a => ⟨rfl, rfl⟩
  | copyRectangle srcx srcy rect =>
    refine leaves_get_bind fun a => ?_
    split
    · exact leaves_pure _
    · exact leaves_setFields fun _ => rfl
  | updateCursor rect image mask =>
    refine leaves_get_bind fun a => ?_
    split_ifs
    · exact leaves_pure _
    · exact leaves_setFields fun _ => rfl
    · exact leaves_bind (leaves_ofExcept _) fun cursor => leaves_setFields fun _ => rfl
  | updatePointerPos x y => exact fun a => ⟨rfl, rfl⟩
  | updateDesktopSize width height =>
    change Leaves (updateDesktopSize width height)
    unfold updateDesktopSize
    split_ifs
    · exact fun a => ⟨rfl, rfl⟩
    · exact Effect.does_throw SameFormat.refl _
  | setColorMap first colours => exact leaves_pure _
  | bell => exact leaves_pure _
  | copyText text => exact leaves_pure _

/-- Behind the server's name an observer leaves its format alone. -/
theorem frame : Frame (@env codecs library imaging) SameFormat where
  refl := SameFormat.refl
  trans h h' := h.trans h'
  quiet := by
    rintro a a' ⟨decoding, encodings, rfl⟩
    exact ⟨rfl, rfl⟩
  counts _ _ _ := ⟨rfl, rfl⟩
  emits _ _ _ := ⟨rfl, rfl⟩
  calls method hmethod := leaves_bind (leaves_emit _) fun _ => leaves_callback library imaging hmethod

end

/-! ## Asking for a format -/

/-- The format an observer settles on: the last that was asked for, or the server's, where it can be
read, or one of its own. -/
def chosen (formats : List PixelFormat) (native : PixelFormat) : PixelFormat :=
  formats.getLast?.getD (if native.rawMode.isOk then native else .rgbx8888)

/-- The observer decodes with a format from now on. -/
structure Decides (format : PixelFormat) (a a' : State codecs) : Prop where
  pixelFormat : a'.pixelFormat = format
  mode : format.rawMode = .ok a'.own.imageMode
  own : ∃ mode, a'.own = { a.own with imageMode := mode }

/-- A format that can be read is asked for. -/
theorem run_requestPixelFormat {pixelFormat : PixelFormat} (hreadable : pixelFormat.Readable)
    (hbytes : ∃ b, pixelFormat.toBytes = some b) (a : State codecs) :
    ∃ a', (requestPixelFormat hooks pixelFormat).run a = .ok () a' ∧ Decides pixelFormat a a' := by
  obtain ⟨mode, hmode⟩ := hreadable
  obtain ⟨b, hb⟩ := hbytes
  have hmessage : RFBClient.setPixelFormat pixelFormat =
      .ok ([UInt8.ofNat MsgC2S.setPixelFormat.value, 0, 0, 0] ++ b) := by
    unfold RFBClient.setPixelFormat
    rw [hb]
    rfl
  unfold requestPixelFormat VNCDoToolClient.setPixelFormat
  rw [hmode, hmessage]
  exact ⟨_, rfl, rfl, hmode, mode, rfl⟩

/-- One that cannot be read stops the observer. -/
theorem complains_requestPixelFormat {pixelFormat : PixelFormat} (h : ¬pixelFormat.Readable)
    (a : State codecs) :
    (Effect.state ((requestPixelFormat hooks pixelFormat).run a)).log.any Event.complains = true := by
  unfold requestPixelFormat
  cases hmode : pixelFormat.rawMode with
  | ok mode => exact absurd ⟨mode, hmode⟩ h
  | error exc =>
    change (a.log ++ [Event.called (.vncProtocolError _)] ++ [Event.loseConnection]).any
      Event.complains = true
    simp [Event.complains]

/-- What the real client has asked for, as an observer keeps it. -/
structure Asks (formats : List PixelFormat) (s : Fields) : Prop where
  requested : s.requestedPixelFormat = formats.getLast?
  encodings : s.requestedEncodings = none
  quality : s.requestedJpegQuality = none
  options : s.options = {}

/-- The formats asked for come over the wire, and can be read. -/
def Accepts (formats : List PixelFormat) : Prop :=
  ∀ pixelFormat ∈ formats, pixelFormat.OnWire ∧ pixelFormat.Readable

theorem run_setImageMode {formats : List PixelFormat} (haccepts : Accepts formats)
    (h : a.own.requestedPixelFormat = formats.getLast?) :
    ∃ a', (setImageMode hooks).run a = .ok () a' ∧ Decides (chosen formats a.pixelFormat) a a' := by
  unfold setImageMode chosen
  rw [EStateM.run_bind, EStateM.run_get]
  dsimp only
  rw [h]
  cases hlast : formats.getLast? with
  | some pixelFormat =>
    obtain ⟨hwire, hreadable⟩ := haccepts pixelFormat (List.mem_of_getLast? hlast)
    exact run_requestPixelFormat hreadable hwire.toBytes a
  | none =>
    dsimp only [Option.getD_none]
    cases hmode : a.pixelFormat.rawMode with
    | ok mode => exact ⟨_, rfl, rfl, hmode, mode, rfl⟩
    | error exc =>
      -- Nothing can be read of the server's format: `setImageMode` asks for `rgbx8888`.
      have hbytes : PixelFormat.rgbx8888.toBytes.isSome = true := by decide +kernel
      exact run_requestPixelFormat ⟨_, PixelFormat.rawMode_rgbx8888⟩
        (Option.isSome_iff_exists.mp hbytes) a

theorem run_request {pixelFormat : PixelFormat} (hwire : pixelFormat.OnWire)
    (hreadable : pixelFormat.Readable) (a : State codecs) :
    ∃ a', (request pixelFormat).run a = .ok () a' ∧ Decides pixelFormat
      { a with own := { a.own with requestedPixelFormat := some pixelFormat } } a' :=
  run_requestPixelFormat hreadable hwire.toBytes _

theorem complains_request {pixelFormat : PixelFormat} (h : ¬pixelFormat.Readable) (a : State codecs) :
    (Effect.state ((request pixelFormat).run a)).log.any Event.complains = true :=
  complains_requestPixelFormat h { a with
    own := { a.own with requestedPixelFormat := some pixelFormat } }

theorem setEncodings_offered : ∃ message, RFBClient.setEncodings (offeredEncodings {}) = .ok message := by
  have hok : (RFBClient.setEncodings (offeredEncodings {})).isOk = true := by decide +kernel
  cases hmessage : RFBClient.setEncodings (offeredEncodings {}) with
  | ok message => exact ⟨message, rfl⟩
  | error e =>
    rw [hmessage] at hok
    exact absurd hok (by simp [Except.isOk, Except.toBool])

/-- The end of the handshake settles the format, and offers the encodings of the proxy. -/
theorem run_vncConnectionMade {formats : List PixelFormat} (haccepts : Accepts formats)
    (h : Asks formats a.own) :
    ∃ a', (vncConnectionMade hooks).run a = .ok () a' ∧
      a'.pixelFormat = chosen formats a.pixelFormat ∧
      (chosen formats a.pixelFormat).rawMode = .ok a'.own.imageMode := by
  obtain ⟨a₁, hrun, hdecides⟩ := run_setImageMode haccepts h.requested
  obtain ⟨mode, hown⟩ := hdecides.own
  -- The request carries neither a quality nor options, so what is offered is what a fresh client offers.
  have hquality : a₁.own.requestedJpegQuality = none := by
    rw [hown]
    exact h.quality
  have hoffered : offeredEncodings a₁.own = offeredEncodings {} := by
    unfold offeredEncodings
    rw [hown]
    dsimp only
    rw [h.encodings, h.options]
  have hrest : ∃ a', (VNCDoToolClient.setEncodings (offeredEncodings {}) : Py (State codecs) Unit).run a₁ =
      .ok () a' ∧ a'.pixelFormat = a₁.pixelFormat ∧ a'.own = a₁.own := by
    obtain ⟨message, hmessage⟩ := setEncodings_offered
    unfold VNCDoToolClient.setEncodings
    rw [hmessage]
    exact ⟨_, rfl, rfl, rfl⟩
  obtain ⟨a', hrest, hpixelFormat, hsame⟩ := hrest
  refine ⟨a', ?_, hpixelFormat.trans hdecides.pixelFormat, by rw [hsame]; exact hdecides.mode⟩
  -- `setImageMode`, then `setEncodings`: the second sends and keeps everything.
  unfold vncConnectionMade
  rw [EStateM.run_bind, hrun]
  dsimp only
  rw [EStateM.run_bind, EStateM.run_get]
  dsimp only
  rw [hquality]
  dsimp only
  rw [hoffered, EStateM.run_bind]
  dsimp only [EStateM.run_pure]
  rw [List.append_nil, EStateM.run_bind, hrest]
  rfl

/-! ## What every step keeps -/

/-- The format that the first bytes an observer was handed announce, once ServerInit is complete. -/
def announcedFormat (observed : Bytes) : PixelFormat :=
  if h : 24 ≤ observed.length then
    .fromBytes (.of _ (length_pixformat (Block.ofPrefix 24 observed h)))
  else {}

/-- More bytes announce nothing else. -/
theorem announcedFormat_append {observed : Bytes} (h : 24 ≤ observed.length) (data : Bytes) :
    announcedFormat (observed ++ data) = announcedFormat observed := by
  have hmore : 24 ≤ (observed ++ data).length := by
    rw [List.length_append]
    omega
  have hblock : Block.ofPrefix 24 (observed ++ data) hmore = Block.ofPrefix 24 observed h := by
    apply Block.ext
    rw [Block.bytes_ofPrefix, Block.bytes_ofPrefix, List.take_append_of_le_length h]
  unfold announcedFormat
  rw [dif_pos hmore, dif_pos h]
  simp only [hblock]

section

variable (library : Library) (imaging : Imaging) {formats : List PixelFormat} {observed : Bytes}
  {c c' : VNCLoggingClient codecs}

/-- How far an observer is, that has been handed some bytes and told of some formats. -/
inductive Stage (formats : List PixelFormat) (observed : Bytes) (c : VNCLoggingClient codecs) : Prop
  /-- It waits for ServerInit. -/
  | announcing (hphase : c.phase = .expecting .serverInit) (hpacket : c.packet = observed)
      (hasks : Asks formats c.attrs.own)
  /-- It waits for the server's name, with the server's format unless another was asked for. -/
  | naming (namelen : ℕ) (hphase : c.phase = .expecting (.serverName namelen))
      (hlen : 24 ≤ observed.length) (hasks : Asks formats c.attrs.own)
      (hformat : formats = [] → c.attrs.pixelFormat = announcedFormat observed)
  /-- It decodes. -/
  | decoding (hconnected : (frame library imaging).Connected c) (hlen : 24 ≤ observed.length)
      (hformat : c.attrs.pixelFormat = chosen formats (announcedFormat observed))
      (hmode : c.attrs.pixelFormat.rawMode = .ok c.attrs.own.imageMode)

/-- An observer that has not stopped could read every format that was asked for, and has followed. -/
def Tracks (formats : List PixelFormat) (observed : Bytes) (c : VNCLoggingClient codecs) : Prop :=
  c.aborted = false → (∀ pixelFormat ∈ formats, pixelFormat.Readable) ∧
    Stage library imaging formats observed c

theorem tracks_startLogging : Tracks library imaging [] [] (startLogging : VNCLoggingClient codecs) :=
  fun _ => ⟨by simp, .announcing rfl rfl ⟨rfl, rfl, rfl, rfl⟩⟩

/-- Bytes of the server come in. -/
theorem tracks_delivered (h : Tracks library imaging formats observed c) (hlive : c.aborted = false)
    (data : Bytes) :
    Tracks library imaging formats (observed ++ data) (delivered library imaging data c) := by
  obtain ⟨hreadable, hstage⟩ := h hlive
  -- A delivery only appends to the buffer: the stage stands until a handler is called.
  have hextend : ∀ {e}, c.phase = .expecting e → delivered library imaging data c = extend c data := by
    intro e hphase
    unfold delivered
    rw [run_deliver_of_expecting _ hphase]
    rfl
  -- Bytes behind a ServerInit leave the format it announced where it stood.
  have hmore : 24 ≤ observed.length → 24 ≤ (observed ++ data).length := by
    rw [List.length_append]
    omega
  refine fun _ => ⟨hreadable, ?_⟩
  cases hstage with
  | announcing hphase hpacket hasks =>
    rw [hextend hphase]
    exact .announcing hphase (by rw [← hpacket]; rfl) hasks
  | naming namelen hphase hlen hasks hformat =>
    rw [hextend hphase]
    refine .naming namelen hphase (hmore hlen) hasks fun hnone => ?_
    rw [announcedFormat_append hlen]
    exact hformat hnone
  | decoding hconnected hlen hformat hmode =>
    obtain ⟨e, hphase, -⟩ := id hconnected
    rw [hextend hphase]
    refine .decoding (hconnected.of_phase rfl) (hmore hlen) ?_ hmode
    rw [announcedFormat_append hlen]
    exact hformat

theorem client_onAttrs (m : Py (State codecs) Unit) (c : VNCLoggingClient codecs) :
    client ((onAttrs m).run c) = { c with attrs := Effect.state (m.run c.attrs) } := by
  rw [run_onAttrs]
  cases m.run c.attrs <;> rfl

theorem Stage.stopped (h : Stage library imaging formats observed c) :
    Stage library imaging formats observed (stopped c) := by
  cases h with
  | announcing hphase hpacket hasks => exact .announcing hphase hpacket hasks
  | naming namelen hphase hlen hasks hformat => exact .naming namelen hphase hlen hasks hformat
  | decoding hconnected hlen hformat hmode => exact .decoding (hconnected.of_phase rfl) hlen hformat hmode

/-- A turn of the loop. -/
theorem tracks_next (hwire : ∀ pixelFormat ∈ formats, pixelFormat.OnWire)
    (h : Tracks library imaging formats observed c) (hready : ready c = true) :
    Tracks library imaging formats observed (next library imaging c) := by
  obtain ⟨e, hphase, hlen, hlive⟩ := exists_of_ready hready
  obtain ⟨hreadable, hstage⟩ := h hlive
  refine fun hstill => ⟨hreadable, Stage.stopped library imaging ?_⟩
  cases hstage with
  -- ServerInit is complete: its format is the client's own now.
  | announcing hphase' hpacket hasks =>
    have hlen : 24 ≤ c.packet.length := by
      obtain rfl := Phase.expecting.inj (hphase.symm.trans hphase')
      exact hlen
    subst hpacket
    rw [run_turn _ hphase' hlen]
    refine .naming _ rfl hlen hasks fun _ => ?_
    unfold announcedFormat
    rw [dif_pos hlen]
    rfl
  -- So is the name: `vncConnectionMade` settles on a format.
  | naming namelen hphase' hlong hasks hformat =>
    have hlen : namelen ≤ c.packet.length := by
      obtain rfl := Phase.expecting.inj (hphase.symm.trans hphase')
      exact hlen
    obtain ⟨a', hrun, hpixelFormat, hmode⟩ := @run_vncConnectionMade codecs
      { c.attrs with
        name := (Block.ofPrefix namelen c.packet hlen).bytes
        log := c.attrs.log ++ [.called .vncConnectionMade] }
      formats (fun pixelFormat hmem => ⟨hwire pixelFormat hmem, hreadable pixelFormat hmem⟩) hasks
    have hcall : ((env library imaging).call .vncConnectionMade).run
        { c.attrs with name := (Block.ofPrefix namelen c.packet hlen).bytes } = .ok () a' := hrun
    have hturn : client ((turn (env library imaging)).run c) =
        { c with attrs := a', packet := c.packet.drop namelen, phase := .expecting .connection } := by
      rw [run_turn _ hphase' hlen]
      change client ((handleServerName (env library imaging) (Block.ofPrefix namelen c.packet hlen)).run
        { c with packet := c.packet.drop namelen }) = _
      unfold handleServerName
      rw [EStateM.run_bind, run_onAttrs]
      dsimp only [EStateM.run_modify]
      rw [EStateM.run_bind, run_onAttrs]
      dsimp only
      rw [hcall]
      rfl
    rw [hturn]
    have hchosen : a'.pixelFormat = chosen formats (announcedFormat observed) := by
      rw [hpixelFormat]
      by_cases hnone : formats = []
      · exact congrArg (chosen formats) (hformat hnone)
      · obtain ⟨pixelFormat, hlast⟩ := Option.ne_none_iff_exists'.mp
          (mt List.getLast?_eq_none_iff.mp hnone)
        unfold chosen
        rw [hlast]
        rfl
    refine .decoding ⟨.connection, rfl, trivial⟩ hlong hchosen ?_
    rw [← hpixelFormat] at hmode
    exact hmode
  -- Behind it no handler changes the format.
  | decoding hconnected hlong hformat hmode =>
    obtain ⟨hsame, hconnected'⟩ := (frame library imaging).turn hconnected hready
    refine .decoding hconnected' hlong (hsame.pixelFormat.trans hformat) ?_
    rw [hsame.pixelFormat, hsame.imageMode]
    exact hmode

theorem chosen_concat (formats : List PixelFormat) (pixelFormat native : PixelFormat) :
    chosen (formats ++ [pixelFormat]) native = pixelFormat := by
  unfold chosen
  rw [List.getLast?_concat, Option.getD_some]

/-- The real client asks for a format. -/
theorem tracks_handleSetPixelFormat {pixelFormat : PixelFormat} (hwire : pixelFormat.OnWire)
    (h : Tracks library imaging formats observed c) :
    Tracks library imaging (formats ++ [pixelFormat]) observed (handleSetPixelFormat pixelFormat c) := by
  unfold handleSetPixelFormat
  rw [client_onAttrs]
  intro hlive
  obtain ⟨hbefore, hquiet⟩ := Bool.or_eq_false_iff.mp hlive
  obtain ⟨hreadable, hstage⟩ := h hbefore
  by_cases hreads : pixelFormat.Readable
  · obtain ⟨a', hrun, hdecides⟩ := run_request hwire hreads c.attrs
    obtain ⟨mode, hown⟩ := hdecides.own
    have hasks : Asks formats c.attrs.own → Asks (formats ++ [pixelFormat]) a'.own := by
      rintro ⟨-, hencodings, hquality, hoptions⟩
      rw [hown]
      exact ⟨List.getLast?_concat.symm, hencodings, hquality, hoptions⟩
    -- A format the observer can read becomes the one it asks for, whatever stage it is in.
    refine ⟨?_, Stage.stopped library imaging ?_⟩
    · simp only [List.mem_append, List.mem_singleton]
      rintro other (hmem | rfl)
      · exact hreadable other hmem
      · exact hreads
    · rw [hrun, Effect.state_ok]
      cases hstage with
      | announcing hphase hpacket hbefore => exact .announcing hphase hpacket (hasks hbefore)
      | naming namelen hphase hlen hbefore _ =>
        exact .naming namelen hphase hlen (hasks hbefore) fun hnone => absurd hnone (by simp)
      | decoding hconnected hlen _ _ =>
        refine .decoding (hconnected.of_phase rfl) hlen ?_ ?_
        · exact hdecides.pixelFormat.trans (chosen_concat _ _ _).symm
        · have hmode := hdecides.mode
          rwa [← hdecides.pixelFormat] at hmode
  · -- an observer that cannot read the format stops
    have hcomplains := complains_request hreads c.attrs
    exact absurd (hcomplains.symm.trans hquiet) (by simp)

/-- The real client offers encodings. -/
theorem tracks_handleSetEncodings (encodings : List ℤ) (h : Tracks library imaging formats observed c) :
    Tracks library imaging formats observed (handleSetEncodings encodings c) := by
  intro hlive
  obtain ⟨hreadable, hstage⟩ := h hlive
  refine ⟨hreadable, ?_⟩
  cases hstage with
  | announcing hphase hpacket hasks => exact .announcing hphase hpacket hasks
  | naming namelen hphase hlen hasks hformat => exact .naming namelen hphase hlen hasks hformat
  | decoding hconnected hlen hformat hmode => exact .decoding (hconnected.of_phase rfl) hlen hformat hmode

/-- The observer of a proxy, if there is one, follows. -/
structure Followed (formats : List PixelFormat) (p : VNCLoggingClientProxy codecs) : Prop where
  wire : ∀ pixelFormat ∈ formats, pixelFormat.OnWire
  tracks : ∀ c, p.vnclog = some c → Tracks library imaging formats p.observed c

/-- A call of the parser. -/
theorem Followed.told {p : VNCLoggingClientProxy codecs} (h : Followed library imaging formats p)
    {call : Callback} (hcall : call.OnWire) :
    Followed library imaging (call.adds formats) (p.told call) := by
  have hmap : ∀ (f : VNCLoggingClient codecs → VNCLoggingClient codecs) (formats' : List PixelFormat),
      (∀ c, Tracks library imaging formats p.observed c →
        Tracks library imaging formats' p.observed (f c)) →
      ∀ c, p.vnclog.map f = some c → Tracks library imaging formats' p.observed c := by
    intro f formats' hf c hc
    obtain ⟨c₀, hc₀, rfl⟩ := Option.map_eq_some_iff.mp hc
    exact hf c₀ (h.tracks c₀ hc₀)
  cases call with
  | clientInit shared =>
    -- `startLogging` makes a new observer, whatever there was.
    refine ⟨by simp [Callback.adds], fun c hc => ?_⟩
    obtain rfl := Option.some.inj hc
    exact tracks_startLogging library imaging
  | setPixelFormat pixelFormat =>
    refine ⟨?_, hmap _ _ fun c hc => tracks_handleSetPixelFormat library imaging hcall hc⟩
    simp only [Callback.adds, List.mem_append, List.mem_singleton]
    rintro other (hmem | rfl)
    · exact h.wire other hmem
    · exact hcall
  | setEncodings encodings =>
    exact ⟨h.wire, hmap _ _ fun c hc => tracks_handleSetEncodings library imaging encodings hc⟩
  | _ => exact h

/-- All calls of a chunk. -/
theorem Followed.foldl_told {calls : List Callback} (hcalls : ∀ call ∈ calls, call.OnWire)
    {p : VNCLoggingClientProxy codecs} (h : Followed library imaging formats p) :
    Followed library imaging (calls.foldl Callback.adds formats)
      (calls.foldl VNCLoggingClientProxy.told p) := by
  induction calls generalizing formats p with
  | nil => exact h
  | cons call calls ih =>
    exact ih (fun other hmem => hcalls other (List.mem_cons_of_mem _ hmem))
      (h.told library imaging (hcalls call List.mem_cons_self))

end

end VNCLoggingClient

namespace LoggingSession

open RFBClient VNCLoggingClient

variable {codecs : Codecs} {library : Library} {imaging : Imaging} {passwordRequired : Bool}
  {s : LoggingSession codecs} {c : VNCLoggingClient codecs}

/-- The observer of a session follows what the real client asks for. -/
theorem followed_of_reaches (h : Reaches library imaging passwordRequired s) :
    Followed library imaging s.server.formats s.peer := by
  induction h with
  | start => exact ⟨by simp [RFBServer.formats, RFBServer.calls], fun c hc => by simp at hc⟩
  | @client s server _ data hloops ih =>
    obtain ⟨new, hcalls, hwire⟩ := RFBServer.calls_loops hloops
    have hbuffered : server.calls = s.server.calls ++ new := hcalls
    have hfollowed := ih.foldl_told library imaging hwire
    unfold parsed RFBServer.formats
    dsimp only
    rw [hbuffered, List.drop_left, List.foldl_append]
    exact hfollowed
  | server _ hvnclog hlive data ih =>
    refine ⟨ih.wire, fun c hc => ?_⟩
    obtain rfl := Option.some.inj hc
    exact tracks_delivered library imaging (ih.tracks _ hvnclog) hlive data
  | turned _ hvnclog hready ih =>
    refine ⟨ih.wire, fun c hc => ?_⟩
    obtain rfl := Option.some.inj hc
    exact tracks_next library imaging ih.wire (ih.tracks _ hvnclog) hready

/-- The format that the proxy takes to be in force between the server and the real client: the last that its
parser has read, or else the one that the server announced. -/
def formatRead (s : LoggingSession codecs) : PixelFormat :=
  s.server.formats.getLast?.getD (announcedFormat s.peer.observed)

/-- An observer that has not handled the server's name yet. -/
def Waiting (c : VNCLoggingClient codecs) : Prop :=
  c.phase = .expecting .serverInit ∨ ∃ namelen, c.phase = .expecting (.serverName namelen)

/-- An observer that goes on decoding could unpack every format the proxy's parser has read, and unpacks
pixels in its own format. That is the last one read, or else the server's, exactly where one has been read or
Pillow has a mode for the server's: elsewhere the observer has taken up another, of which it has told
nobody. -/
theorem observer_format (h : Reaches library imaging passwordRequired s) (hvnclog : s.peer.vnclog = some c)
    (hlive : c.aborted = false) (hdecodes : ¬Waiting c) :
    (∀ pixelFormat ∈ s.server.formats, pixelFormat.Readable) ∧
      c.attrs.pixelFormat.rawMode = .ok c.attrs.own.imageMode ∧
      (c.attrs.pixelFormat = s.formatRead ↔
        s.server.formats ≠ [] ∨ (announcedFormat s.peer.observed).Readable) := by
  obtain ⟨hreadable, hstage⟩ := (followed_of_reaches h).tracks c hvnclog hlive
  cases hstage with
  | announcing hphase _ _ => exact absurd (.inl hphase) hdecodes
  | naming namelen hphase _ _ _ => exact absurd (.inr ⟨namelen, hphase⟩) hdecodes
  | decoding _ _ hformat hmode =>
    refine ⟨hreadable, hmode, ?_⟩
    rw [hformat]
    unfold chosen formatRead
    cases hlast : s.server.formats.getLast? with
    | some pixelFormat =>
      refine iff_of_true rfl (.inl ?_)
      rintro hnone
      rw [hnone] at hlast
      exact absurd hlast (by simp)
    -- No request was read: the observer keeps the server's format exactly if Pillow has a mode for it.
    | none =>
      rw [List.getLast?_eq_none_iff] at hlast
      rw [Option.getD_none, Option.getD_none]
      cases hnative : (announcedFormat s.peer.observed).rawMode with
      | ok mode => exact iff_of_true rfl (.inr ⟨mode, hnative⟩)
      | error exc =>
        -- It has taken up rgbx8888, which is not what the server announced.
        have hother : announcedFormat s.peer.observed ≠ .rgbx8888 := by
          intro hsame
          rw [hsame, PixelFormat.rawMode_rgbx8888] at hnative
          cases hnative
        refine iff_of_false (fun hsame => hother hsame.symm) ?_
        rintro (hasked | ⟨mode, hmode⟩)
        · exact hasked hlast
        · rw [hnative] at hmode
          cases hmode

/-- What a client of the None type sends up to ClientInit. -/
abbrev untilClientInit : Bytes := [82, 70, 66, 32, 48, 48, 51, 46, 48, 48, 56, 10, 1, 1]

/-- The ServerInit and the name of a server with a colour map of 256 entries. -/
abbrev mappedServer : Bytes :=
  [0, 1, 0, 1, 8, 8, 0, 0, 0, 7, 0, 7, 0, 3, 0, 3, 6, 0, 0, 0, 0, 0, 0, 1, 104]

/-- A key beyond all characters, and a request for a pixel format behind it. -/
abbrev keyAndFormat : Bytes :=
  [4, 1, 0, 0, 16, 8, 255, 19] ++ [0, 0, 0, 0, 32, 24, 0, 1, 0, 255, 0, 255, 0, 255, 16, 8, 0, 0, 0, 0]

/-- The parser once the client has sent ClientInit. -/
abbrev behindClientInit : RFBServer :=
  (({ passwordRequired := false } : RFBServer).dataReceived untilClientInit).1

/-- The parser once the method for the key has raised. -/
abbrev behindKey : RFBServer :=
  ({ behindClientInit with buffer := behindClientInit.buffer ++ keyAndFormat } : RFBServer).handle.1

theorem loops_untilClientInit :
    RFBServer.Loops { passwordRequired := false, buffer := untilClientInit } behindClientInit := by
  have hruns := RFBServer.runs_dataReceived untilClientInit { passwordRequired := false }
  exact RFBServer.loops_of_runs hruns (by decide +kernel)

/-- The method for the key raises, and the request is not read. -/
theorem loops_keyAndFormat :
    RFBServer.Loops { behindClientInit with buffer := behindClientInit.buffer ++ keyAndFormat }
      behindKey := by
  have hneed : ({ behindClientInit with buffer := behindClientInit.buffer ++ keyAndFormat } :
      RFBServer).handler.need ≤ (behindClientInit.buffer ++ keyAndFormat).length := by decide +kernel
  have hhandle : ({ behindClientInit with buffer := behindClientInit.buffer ++ keyAndFormat } :
      RFBServer).handle.2 = none := by decide +kernel
  have hcalls : behindKey.calls = behindClientInit.calls ++ [.keyEvent 0x1008FF13 1] := by
    decide +kernel
  have harm : behindKey.arm behindClientInit.handler = behindKey := by decide +kernel
  rw [← harm]
  exact .fail hneed (Prod.ext rfl hhandle) hcalls rfl

/-- In front of a server with a colour map, the observer of a client whose request the proxy has not read
takes up a format that nobody has told the server of. -/
theorem observer_format_mapped : ∃ (s : LoggingSession Decoders.sampleCodecs)
    (c : VNCLoggingClient Decoders.sampleCodecs), Reaches sampleLibrary sampleImaging false s ∧
      s.peer.vnclog = some c ∧ c.aborted = false ∧ s.server = behindKey ∧
      c.attrs.pixelFormat ≠ s.formatRead := by
  let s₀ : LoggingSession Decoders.sampleCodecs := { server := { passwordRequired := false } }
  have hcalls : behindClientInit.calls = [.clientInit 1] := by decide +kernel
  have hcalls' : behindKey.calls = [.clientInit 1, .keyEvent 0x1008FF13 1] := by decide +kernel
  have hpeer : ((s₀.parsed behindClientInit).parsed behindKey).peer =
      { vnclog := some startLogging } := by
    unfold parsed
    dsimp only
    rw [hcalls', hcalls]
    rfl
  have hformats : behindKey.formats = [] := by
    unfold RFBServer.formats
    rw [hcalls']
    rfl
  -- The run: ClientInit, a key above the last code point with a format behind it, ServerInit, two turns.
  have hinit := (@Reaches.start Decoders.sampleCodecs sampleLibrary sampleImaging false).client
    untilClientInit loops_untilClientInit
  have hkey := hinit.client keyAndFormat loops_keyAndFormat
  have hserver := hkey.server (by rw [hpeer]) rfl mappedServer
  have hnamed := hserver.turned rfl rfl
  have hdecoding := hnamed.turned rfl rfl
  refine ⟨_, _, hdecoding, rfl, rfl, rfl, ?_⟩
  have hiff := (observer_format hdecoding rfl rfl (by
    rintro (hphase | ⟨namelen, hphase⟩)
    · cases hphase
    · cases hphase)).2.2
  refine hiff.not.mpr ?_
  rintro (hasked | ⟨mode, hmode⟩)
  · exact hasked hformats
  · -- A colour map has no mode.
    have hmapped : (announcedFormat mappedServer).rawMode.isOk = false := by decide +kernel
    change (announcedFormat (((s₀.parsed behindClientInit).parsed behindKey).peer.observed ++
      mappedServer)).rawMode = .ok mode at hmode
    rw [hpeer] at hmode
    change (announcedFormat mappedServer).rawMode = .ok mode at hmode
    rw [hmode] at hmapped
    exact absurd hmapped (by simp [Except.isOk, Except.toBool])

end LoggingSession

end VncDoTool
