import VncDoTool.Client.Startup
import VncDoTool.DoTool.Screens

/-!
# What a CopyRect copies

A CopyRect names a rectangle in its header, and where to copy it from in the four bytes behind that.

* `VNCDoToolClient.awaitingSource`: the handler that waits for the four bytes;
  `VNCDoToolClient.phase_of_copyRect`: a header parks it.
* `VNCDoToolClient.Spans`: the screen spans the framebuffer; `VNCDoToolClient.spans_turned`: every turn
  keeps it so.
* `VNCDoToolClient.copies_real_content`: a source inside the framebuffer is copied as it was, and any
  other ends the session.
-/

namespace VncDoTool

namespace VNCDoToolClient

open RFBClient Decoders

variable {codecs : Codecs}

/-! ## The decoder -/

/-- `CopyRectDecoder.decodeForClient` behind its four bytes, with the call that `ClientDecoder` makes. -/
def copySource (callback : RFBClient.Callback → Py (State codecs) Unit) (rect : Rect) (source : Block 4) :
    Gen (Decoding codecs) Fields Outcome := do
  let srcx := u16At source.bytes 0
  let srcy := u16At source.bytes 2
  let a ← Coroutine.get
  if srcx + rect.width > a.width ∨ srcy + rect.height > a.height then
    Gen.raise .decodeError (s!"copy source ({srcx},{srcy},{rect.width},{rect.height}) is outside a " ++
      s!"{a.width}x{a.height} framebuffer")
  else
    Gen.lift (invoke callback (.copyRectangle srcx srcy rect))
    pure { changed := true }

/-- The handler that waits for the four bytes. -/
def awaitingSource (callback : RFBClient.Callback → Py (State codecs) Unit) (rect : Rect) :
    Expected (Decoding codecs) Fields :=
  .pump (.rectangle rect) 4 fun source t => (copySource callback rect source).run t

theorem run_copyRectDecoder (callback : RFBClient.Callback → Py (State codecs) Unit) (rect : Rect)
    (pixelFormat : PixelFormat) (a : State codecs) :
    ((copyRectDecoder callback).decode rect pixelFormat).run a =
      .yielded a (.bytes 4) fun source t => (copySource callback rect source).run t := by
  change (copyRectDecodeForClient rect pixelFormat >>= _ : Gen (Decoding codecs) Fields Outcome).run a = _
  unfold copyRectDecodeForClient copySource
  rw [Coroutine.run_bind, Coroutine.run_bind]
  change Coroutine.Step.yielded a (Request.bytes 4) _ = _
  congr 1
  funext source t
  simp only [Coroutine.run_bind, Coroutine.run_get, Coroutine.Step.bind_done]
  split_ifs <;> rfl

/-- The header of a CopyRect parks it, whatever comes in before the four bytes do. -/
theorem phase_of_copyRect (audience : Audience codecs) (library : Library) (imaging : Imaging)
    {c : RFBClient (Decoding codecs) Fields} {header : Block 12} (hheader : Hands c .rectangle header)
    (hencoding : i32At header.bytes 8 = Encoding.copyRectangle)
    (hremaining : remaining header c.attrs.rectangles ≠ 0) :
    (next (stageEnv audience library imaging) c).phase =
      .expecting (awaitingSource (stageEnv audience library imaging).callback (announcedRect header)) := by
  have hdecoder : (stageEnv audience library imaging).decoders Encoding.copyRectangle =
      some (copyRectDecoder (stageEnv audience library imaging).callback) := rfl
  have hrun : (handle (stageEnv audience library imaging) .rectangle header).run
      { c with packet := c.packet.drop 12 } = (handleRectangle _ header).run _ := rfl
  unfold next
  rw [run_turn_of_hands _ hheader, hrun, run_handleRectangle, if_pos hremaining, run_pumpRectangle,
    hencoding, hdecoder]
  simp only [run_copyRectDecoder]
  exact congrArg (fun r => (client r).phase) (run_pump_of_yielded _ _ 4 _ _)

/-! ## Where a copy reads from -/

/-- The screen spans the framebuffer. -/
def Spans (a : State codecs) : Prop :=
  ∀ s, a.own.screen = some s → a.width ≤ s.width ∧ a.height ≤ s.height

/-- What a copy inside an image leaves: the source, as it was, where the copy lies, and the rest of the
image around it. -/
theorem pixel_copied {screen : Canvas} {srcx srcy : ℕ} {rect : Rect}
    (hwidth : srcx + rect.width ≤ screen.width) (hheight : srcy + rect.height ≤ screen.height)
    (i j : ℕ) :
    (screen.paste (screen.crop srcx srcy rect.width rect.height) rect.x rect.y).pixel i j =
      if rect.Covers i j then screen.pixel (srcx + (i - rect.x)) (srcy + (j - rect.y))
      else screen.pixel i j := by
  rw [Canvas.pixel_paste]
  by_cases hcovers : rect.Covers i j
  · -- What a covered coordinate is copied from is on the image, and not in the padding of the crop.
    have hon : srcx + (i - rect.x) < screen.width ∧ srcy + (j - rect.y) < screen.height := by
      obtain ⟨⟨hleft, hright⟩, htop, hbottom⟩ := hcovers
      omega
    rw [if_pos hcovers]
    refine (if_pos hcovers).trans ?_
    exact if_pos hon
  · rw [if_neg hcovers]
    exact if_neg hcovers

section

variable (audience : Audience codecs) (library : Library) (imaging : Imaging)
  {c : RFBClient (Decoding codecs) Fields}

theorem spans_turned (hspans : Spans c.attrs)
    (hbeat : Beat (stageEnv audience library imaging) c.attrs
      (next (stageEnv audience library imaging) c).attrs) :
    Spans (next (stageEnv audience library imaging) c).attrs := by
  obtain ⟨es, -, hrepaints⟩ := repaints_of_beat audience library imaging hbeat
  intro s hs
  -- A beat leaves the screen, copies within it, sets its size anew, or pastes and grows it.
  cases hrepaints with
  | same hsize hscreen hcalls =>
    rw [hsize.1, hsize.2]
    exact hspans s (hscreen.symm.trans hs)
  | copies screen srcx srcy rect hscreen hinside hsize hnew hcalls =>
    obtain rfl := Option.some.inj (hnew.symm.trans hs)
    rw [hsize.1, hsize.2]
    exact hspans screen hscreen
  | resizes hwidth hheight hnew hcalls =>
    obtain rfl := Option.some.inj (hnew.symm.trans hs)
    obtain ⟨hw, hh⟩ := size_resized (next (stageEnv audience library imaging) c).attrs.width
      (next (stageEnv audience library imaging) c).attrs.height c.attrs.own.screen
    exact ⟨hw.ge, hh.ge⟩
  | pastes u image hdata himage hsize hnew hcalled hcalls =>
    obtain rfl := Option.some.inj (hnew.symm.trans hs)
    rw [hsize.1, hsize.2]
    cases hscreen : c.attrs.own.screen with
    | none => exact ⟨le_refl _, le_refl _⟩
    | some screen =>
      obtain ⟨hw, hh, -⟩ := grown_some (c.attrs.width, c.attrs.height) screen himage.1 himage.2
      obtain ⟨hwidth, hheight⟩ := hspans screen hscreen
      rw [hw, hh]
      exact ⟨hwidth.trans (le_max_right _ _), hheight.trans (le_max_right _ _)⟩

/-- Whatever a turn has the client copy on a screen lies inside the screen, and is left where it was
copied to. -/
theorem copied_of_called {factory : Factory} {options : Options} {pixelFormat : Option PixelFormat}
    {encodings : Option (List ℤ)} {jpegQuality : Option ℕ} {screen : Canvas} {srcx srcy : ℕ}
    {rect : Rect}
    (h : Session (stageEnv audience library imaging) (fun _ _ => ()) (fun _ _ => True) ()
      (build factory options pixelFormat encodings jpegQuality) () c)
    (hready : ready c = true) (hscreen : c.attrs.own.screen = some screen)
    (hcopy : Event.called (.copyRectangle srcx srcy rect) ∈
      made (stageEnv audience library imaging) c) :
    (srcx + rect.width ≤ screen.width ∧ srcy + rect.height ≤ screen.height) ∧
      ∃ screen', (next (stageEnv audience library imaging) c).attrs.own.screen = some screen' ∧
        screen'.width = screen.width ∧ screen'.height = screen.height ∧
        ∀ i j, screen'.pixel i j =
          if rect.Covers i j then screen.pixel (srcx + (i - rect.x)) (srcy + (j - rect.y))
          else screen.pixel i j := by
  have hsession := h.invariant audience library imaging (fun _ a => Spans a)
    (fun _ a width height pixelFormat hnone _ _ s hs => absurd (hnone.symm.trans hs) (by simp))
    (fun _ a a' hspans hkeeps s hs => by
      rw [hkeeps.width, hkeeps.height]
      exact hspans s (hkeeps.screen.symm.trans hs))
    (fun _ a a' hspans hacts s hs => by
      obtain ⟨⟨own, decoding, pixelFormat, es, rfl, -, -⟩, hscreen⟩ := hacts
      exact hspans s (hscreen.symm.trans hs))
    (fun _ c hspans _ _ _ hbeat => spans_turned audience library imaging hspans hbeat) rfl rfl
  rcases hsession.2 with ⟨-, hnone⟩ | ⟨hstarted, hspans⟩
  · -- In the handshake there is no screen.
    exact absurd (hnone.symm.trans hscreen) (by simp)
  · have hbeat := (turn_started audience library imaging hsession.1 hstarted hready).beat
    obtain ⟨es, hlog, hrepaints⟩ := repaints_of_beat audience library imaging hbeat
    have hmade : made (stageEnv audience library imaging) c = es := made_eq hlog
    rw [hmade] at hcopy
    cases hrepaints with
    | same hsize _ hcalls =>
      exact absurd ((hcalls _ _ _ hcopy).symm.trans hscreen) (by simp)
    | copies screen' srcx' srcy' rect' hscreen' hinside hsize hnew hcalls =>
      obtain ⟨rfl, rfl, rfl⟩ := hcalls _ _ _ hcopy
      obtain rfl := Option.some.inj (hscreen'.symm.trans hscreen)
      -- The framebuffer, inside which the source lies, is no larger than the screen.
      obtain ⟨hwidth, hheight⟩ := hspans screen' hscreen
      have hsource := And.intro (hinside.1.trans hwidth) (hinside.2.trans hheight)
      exact ⟨hsource, _, hnew, rfl, rfl, pixel_copied hsource.1 hsource.2⟩
    | resizes _ _ _ hcalls => exact absurd hcopy (hcalls _ _ _)
    | pastes _ _ _ _ _ _ _ hcalls => exact absurd hcopy (hcalls _ _ _)

/-! ## The four bytes -/

/-- Between two turns: bytes come in, and an application acts. -/
inductive Idles (env : Env (Decoding codecs) Fields) (c : RFBClient (Decoding codecs) Fields) :
    RFBClient (Decoding codecs) Fields → Prop
  | refl : Idles env c c
  | delivered {c' : RFBClient (Decoding codecs) Fields} (data : Bytes) (h : Idles env c c')
      (hlive : c'.aborted = false) : Idles env c (client ((deliver env data).run c'))
  | acted {c' : RFBClient (Decoding codecs) Fields} {a' : State codecs} (h : Idles env c c')
      (hacts : Acts c'.attrs a') : Idles env c { c' with attrs := a' }

theorem Idles.session {G : Type} {env : Env (Decoding codecs) Fields}
    {note : G → RFBClient (Decoding codecs) Fields → G}
    {good : G → RFBClient (Decoding codecs) Fields → Prop} {g₀ g : G}
    {c₀ c c' : RFBClient (Decoding codecs) Fields} (h : Idles env c c')
    (hsession : Session env note good g₀ c₀ g c) : Session env note good g₀ c₀ g c' := by
  induction h with
  | refl => exact hsession
  | delivered data _ hlive ih => exact .delivered data ih hlive
  | acted _ hacts ih => exact .acted ih hacts

theorem Idles.phase_eq {env : Env (Decoding codecs) Fields} {c c' : RFBClient (Decoding codecs) Fields}
    {e : Expected (Decoding codecs) Fields} (h : Idles env c c') (hphase : c.phase = .expecting e) :
    c'.phase = .expecting e := by
  induction h with
  | refl => exact hphase
  | delivered data _ _ ih =>
    rw [run_deliver_of_expecting _ ih]
    exact ih
  | acted _ _ ih => exact ih

variable {rect : Rect} {source : Block 4}

theorem next_of_source
    (hsource : Hands c (awaitingSource (stageEnv audience library imaging).callback rect) source) :
    next (stageEnv audience library imaging) c =
      client ((pump (stageEnv audience library imaging) (.rectangle rect)
        ((copySource (stageEnv audience library imaging).callback rect source).run c.attrs)).run
          { c with packet := c.packet.drop 4, phase := .expecting (.ended (.rectangle rect) 4) }) := by
  unfold next
  rw [run_turn_of_hands _ hsource]
  rfl

/-- A source inside the framebuffer is copied from. -/
theorem called_of_source
    (hsource : Hands c (awaitingSource (stageEnv audience library imaging).callback rect) source)
    (hinside : u16At source.bytes 0 + rect.width ≤ c.attrs.width ∧
      u16At source.bytes 2 + rect.height ≤ c.attrs.height) :
    Event.called (.copyRectangle (u16At source.bytes 0) (u16At source.bytes 2) rect) ∈
      made (stageEnv audience library imaging) c := by
  -- Kept folded: the four bytes are not what the steps below are about.
  generalize hmethod : Callback.copyRectangle (u16At source.bytes 0) (u16At source.bytes 2) rect = method
  obtain ⟨a, hcall, hcalled⟩ : ∃ a : State codecs,
      ((stageEnv audience library imaging).call method).run c.attrs = .ok () a ∧
        a.log = c.attrs.log ++ [.called method] := by
    rw [← hmethod, run_call]
    refine ⟨_, run_copyRectangle _ _ _ _, ?_⟩
    cases c.attrs.own.screen <;> rfl
  have hrun : (copySource (stageEnv audience library imaging).callback rect source).run c.attrs =
      .done a { changed := true } := by
    have hinvoke : (invoke (stageEnv audience library imaging).callback method).run c.attrs =
      .ok () a := hcall
    unfold copySource
    rw [Coroutine.run_bind, Coroutine.run_get, Coroutine.Step.bind_done,
      if_neg (not_or.mpr ⟨Nat.not_lt.mpr hinside.1, Nat.not_lt.mpr hinside.2⟩), hmethod,
      Coroutine.run_bind, Gen.run_lift, hinvoke]
    rfl
  have hnext := next_of_source audience library imaging hsource
  rw [hrun, run_pump_of_done] at hnext
  have hlands := lands_settleRectangle (stageEnv audience library imaging) rect true
    { c with
      attrs := a
      packet := c.packet.drop 4
      phase := .expecting (.ended (.rectangle rect) 4) }
  obtain ⟨es, hlog, -⟩ := (settles_settle audience library imaging rect true a).log
  have hattrs : (next (stageEnv audience library imaging) c).attrs.log =
      c.attrs.log ++ ([.called method] ++ es) := by
    rw [hnext, ← List.append_assoc, ← hcalled, ← hlog]
    exact congrArg Attrs.log hlands.attrs
  have hmade : made (stageEnv audience library imaging) c = [.called method] ++ es := made_eq hattrs
  rw [hmade]
  exact List.mem_append_left _ (List.mem_singleton_self _)

/-- Whatever the report comes to, an abort stops parsing. -/
theorem aborted_abortConnection (env : Env (Decoding codecs) Fields) (reason : String)
    (c : RFBClient (Decoding codecs) Fields) :
    (client ((abortConnection env reason).run c)).aborted = true := by
  unfold abortConnection
  simp only [EStateM.run_bind, EStateM.run_modify, run_onAttrs]
  cases (env.call (.vncProtocolError reason)).run c.attrs <;> rfl

/-- Any other source ends the session, and the screen stays as it is. -/
theorem aborted_of_source
    (hsource : Hands c (awaitingSource (stageEnv audience library imaging).callback rect) source)
    (houtside : ¬(u16At source.bytes 0 + rect.width ≤ c.attrs.width ∧
      u16At source.bytes 2 + rect.height ≤ c.attrs.height)) :
    (next (stageEnv audience library imaging) c).aborted = true ∧
      (next (stageEnv audience library imaging) c).attrs.own.screen = c.attrs.own.screen := by
  obtain ⟨message, hrun⟩ : ∃ message,
      (copySource (stageEnv audience library imaging).callback rect source).run c.attrs =
        .failed c.attrs ⟨.decodeError, message⟩ := by
    unfold copySource
    rw [Coroutine.run_bind, Coroutine.run_get, Coroutine.Step.bind_done, if_pos (by omega)]
    exact ⟨_, rfl⟩
  have hnext := next_of_source audience library imaging hsource
  rw [hrun, run_pump] at hnext
  have habort : next (stageEnv audience library imaging) c =
      client ((abortConnection (stageEnv audience library imaging) _).run _) := hnext
  rw [habort]
  refine ⟨aborted_abortConnection _ _ _, ?_⟩
  exact (keeps_abortConnection audience library imaging _ _).1.screen

/-- The header of a CopyRect and, whenever they come in, its four bytes. A source inside the framebuffer
lies inside the screen, and is left as it was where the header says, also where the two overlap. Any
other source aborts the session and leaves the screen alone. -/
theorem copies_real_content {factory : Factory} {options : Options} {pixelFormat : Option PixelFormat}
    {encodings : Option (List ℤ)} {jpegQuality : Option ℕ} {header : Block 12} {source : Block 4}
    {screen : Canvas} {c' : RFBClient (Decoding codecs) Fields}
    (h : Session (stageEnv audience library imaging) (fun _ _ => ()) (fun _ _ => True) ()
      (build factory options pixelFormat encodings jpegQuality) () c)
    (hready : ready c = true) (hheader : Hands c .rectangle header)
    (hencoding : i32At header.bytes 8 = Encoding.copyRectangle)
    (hremaining : remaining header c.attrs.rectangles ≠ 0)
    (hidles : Idles (stageEnv audience library imaging) (next (stageEnv audience library imaging) c) c')
    (hready' : ready c' = true) (hsource : source.bytes = c'.packet.take 4)
    (hscreen : c'.attrs.own.screen = some screen) :
    let rect := announcedRect header
    let srcx := u16At source.bytes 0
    let srcy := u16At source.bytes 2
    let c'' := next (stageEnv audience library imaging) c'
    if srcx + rect.width ≤ c'.attrs.width ∧ srcy + rect.height ≤ c'.attrs.height then
      Event.called (.copyRectangle srcx srcy rect) ∈ made (stageEnv audience library imaging) c' ∧
      (srcx + rect.width ≤ screen.width ∧ srcy + rect.height ≤ screen.height) ∧
      ∃ screen', c''.attrs.own.screen = some screen' ∧
        screen'.width = screen.width ∧ screen'.height = screen.height ∧
        ∀ i j, screen'.pixel i j =
          if rect.Covers i j then screen.pixel (srcx + (i - rect.x)) (srcy + (j - rect.y))
          else screen.pixel i j
    else c''.aborted = true ∧ c''.attrs.own.screen = some screen := by
  intro rect srcx srcy c''
  have hsession := hidles.session (h.turned hready trivial)
  -- The header leaves the client waiting for the source, and nothing but a turn changes that.
  have hphase := hidles.phase_eq
    (phase_of_copyRect audience library imaging hheader hencoding hremaining)
  obtain ⟨e, hphase', hlen, -⟩ := exists_of_ready hready'
  obtain rfl := Phase.expecting.inj (hphase'.symm.trans hphase)
  have hhands : Hands c' (awaitingSource (stageEnv audience library imaging).callback rect) source :=
    ⟨hphase, hlen, Block.ext hsource⟩
  split_ifs with hinside
  · have hcalled := called_of_source audience library imaging hhands hinside
    exact ⟨hcalled, copied_of_called audience library imaging hsession hready' hscreen hcalled⟩
  · obtain ⟨haborted, hkept⟩ := aborted_of_source audience library imaging hhands hinside
    exact ⟨haborted, hkept.trans hscreen⟩

end

/-- A server of three pixels in a row sends them, one white and two black, and then the header of a
CopyRect of the first two to one column on. -/
def shiftedPixels : Bytes :=
  versionMessage (3, 3) ++ [0, 0, 0, 1] ++
    [0, 3, 0, 1, 32, 24, 0, 1, 0, 255, 0, 255, 0, 255, 0, 8, 16, 0, 0, 0, 0, 0, 0, 0] ++
    [0, 0, 0, 2] ++ [0, 0, 0, 0, 0, 3, 0, 1, 0, 0, 0, 0] ++
    [255, 255, 255, 0, 0, 0, 0, 0, 0, 0, 0, 0] ++ [0, 1, 0, 0, 0, 2, 0, 1, 0, 0, 0, 1]

/-- That header. -/
def shiftHeader : Block 12 := Block.of [0, 1, 0, 0, 0, 2, 0, 1, 0, 0, 0, 1] rfl

/-- The client once these bytes have come in, and so many turns later. -/
abbrev afterShiftedPixels (n : ℕ) : RFBClient (Decoding Decoders.sampleCodecs) Fields :=
  (turns idleStage (fun _ _ => ()) n
    ((), client ((deliver idleStage shiftedPixels).run (build {} {} none none none)))).2

/-- The same client once the four bytes have come in as well. -/
abbrev beforeShift : RFBClient (Decoding Decoders.sampleCodecs) Fields :=
  client ((deliver idleStage [0, 0, 0, 0]).run (afterShiftedPixels 8))

/-- The second pixel becomes as white as the first was, and the third as black as the second was. -/
theorem copies_real_content_shifted : ∃ screen screen',
    beforeShift.attrs.own.screen = some screen ∧
      (next idleStage beforeShift).attrs.own.screen = some screen' ∧
      screen.pixel 0 0 ≠ screen.pixel 1 0 ∧
      screen'.pixel 1 0 = screen.pixel 0 0 ∧ screen'.pixel 2 0 = screen.pixel 1 0 := by
  have hready : ∀ i < 8, ready (afterShiftedPixels i) = true := by decide +kernel
  have hready' : ready beforeShift = true := by decide +kernel
  -- Three pixels are painted; then the header of a copy and the four bytes of its source come.
  have hsession : Session idleStage (fun _ _ => ()) (fun _ _ => True) () (build {} {} none none none) ()
      (afterShiftedPixels 7) :=
    (Session.delivered shiftedPixels .start rfl).turns 7 fun i hi => ⟨hready i (by omega), trivial⟩
  have hlen : 12 ≤ (afterShiftedPixels 7).packet.length := by decide +kernel
  have htaken : (afterShiftedPixels 7).packet.take 12 = shiftHeader.bytes := by decide +kernel
  have hheader : Hands (afterShiftedPixels 7) .rectangle shiftHeader :=
    ⟨by rfl, hlen, Block.ext htaken.symm⟩
  have hidles : Idles idleStage (afterShiftedPixels 8) beforeShift :=
    .delivered [0, 0, 0, 0] .refl (by decide +kernel)
  obtain ⟨screen, hscreen⟩ := Option.isSome_iff_exists.mp
    (show beforeShift.attrs.own.screen.isSome = true by decide +kernel)
  have hsource : (Block.of [0, 0, 0, 0] rfl : Block 4).bytes = beforeShift.packet.take 4 := by
    decide +kernel
  have hcopied := copies_real_content idleAudience sampleLibrary sampleImaging hsession
    (hready 7 (by omega)) hheader rfl (by decide +kernel) hidles hready' hsource hscreen
  rw [if_pos (by decide +kernel)] at hcopied
  obtain ⟨-, -, screen', hscreen', -, -, hpixel⟩ := hcopied
  -- White and black before the copy.
  have hcolours : beforeShift.attrs.own.screen.map (fun s => (s.pixel 0 0, s.pixel 1 0)) =
      some ((255, 255, 255), (0, 0, 0)) := by decide +kernel
  rw [hscreen] at hcolours
  obtain ⟨hwhite, hblack⟩ := Prod.mk.inj (Option.some.inj hcolours)
  refine ⟨screen, screen', hscreen, hscreen', ?_, ?_, ?_⟩
  · rw [hwhite, hblack]
    decide
  · exact (hpixel 1 0).trans (if_pos (by decide))
  · exact (hpixel 2 0).trans (if_pos (by decide))

end VNCDoToolClient

end VncDoTool
