import VncDoTool.Lib.Layers
import VncDoTool.DoTool.Client

/-!
# Painting the screen

What `updateRectangle` makes of `screen`, call by call and over any number of calls.

* `VNCDoToolClient.Update`: the arguments of a call; `Update.image`, `Update.colour`: what it brings.
* `VNCDoToolClient.grown_none`, `VNCDoToolClient.grown_some`: the screen after a call.
* `VNCDoToolClient.updateRectangle_spec`: what a call comes to.
* `VNCDoToolClient.Holds`: what the screen shows of the calls made on it.
* `VNCDoToolClient.keeps_everything_iff`: when the screen keeps everything that was painted.
-/

namespace VncDoTool

namespace VNCDoToolClient

open RFBClient

variable {codecs : Codecs} {imaging : Imaging}

/-- The colour of a screen before anything is painted on it. -/
def black : RGB := (0, 0, 0)

/-! ## One call -/

/-- The arguments of a call of `updateRectangle`. -/
structure Update : Type where
  rect : Rect
  data : Bytes
  pixelFormat : PixelFormat
  deriving DecidableEq

/-- The call brings pixels. -/
def Update.brings (u : Update) : Bool := !u.data.isEmpty

/-- The image of the pixels, where Pillow can read them. -/
def Update.image (imaging : Imaging) (u : Update) : Option Canvas :=
  match u.pixelFormat.rawMode with
  | .ok mode => (imaging.frombytes u.rect.width u.rect.height u.data (some mode)).toOption
  | .error _ => none

/-- The colour a call brings for a coordinate, if it brings one. -/
def Update.colour (imaging : Imaging) (u : Update) (p : ℕ × ℕ) : Option RGB :=
  if u.brings ∧ u.rect.Covers p.1 p.2 then
    (u.image imaging).map fun image => image.pixel (p.1 - u.rect.x) (p.2 - u.rect.y)
  else none

/-- The raw mode the client remembers is that of the format it remembers. -/
def Resolved (a : State codecs) : Prop :=
  ∀ pixelFormat, a.own.rawModeFormat = some pixelFormat →
    ∃ mode, pixelFormat.rawMode = .ok mode ∧ a.own.rawMode = some mode

theorem resolved_of {a : State codecs} {pixelFormat : PixelFormat} {mode : RawMode}
    (hformat : a.own.rawModeFormat = some pixelFormat) (hmode : pixelFormat.rawMode = .ok mode)
    (h : a.own.rawMode = some mode) : Resolved a := by
  intro pixelFormat' hformat'
  obtain rfl : pixelFormat' = pixelFormat := Option.some.inj (hformat'.symm.trans hformat)
  exact ⟨mode, hmode, h⟩

/-- An image read from bytes is as large as the rectangle. -/
theorem size_frombytes {width height : ℕ} {data : Bytes} {mode : Option RawMode} {image : Canvas}
    (h : imaging.frombytes width height data mode = .ok image) :
    image.width = width ∧ image.height = height := by
  cases mode with
  | none => exact absurd h (by simp [Imaging.frombytes])
  | some mode =>
    unfold Imaging.frombytes at h
    dsimp only at h
    split_ifs at h
    obtain rfl := Except.ok.inj h
    exact ⟨rfl, rfl⟩

/-- The first rectangle is pasted onto a black screen of the announced size. -/
theorem grown_none (size : ℕ × ℕ) {rect : Rect} {update : Canvas} (hwidth : update.width = rect.width)
    (hheight : update.height = rect.height) (i j : ℕ) :
    (grown size none rect update).pixel i j =
      if rect.Covers i j then update.pixel (i - rect.x) (j - rect.y) else black := by
  show ((Canvas.new size.1 size.2).paste update rect.x rect.y).pixel i j = _
  rw [Canvas.pixel_paste, hwidth, hheight]
  exact if_congr Iff.rfl rfl rfl

/-- A further rectangle is pasted onto the screen, which grows to hold it. -/
theorem grown_some (size : ℕ × ℕ) (screen : Canvas) {rect : Rect} {update : Canvas}
    (hwidth : update.width = rect.width) (hheight : update.height = rect.height) :
    (grown size (some screen) rect update).width = max (rect.x + rect.width) screen.width ∧
      (grown size (some screen) rect update).height = max (rect.y + rect.height) screen.height ∧
      ∀ i j, (grown size (some screen) rect update).Has i j →
        (grown size (some screen) rect update).pixel i j =
          if rect.Covers i j then update.pixel (i - rect.x) (j - rect.y)
          else if screen.Has i j then screen.pixel i j else black := by
  by_cases hgrows : screen.width < rect.x + rect.width ∨ screen.height < rect.y + rect.height
  · -- The old screen is copied to the origin of a larger one before the rectangle is pasted.
    have hgrown : grown size (some screen) rect update =
        ((Canvas.new (max (rect.x + rect.width) screen.width) (max (rect.y + rect.height) screen.height)
          ).paste screen 0 0).paste update rect.x rect.y := if_pos hgrows
    rw [hgrown]
    refine ⟨rfl, rfl, fun i j _ => ?_⟩
    rw [Canvas.pixel_paste, Canvas.pixel_paste_zero, hwidth, hheight]
    exact if_congr Iff.rfl rfl rfl
  · have hgrown : grown size (some screen) rect update = screen.paste update rect.x rect.y :=
      if_neg hgrows
    rw [hgrown]
    refine ⟨?_, ?_, fun i j hon => ?_⟩
    · show screen.width = _
      omega
    · show screen.height = _
      omega
    · have hon' : screen.Has i j := hon
      rw [Canvas.pixel_paste, hwidth, hheight, if_pos hon']
      exact if_congr Iff.rfl rfl rfl

/-- What a call has done to the client: nothing but to look up a raw mode, or it has pasted its image
too. -/
inductive Updates (imaging : Imaging) (u : Update) (a : State codecs) :
    EStateM.Result PyErr (State codecs) Unit → Prop
  /-- A call that brings nothing. -/
  | nothing (hdata : u.brings = false) : Updates imaging u a (.ok () a)
  /-- Pillow cannot read the image. -/
  | raised (e : PyErr) (format : Option PixelFormat) (mode : Option RawMode) (hdata : u.brings = true) :
      Updates imaging u a
        (.error e { a with own := { a.own with rawModeFormat := format, rawMode := mode } })
  | painted (format : Option PixelFormat) (mode : Option RawMode) (image : Canvas)
      (hdata : u.brings = true) (hwidth : image.width = u.rect.width)
      (hheight : image.height = u.rect.height)
      (hresolved : Resolved a → u.image imaging = some image ∧
        ∃ mode', format = some u.pixelFormat ∧ u.pixelFormat.rawMode = .ok mode' ∧
          mode = some mode') :
      Updates imaging u a (.ok () { a with own := { a.own with
        rawModeFormat := format
        rawMode := mode
        screen := some (grown (a.width, a.height) a.own.screen u.rect image)
        fullscreen := a.own.fullscreen.paintRect u.rect } })

theorem run_rawModeFor (pixelFormat : PixelFormat) (a : State codecs) :
    (rawModeFor pixelFormat).run a =
      if a.own.rawModeFormat ≠ some pixelFormat then
        match pixelFormat.rawMode with
        | .error exc => .error ⟨.unsupportedPixelFormat, exc⟩
            { a with own := { a.own with rawModeFormat := some pixelFormat } }
        | .ok mode => .ok (some mode)
            { a with own := { a.own with rawModeFormat := some pixelFormat, rawMode := some mode } }
      else .ok a.own.rawMode a := by
  unfold rawModeFor
  simp only [EStateM.run_bind, EStateM.run_get]
  split_ifs
  · cases pixelFormat.rawMode <;> rfl
  · rfl

/-- The mode a call reads its pixels in, and what it remembers of it. -/
theorem rawModeFor_spec (pixelFormat : PixelFormat) (a : State codecs) :
    (∃ e format mode, (rawModeFor pixelFormat).run a =
      .error e { a with own := { a.own with rawModeFormat := format, rawMode := mode } }) ∨
    ∃ format mode, (rawModeFor pixelFormat).run a =
        .ok mode { a with own := { a.own with rawModeFormat := format, rawMode := mode } } ∧
      (Resolved a → format = some pixelFormat ∧
        ∃ mode', pixelFormat.rawMode = .ok mode' ∧ mode = some mode') := by
  rw [run_rawModeFor]
  split_ifs with hformat
  · cases hmode : pixelFormat.rawMode with
    | error exc => exact .inl ⟨_, _, _, rfl⟩
    | ok mode => exact .inr ⟨_, _, rfl, fun _ => ⟨rfl, mode, rfl, rfl⟩⟩
  · -- The format is the one of the call before.
    have hsame : a.own.rawModeFormat = some pixelFormat := not_not.mp hformat
    exact .inr ⟨_, _, rfl, fun hresolved => ⟨hsame, hresolved pixelFormat hsame⟩⟩

/-- What a call comes to. -/
theorem updateRectangle_spec (imaging : Imaging) (u : Update) (a : State codecs) :
    Updates imaging u a ((updateRectangle imaging u.rect u.data u.pixelFormat).run a) := by
  unfold updateRectangle
  split_ifs with hempty
  · exact .nothing (by simp [Update.brings, hempty])
  · have hdata : u.brings = true := by simpa [Update.brings] using hempty
    rcases rawModeFor_spec u.pixelFormat a with ⟨e, format, mode, hraw⟩ | ⟨format, mode, hraw, hmode⟩
    · rw [EStateM.run_bind, hraw]
      exact .raised e format mode hdata
    · rw [EStateM.run_bind, hraw]
      show Updates imaging u a ((RFBClient.ofExcept
        (imaging.frombytes u.rect.width u.rect.height u.data mode) >>= fun update => _).run _)
      rw [EStateM.run_bind]
      cases himage : imaging.frombytes u.rect.width u.rect.height u.data mode with
      | error e => exact .raised e format mode hdata
      | ok image =>
        obtain ⟨hwidth, hheight⟩ := size_frombytes himage
        refine .painted format mode image hdata hwidth hheight fun hresolved => ?_
        obtain ⟨rfl, mode', hmode', rfl⟩ := hmode hresolved
        refine ⟨?_, mode', rfl, hmode', rfl⟩
        unfold Update.image
        rw [hmode']
        simp only
        rw [himage]
        rfl

/-- A call whose pixels Pillow can read returns. -/
theorem run_updateRectangle {u : Update} {a : State codecs} {mode : RawMode} {image : Canvas}
    (hdata : u.brings = true) (hresolved : Resolved a) (hmode : u.pixelFormat.rawMode = .ok mode)
    (himage : imaging.frombytes u.rect.width u.rect.height u.data (some mode) = .ok image) :
    (updateRectangle imaging u.rect u.data u.pixelFormat).run a = .ok () { a with own := { a.own with
      rawModeFormat := some u.pixelFormat
      rawMode := some mode
      screen := some (grown (a.width, a.height) a.own.screen u.rect image)
      fullscreen := a.own.fullscreen.paintRect u.rect } } := by
  have hraw : (rawModeFor u.pixelFormat).run a = .ok (some mode)
      { a with own := { a.own with rawModeFormat := some u.pixelFormat, rawMode := some mode } } := by
    rw [run_rawModeFor, hmode]
    split_ifs with hformat
    · rfl
    · have hsame : a.own.rawModeFormat = some u.pixelFormat := not_not.mp hformat
      obtain ⟨mode', hmode', hknown⟩ := hresolved u.pixelFormat hsame
      obtain rfl := Except.ok.inj (hmode.symm.trans hmode')
      rw [← hsame, ← hknown]
  unfold updateRectangle
  rw [if_neg (by simpa [Update.brings] using hdata), EStateM.run_bind, hraw]
  show (RFBClient.ofExcept (imaging.frombytes u.rect.width u.rect.height u.data (some mode)) >>=
    fun update => _).run _ = _
  rw [himage]
  rfl

/-! ## Any number of calls -/

/-- A run of calls. -/
def updateRectangles (imaging : Imaging) (updates : List Update) : Py (State codecs) Unit :=
  updates.forM fun u => updateRectangle imaging u.rect u.data u.pixelFormat

theorem run_updateRectangles_cons (imaging : Imaging) (u : Update) (updates : List Update) (a : State codecs) :
    (updateRectangles imaging (u :: updates)).run a =
      match (updateRectangle imaging u.rect u.data u.pixelFormat).run a with
      | .ok _ a' => (updateRectangles imaging updates).run a'
      | .error e a' => .error e a' := by
  show (updateRectangle imaging u.rect u.data u.pixelFormat >>= fun _ =>
    updateRectangles imaging updates).run a = _
  rw [EStateM.run_bind]
  cases (updateRectangle imaging u.rect u.data u.pixelFormat).run a <;> rfl

/-- The colour of the last rectangle that covers a coordinate. -/
def latest (imaging : Imaging) (updates : List Update) (p : ℕ × ℕ) : Option RGB :=
  Layers.top (updates.map (Update.colour imaging)) p

/-- What was painted is on the screen, and the rest of the screen is black. -/
structure KeepsEverything (imaging : Imaging) (updates : List Update) (screen : Option Canvas) :
    Prop where
  shows : ∀ i j colour, latest imaging updates (i, j) = some colour →
    ∃ s, screen = some s ∧ s.Has i j ∧ s.pixel i j = colour
  blank : ∀ i j s, latest imaging updates (i, j) = none → screen = some s → s.Has i j →
    s.pixel i j = black

section

variable {base s s' : Canvas} {u : Update} {updates more : List Update} {a a' : State codecs}

theorem latest_append (p : ℕ × ℕ) :
    latest imaging (updates ++ more) p = (latest imaging more p).or (latest imaging updates p) := by
  unfold latest
  rw [List.map_append, Layers.top_append]

theorem latest_cons (p : ℕ × ℕ) :
    latest imaging (u :: updates) p = (latest imaging updates p).or (u.colour imaging p) := by
  unfold latest
  rw [List.map_cons, Layers.top_cons]

theorem latest_singleton (p : ℕ × ℕ) : latest imaging [u] p = u.colour imaging p :=
  Layers.top_singleton

/-- A call brings a colour exactly for what it covers, where Pillow can read its pixels. -/
theorem colour_eq_none (h : u.brings = true → (u.image imaging).isSome) (i j : ℕ) :
    u.colour imaging (i, j) = none ↔ ¬(u.brings = true ∧ u.rect.Covers i j) := by
  unfold Update.colour
  by_cases hcovers : u.brings = true ∧ u.rect.Covers i j
  · obtain ⟨image, himage⟩ := Option.isSome_iff_exists.mp (h hcovers.1)
    simp [hcovers, himage]
  · simp [hcovers]

theorem colour_of_covers {image : Canvas} (himage : u.image imaging = some image)
    (hdata : u.brings = true) {i j : ℕ} (hcovers : u.rect.Covers i j) :
    u.colour imaging (i, j) = some (image.pixel (i - u.rect.x) (j - u.rect.y)) := by
  unfold Update.colour
  rw [if_pos ⟨hdata, hcovers⟩, himage]
  rfl

/-- Calls were made on a screen `base`, and `s` holds what they brought: it has grown as far as they
reach, and shows the last of them over the old screen. -/
structure Holds (imaging : Imaging) (base : Canvas) (updates : List Update) (s : Canvas) : Prop where
  width : ∀ i, i < s.width ↔
    i < base.width ∨ ∃ u ∈ updates, u.brings = true ∧ i < u.rect.x + u.rect.width
  height : ∀ j, j < s.height ↔
    j < base.height ∨ ∃ u ∈ updates, u.brings = true ∧ j < u.rect.y + u.rect.height
  read : ∀ u ∈ updates, u.brings = true → (u.image imaging).isSome
  pixel : ∀ i j, s.Has i j → s.pixel i j =
    (latest imaging updates (i, j)).getD (if base.Has i j then base.pixel i j else black)

namespace Holds

/-- Nothing covers a coordinate where nothing shows. -/
theorem not_covers (h : Holds imaging base updates s) {i j : ℕ}
    (hlatest : latest imaging updates (i, j) = none) :
    ∀ u ∈ updates, u.brings = true → ¬u.rect.Covers i j := by
  intro u hu hdata hcovers
  have hclear := Layers.top_eq_none.mp hlatest _ (List.mem_map_of_mem hu)
  exact (colour_eq_none (h.read u hu) i j).mp hclear ⟨hdata, hcovers⟩

/-- Something covers a coordinate where something shows, and it is on the screen. -/
theorem exists_covers (h : Holds imaging base updates s) {i j : ℕ} {colour : RGB}
    (hlatest : latest imaging updates (i, j) = some colour) :
    (∃ u ∈ updates, u.brings = true ∧ u.rect.Covers i j) ∧ s.Has i j := by
  obtain ⟨layer, hlayer, hcolour⟩ := Layers.exists_of_top hlatest
  obtain ⟨u, hu, rfl⟩ := List.mem_map.mp hlayer
  have hcovers : u.brings = true ∧ u.rect.Covers i j := by
    refine not_not.mp fun hnot => ?_
    have hclear := (colour_eq_none (h.read u hu) i j).mpr hnot
    rw [hclear] at hcolour
    exact absurd hcolour (by simp)
  refine ⟨⟨u, hu, hcovers⟩, ?_, ?_⟩
  · exact (h.width i).mpr (.inr ⟨u, hu, hcovers.1, hcovers.2.1.2⟩)
  · exact (h.height j).mpr (.inr ⟨u, hu, hcovers.1, hcovers.2.2.2⟩)

theorem nil (base : Canvas) : Holds imaging base [] base where
  width i := by simp
  height j := by simp
  read u hu := absurd hu (by simp)
  pixel i j hon := by
    rw [if_pos hon]
    rfl

/-- A call that brings nothing leaves the screen as it is. -/
theorem nothing (base : Canvas) (hdata : u.brings = false) : Holds imaging base [u] base where
  width i := by simp [hdata]
  height j := by simp [hdata]
  read u' hu' h := by
    obtain rfl := List.mem_singleton.mp hu'
    exact absurd h (by simp [hdata])
  pixel i j hon := by
    rw [latest_singleton, Update.colour, if_neg (by simp [hdata]), if_pos hon]
    rfl

/-- A call that brings something. -/
theorem one (size : ℕ × ℕ) {image : Canvas} (hdata : u.brings = true)
    (himage : u.image imaging = some image) (hwidth : image.width = u.rect.width)
    (hheight : image.height = u.rect.height) :
    Holds imaging base [u] (grown size (some base) u.rect image) := by
  obtain ⟨hgrownWidth, hgrownHeight, hpixel⟩ := grown_some size base hwidth hheight
  refine ⟨fun i => ?_, fun j => ?_, ?_, fun i j hon => ?_⟩
  · rw [hgrownWidth]
    simp [hdata, or_comm]
  · rw [hgrownHeight]
    simp [hdata, or_comm]
  · intro u' hu' _
    obtain rfl := List.mem_singleton.mp hu'
    rw [himage]
    rfl
  · rw [hpixel i j hon, latest_singleton]
    by_cases hcovers : u.rect.Covers i j
    · rw [if_pos hcovers, colour_of_covers himage hdata hcovers]
      rfl
    · have hclear : u.colour imaging (i, j) = none := if_neg fun h => hcovers h.2
      rw [if_neg hcovers, hclear]
      rfl

/-- Some calls, and more calls on the screen they leave. -/
theorem trans (h : Holds imaging base updates s) (h' : Holds imaging s more s') :
    Holds imaging base (updates ++ more) s' where
  width i := by
    rw [h'.width, h.width]
    simp only [List.mem_append, or_and_right, exists_or, or_assoc]
  height j := by
    rw [h'.height, h.height]
    simp only [List.mem_append, or_and_right, exists_or, or_assoc]
  read u hu := by
    rcases List.mem_append.mp hu with hu | hu
    · exact h.read u hu
    · exact h'.read u hu
  pixel i j hon := by
    rw [h'.pixel i j hon, latest_append]
    cases hmore : latest imaging more (i, j) with
    | some colour => rfl
    | none =>
      show (if s.Has i j then s.pixel i j else black) = (latest imaging updates (i, j)).getD _
      by_cases hs : s.Has i j
      · rw [if_pos hs, h.pixel i j hs]
      · -- What is off the screen in between was neither covered nor on the old screen.
        rw [if_neg hs]
        have hbase : ¬base.Has i j := fun hbase =>
          hs ⟨(h.width i).mpr (.inl hbase.1), (h.height j).mpr (.inl hbase.2)⟩
        have hclear : latest imaging updates (i, j) = none := by
          rw [Option.eq_none_iff_forall_ne_some]
          exact fun colour hcolour => hs (h.exists_covers hcolour).2
        rw [hclear, if_neg hbase]
        rfl

end Holds

/-- A run of calls that return, on a screen. -/
theorem holds_updateRectangles {base : Canvas} (hscreen : a.own.screen = some base)
    (hresolved : Resolved a) (h : (updateRectangles imaging updates).run a = .ok () a') :
    ∃ s, a'.own.screen = some s ∧ Holds imaging base updates s := by
  induction updates generalizing a base with
  | nil =>
    obtain rfl : a = a' := (EStateM.Result.ok.inj h).2
    exact ⟨base, hscreen, .nil base⟩
  | cons u updates ih =>
    rw [run_updateRectangles_cons] at h
    have hcall := updateRectangle_spec imaging u a
    generalize (updateRectangle imaging u.rect u.data u.pixelFormat).run a = outcome at h hcall
    cases hcall with
    | nothing hdata =>
      obtain ⟨s, hs, hholds⟩ := ih hscreen hresolved h
      exact ⟨s, hs, (Holds.nothing base hdata).trans hholds⟩
    | raised e format mode hdata => exact absurd h (by simp)
    | painted format mode image hdata hwidth hheight hread =>
      obtain ⟨himage, mode', rfl, hmode, rfl⟩ := hread hresolved
      obtain ⟨s, hs, hholds⟩ := ih rfl (resolved_of rfl hmode rfl) h
      rw [hscreen] at hholds
      exact ⟨s, hs, (Holds.one (a.width, a.height) hdata himage hwidth hheight).trans hholds⟩

/-! ### From no screen on -/

/-- Calls that bring nothing come to nothing. -/
theorem run_filter_brings (h : (updateRectangles imaging updates).run a = .ok () a') :
    (updateRectangles imaging (updates.filter Update.brings)).run a = .ok () a' := by
  induction updates generalizing a with
  | nil => exact h
  | cons u updates ih =>
    rw [run_updateRectangles_cons] at h
    cases hdata : u.brings with
    | true =>
      rw [List.filter_cons_of_pos hdata, run_updateRectangles_cons]
      cases hcall : (updateRectangle imaging u.rect u.data u.pixelFormat).run a with
      | ok v a₁ =>
        rw [hcall] at h
        exact ih h
      | error e a₁ =>
        rw [hcall] at h
        exact absurd h (by simp)
    | false =>
      rw [List.filter_cons_of_neg (by simp [hdata])]
      have hcall := updateRectangle_spec imaging u a
      generalize (updateRectangle imaging u.rect u.data u.pixelFormat).run a = outcome at h hcall
      cases hcall with
      | nothing _ => exact ih h
      | raised e format mode hbrings => exact absurd hbrings (by simp [hdata])
      | painted format mode image hbrings _ _ _ => exact absurd hbrings (by simp [hdata])

theorem latest_filter_brings (p : ℕ × ℕ) :
    latest imaging (updates.filter Update.brings) p = latest imaging updates p := by
  induction updates with
  | nil => rfl
  | cons u updates ih =>
    cases hdata : u.brings with
    | true => rw [List.filter_cons_of_pos hdata, latest_cons, latest_cons, ih]
    | false =>
      have hclear : u.colour imaging p = none := if_neg (by simp [hdata])
      rw [List.filter_cons_of_neg (by simp [hdata]), latest_cons, ih, hclear, Option.or_none]

/-- A coordinate of the announced size, or one the screen grows to hold. -/
def Reached (size : ℕ × ℕ) (updates : List Update) (i j : ℕ) : Prop :=
  (i < size.1 ∨ ∃ u ∈ updates, i < u.rect.x + u.rect.width) ∧
    (j < size.2 ∨ ∃ u ∈ updates, j < u.rect.y + u.rect.height)

/-- What the first rectangle paints outside the announced size is covered again, or is black on a
part of the screen that later rectangles open up. -/
def SparesFirst (imaging : Imaging) (size : ℕ × ℕ) (updates : List Update) : Prop :=
  ∀ first rest, updates.filter Update.brings = first :: rest → ∀ i j, first.rect.Covers i j →
    ¬(i < size.1 ∧ j < size.2) →
      (∃ u ∈ rest, u.rect.Covers i j) ∨
        Reached size rest i j ∧ first.colour imaging (i, j) = some black

/-- The first call that brings something, and the calls after it: they are made on a screen of the
announced size, which shows what of the first rectangle lies on it. -/
theorem holds_first {first : Update} {rest : List Update} (hdata : first.brings = true)
    (hscreen : a.own.screen = none) (hresolved : Resolved a)
    (h : (updateRectangles imaging (first :: rest)).run a = .ok () a') :
    ∃ base s, a'.own.screen = some s ∧ Holds imaging base rest s ∧
      (base.width = a.width ∧ base.height = a.height) ∧
      (∀ i j, base.pixel i j = (first.colour imaging (i, j)).getD black) ∧
      (first.image imaging).isSome := by
  rw [run_updateRectangles_cons] at h
  have hcall := updateRectangle_spec imaging first a
  generalize (updateRectangle imaging first.rect first.data first.pixelFormat).run a = outcome
    at h hcall
  cases hcall with
  | nothing hnone => exact absurd hdata (by simp [hnone])
  | raised e format mode _ => exact absurd h (by simp)
  | painted format mode image _ hwidth hheight hread =>
    obtain ⟨himage, mode', rfl, hmode, rfl⟩ := hread hresolved
    obtain ⟨s, hs, hholds⟩ := holds_updateRectangles rfl (resolved_of rfl hmode rfl) h
    rw [hscreen] at hholds
    refine ⟨_, s, hs, hholds, ⟨rfl, rfl⟩, fun i j => ?_, ?_⟩
    · rw [grown_none (a.width, a.height) hwidth hheight]
      by_cases hcovers : first.rect.Covers i j
      · rw [if_pos hcovers, colour_of_covers himage hdata hcovers]
        rfl
      · have hclear : first.colour imaging (i, j) = none := if_neg fun h => hcovers h.2
        rw [if_neg hcovers, hclear]
        rfl
    · rw [himage]
      rfl

/-- What is on the screen in the end. -/
theorem Holds.has_iff {size : ℕ × ℕ} (h : Holds imaging base updates s)
    (hsize : base.width = size.1 ∧ base.height = size.2) (hbrings : ∀ u ∈ updates, u.brings = true)
    (i j : ℕ) : s.Has i j ↔ Reached size updates i j := by
  have hmember : ∀ edge : Update → Prop, (∃ u ∈ updates, u.brings = true ∧ edge u) ↔
      ∃ u ∈ updates, edge u := by
    intro edge
    constructor
    · rintro ⟨u, hu, -, hedge⟩
      exact ⟨u, hu, hedge⟩
    · rintro ⟨u, hu, hedge⟩
      exact ⟨u, hu, hbrings u hu, hedge⟩
  unfold Canvas.Has Reached
  rw [h.width, h.height, hsize.1, hsize.2, hmember, hmember]

/-- The screen keeps everything that was painted exactly where nothing of the first rectangle is
lost. -/
theorem keeps_everything_iff (hscreen : a.own.screen = none) (hresolved : Resolved a)
    (h : (updateRectangles imaging updates).run a = .ok () a') :
    KeepsEverything imaging updates a'.own.screen ↔
      SparesFirst imaging (a.width, a.height) updates := by
  have hrun := run_filter_brings h
  have hlatest : ∀ p, latest imaging updates p =
      latest imaging (updates.filter Update.brings) p := fun p => (latest_filter_brings p).symm
  cases hpainting : updates.filter Update.brings with
  | nil =>
    -- Nothing is painted, and there is no screen.
    rw [hpainting] at hrun hlatest
    obtain rfl : a = a' := (EStateM.Result.ok.inj hrun).2
    constructor
    · intro _ first rest hcons
      exact absurd (hpainting.symm.trans hcons) (by simp)
    · intro _
      refine ⟨fun i j colour hcolour => ?_, fun i j s _ hs _ => ?_⟩
      · rw [hlatest] at hcolour
        exact absurd hcolour (by simp [latest])
      · exact absurd (hscreen.symm.trans hs) (by simp)
  | cons first rest =>
    have hbrings : ∀ u ∈ first :: rest, u.brings = true := fun u hu =>
      (List.mem_filter.mp (hpainting ▸ hu)).2
    have hfirst := hbrings first List.mem_cons_self
    have hrest : ∀ u ∈ rest, u.brings = true := fun u hu => hbrings u (List.mem_cons_of_mem _ hu)
    rw [hpainting] at hrun hlatest
    obtain ⟨base, s, hs, hholds, hsize, hpixel, himage⟩ :=
      holds_first hfirst hscreen hresolved hrun
    have hon : ∀ i j, s.Has i j ↔ Reached (a.width, a.height) rest i j :=
      hholds.has_iff hsize hrest
    have hbase : ∀ i j, base.Has i j ↔ i < a.width ∧ j < a.height := fun i j => by
      unfold Canvas.Has
      rw [hsize.1, hsize.2]
    constructor
    · intro hkeeps first' rest' hcons i j hcovers hoff
      obtain ⟨rfl, rfl⟩ := List.cons.inj (hpainting.symm.trans hcons)
      by_cases hagain : ∃ u ∈ rest, u.rect.Covers i j
      · exact .inl hagain
      · -- What nothing covers again shows black, and must have been black.
        have hnone : latest imaging rest (i, j) = none := by
          rw [Option.eq_none_iff_forall_ne_some]
          intro colour hcolour
          obtain ⟨⟨u, hu, -, hu'⟩, -⟩ := hholds.exists_covers hcolour
          exact hagain ⟨u, hu, hu'⟩
        obtain ⟨colour, hcolour⟩ : ∃ colour, first.colour imaging (i, j) = some colour := by
          refine Option.ne_none_iff_exists'.mp fun hclear => ?_
          exact (colour_eq_none (fun _ => himage) i j).mp hclear ⟨hfirst, hcovers⟩
        have hshown : latest imaging updates (i, j) = some colour := by
          rw [hlatest, latest_cons, hnone, hcolour]
          rfl
        obtain ⟨s', hs', hhas, hcolour'⟩ := hkeeps.shows i j colour hshown
        obtain rfl : s = s' := Option.some.inj (hs.symm.trans hs')
        have hblack : s.pixel i j = black := by
          rw [hholds.pixel i j hhas, hnone, if_neg fun hin => hoff ((hbase i j).mp hin)]
          rfl
        refine .inr ⟨(hon i j).mp hhas, ?_⟩
        rw [hcolour, ← hcolour', hblack]
    · intro hspares
      refine ⟨fun i j colour hcolour => ?_, fun i j s' hnone hs' hhas => ?_⟩
      · rw [hlatest, latest_cons] at hcolour
        refine ⟨s, hs, ?_⟩
        cases hmore : latest imaging rest (i, j) with
        | some colour' =>
          have hhas := (hholds.exists_covers hmore).2
          rw [hmore] at hcolour
          refine ⟨hhas, ?_⟩
          rw [hholds.pixel i j hhas, hmore]
          exact Option.some.inj hcolour
        | none =>
          rw [hmore, Option.none_or] at hcolour
          have hcovers : first.rect.Covers i j := by
            refine not_not.mp fun hnot => ?_
            have hclear := (colour_eq_none (fun _ => himage) i j).mpr fun h => hnot h.2
            exact absurd (hclear.symm.trans hcolour) (by simp)
          by_cases hin : i < a.width ∧ j < a.height
          · have hhas := (hon i j).mpr ⟨.inl hin.1, .inl hin.2⟩
            refine ⟨hhas, ?_⟩
            rw [hholds.pixel i j hhas, hmore, if_pos ((hbase i j).mpr hin), hpixel, hcolour]
            rfl
          · rcases hspares first rest hpainting i j hcovers hin with ⟨u, hu, hagain⟩ | ⟨hreached, hblack⟩
            · exact absurd hagain (hholds.not_covers hmore u hu (hrest u hu))
            · have hhas := (hon i j).mpr hreached
              refine ⟨hhas, ?_⟩
              rw [hholds.pixel i j hhas, hmore, if_neg fun h => hin ((hbase i j).mp h)]
              exact Option.some.inj (hblack.symm.trans hcolour)
      · obtain rfl : s = s' := Option.some.inj (hs.symm.trans hs')
        rw [hlatest, latest_cons, Option.or_eq_none_iff] at hnone
        rw [hholds.pixel i j hhas, hnone.1, hpixel, hnone.2]
        show (if base.Has i j then black else black) = black
        rw [ite_self]

end

/-- Pillow for pixels that are all white. -/
def whiteImaging : Imaging where
  unpack _ _ := (255, 255, 255)

/-- A client whose server announced two pixels side by side. -/
abbrev twoPixels : State Decoders.sampleCodecs :=
  { (build {} {} none none none).attrs with width := 2, height := 1 }

/-- A white rectangle of two pixels. -/
def whitePair (x : ℕ) : Update := ⟨⟨x, 0, 2, 1⟩, List.replicate 8 255, .rgbx8888⟩

theorem run_whitePair (x : ℕ) :
    ∃ a', (updateRectangles whiteImaging [whitePair x]).run twoPixels = .ok () a' ∧
      a'.own.screen = some (grown (2, 1) none ⟨x, 0, 2, 1⟩ ⟨2, 1, fun _ _ => (255, 255, 255)⟩) := by
  have hresolved : Resolved twoPixels := fun _ h => absurd h (by simp [build, fresh])
  have hrun := run_updateRectangles_cons whiteImaging (whitePair x) [] twoPixels
  rw [run_updateRectangle rfl hresolved PixelFormat.rawMode_rgbx8888 rfl] at hrun
  exact ⟨_, hrun, rfl⟩

/-- A rectangle of a red and a green pixel on the announced two, and one of a blue and a white pixel
that covers the green one and reaches a column past them. -/
def overlappingPairs : List Update :=
  [⟨⟨0, 0, 2, 1⟩, [255, 0, 0, 0, 0, 255, 0, 0], .rgbx8888⟩,
    ⟨⟨1, 0, 2, 1⟩, [0, 0, 255, 0, 255, 255, 255, 0], .rgbx8888⟩]

/-- The screen grows to three pixels, and shows the later rectangle where the two overlap. -/
theorem keeps_everything_sample :
    ∃ a' s, (updateRectangles sampleImaging overlappingPairs).run twoPixels = .ok () a' ∧
      a'.own.screen = some s ∧ s.width = 3 ∧
      KeepsEverything sampleImaging overlappingPairs (some s) ∧
      s.pixel 0 0 = (255, 0, 0) ∧ s.pixel 1 0 = (0, 0, 255) ∧ s.pixel 2 0 = (255, 255, 255) := by
  have hrun : ∃ a' s, (updateRectangles sampleImaging overlappingPairs).run twoPixels = .ok () a' ∧
      a'.own.screen = some s ∧ s.width = 3 := ⟨_, _, rfl, rfl, rfl⟩
  obtain ⟨a', s, hrun, hs, hwidth⟩ := hrun
  have hkeeps : KeepsEverything sampleImaging overlappingPairs (some s) := by
    rw [← hs]
    refine (keeps_everything_iff rfl (fun _ h => absurd h (by simp [build, fresh])) hrun).mpr ?_
    intro first rest hcons i j hcovers hoff
    obtain ⟨rfl, rfl⟩ := List.cons.inj (show overlappingPairs = first :: rest from hcons)
    -- The first rectangle lies inside the announced size.
    exact absurd ⟨hcovers.1.2, hcovers.2.2⟩ hoff
  have hshows : ∀ i colour, latest sampleImaging overlappingPairs (i, 0) = some colour →
      s.pixel i 0 = colour := by
    intro i colour hcolour
    obtain ⟨shown, hshown, -, hpixel⟩ := hkeeps.shows i 0 colour hcolour
    obtain rfl := Option.some.inj hshown
    exact hpixel
  exact ⟨a', s, hrun, hs, hwidth, hkeeps, hshows 0 _ (by decide +kernel),
    hshows 1 _ (by decide +kernel), hshows 2 _ (by decide +kernel)⟩

/-- The part of the first rectangle that reaches past the announced size is lost. -/
theorem not_keeps_everything :
    ∃ a', (updateRectangles whiteImaging [whitePair 1]).run twoPixels = .ok () a' ∧
      ¬KeepsEverything whiteImaging [whitePair 1] a'.own.screen := by
  obtain ⟨a', hrun, hscreen⟩ := run_whitePair 1
  refine ⟨a', hrun, fun h => ?_⟩
  obtain ⟨s, hs, hhas, -⟩ := h.shows 2 0 (255, 255, 255) (by decide +kernel)
  obtain rfl := Option.some.inj (hscreen.symm.trans hs)
  exact absurd hhas.1 (by decide)

end VNCDoToolClient

end VncDoTool
