import VncDoTool.PixelValues
import VncDoTool.Client.State

/-!
# Images

The images `client.py` keeps of the screen, what it does with them, and what it still waits to see
painted.

* `Canvas`: an RGB image; `Canvas.new`, `Canvas.paste`, `Canvas.crop` as Pillow has them.
* `Canvas.pixel_paste`: what shows of an image once another is pasted onto it.
* `Imaging`: how Pillow reads pixels in a raw mode; `Imaging.frombytes`.
* `FullScreenReceived`: the part of a requested screen that no rectangle has painted yet.
-/

namespace VncDoTool

/-- A colour: red, green and blue. -/
abbrev RGB : Type := UInt8 × UInt8 × UInt8

/-- An RGB image. What `pixel` gives outside its size means nothing. -/
structure Canvas : Type where
  width : ℕ
  height : ℕ
  /-- The colour at a column and a row. -/
  pixel : ℕ → ℕ → RGB

namespace Canvas

/-- `Image.new("RGB", size, "black")`. -/
def new (width height : ℕ) : Canvas where
  width := width
  height := height
  pixel _ _ := (0, 0, 0)

/-- `paste`: what runs off the image is clipped. -/
def paste (c image : Canvas) (x y : ℤ) : Canvas :=
  { c with pixel := fun i j =>
      if x ≤ i ∧ i < x + image.width ∧ y ≤ j ∧ j < y + image.height then
        image.pixel (i - x).toNat (j - y).toNat
      else c.pixel i j }

/-- `crop`: a copy of a box, black where the box leaves the image. -/
def crop (c : Canvas) (x y width height : ℕ) : Canvas where
  width := width
  height := height
  pixel i j := if x + i < c.width ∧ y + j < c.height then c.pixel (x + i) (y + j) else (0, 0, 0)

/-- The coordinate is on the image. -/
def Has (c : Canvas) (i j : ℕ) : Prop := i < c.width ∧ j < c.height

instance (c : Canvas) (i j : ℕ) : Decidable (c.Has i j) := inferInstanceAs (Decidable (_ ∧ _))

@[simp] theorem width_new (width height : ℕ) : (new width height).width = width := rfl

@[simp] theorem height_new (width height : ℕ) : (new width height).height = height := rfl

@[simp] theorem pixel_new (width height i j : ℕ) : (new width height).pixel i j = (0, 0, 0) := rfl

@[simp] theorem width_paste (c image : Canvas) (x y : ℤ) : (c.paste image x y).width = c.width := rfl

@[simp] theorem height_paste (c image : Canvas) (x y : ℤ) :
    (c.paste image x y).height = c.height := rfl

/-- What is pasted shows where it lies, and the image under it around it. -/
theorem pixel_paste (c image : Canvas) (x y i j : ℕ) :
    (c.paste image x y).pixel i j =
      if (x ≤ i ∧ i < x + image.width) ∧ y ≤ j ∧ j < y + image.height then
        image.pixel (i - x) (j - y)
      else c.pixel i j := by
  have hlies : ((x : ℤ) ≤ i ∧ (i : ℤ) < x + image.width ∧ (y : ℤ) ≤ j ∧ (j : ℤ) < y + image.height) ↔
      (x ≤ i ∧ i < x + image.width) ∧ y ≤ j ∧ j < y + image.height := by omega
  have hcolumn : ((i : ℤ) - x).toNat = i - x := by omega
  have hrow : ((j : ℤ) - y).toNat = j - y := by omega
  unfold paste
  simp only [hlies, hcolumn, hrow]

/-- An image pasted at the origin. -/
theorem pixel_paste_zero (c image : Canvas) (i j : ℕ) :
    (c.paste image 0 0).pixel i j = if image.Has i j then image.pixel i j else c.pixel i j := by
  have h := pixel_paste c image 0 0 i j
  rw [Nat.cast_zero] at h
  rw [h]
  refine if_congr ?_ rfl rfl
  unfold Has
  omega

end Canvas

/-- The rectangle covers a column and a row. -/
def Rect.Covers (rect : Rect) (i j : ℕ) : Prop :=
  (rect.x ≤ i ∧ i < rect.x + rect.width) ∧ rect.y ≤ j ∧ j < rect.y + rect.height

instance (rect : Rect) (i j : ℕ) : Decidable (rect.Covers i j) := inferInstanceAs (Decidable (_ ∧ _))

/-- How Pillow reads pixels. -/
structure Imaging : Type where
  /-- The colour of one pixel in a raw mode. -/
  unpack : RawMode → Bytes → RGB

/-- `Image.frombytes("RGB", size, data, "raw", mode)`. The mode is `none` where the client has not
resolved one yet, which Pillow does not know. Data behind the last row is ignored. -/
def Imaging.frombytes (imaging : Imaging) (width height : ℕ) (data : Bytes) :
    Option RawMode → Except PyErr Canvas
  | none => .error ⟨.valueError, "unknown raw mode for given image mode"⟩
  | some mode =>
    if width * height ≠ 0 ∧ data.length < width * height * mode.width then
      .error ⟨.valueError, "not enough image data"⟩
    else .ok {
      width := width
      height := height
      pixel := fun i j =>
        imaging.unpack mode ((data.drop ((j * width + i) * mode.width)).take mode.width) }

/-- The highest intensities of red, green and blue in a raw mode. -/
def RawMode.maxima : RawMode → PixelFormat.Intensities
  | .rgbx | .bgrx | .xrgb | .xbgr | .rgb | .bgr => (255, 255, 255)
  | .bgr16 | .rgb16 => (31, 63, 31)
  | .bgr15 | .rgb15 => (31, 31, 31)
  | .rgb4b => (15, 15, 15)

/-- Pillow: what a mode reads of a pixel, scaled to eight bits. -/
def sampleImaging : Imaging where
  unpack mode pixel :=
    let scale intensity max := UInt8.ofNat (intensity * 255 / max)
    let read := mode.reads pixel
    (scale read.1 mode.maxima.1, scale read.2.1 mode.maxima.2.1, scale read.2.2 mode.maxima.2.2)

/-- `_FullScreenReceived`. -/
structure FullScreenReceived : Type where
  width : ℕ
  height : ℕ
  retries : ℕ := 0
  /-- `unpainted`: whether a column and row inside the size is still to be painted. -/
  unpainted : ℕ → ℕ → Bool := fun _ _ => true

namespace FullScreenReceived

/-- `MAX_RETRIES`. -/
def maxRetries : ℕ := 1

/-- `awaiting`: for a refresh that is promised the whole area. -/
def awaiting (width height : ℕ) : FullScreenReceived where
  width := width
  height := height

/-- `satisfied`: for a refresh that is promised no area. -/
def satisfied : FullScreenReceived := awaiting 0 0

/-- `paintRect`. -/
def paintRect (f : FullScreenReceived) (rect : Rect) : FullScreenReceived :=
  { f with unpainted := fun i j =>
      if rect.x ≤ i ∧ i < rect.x + rect.width ∧ rect.y ≤ j ∧ j < rect.y + rect.height then false
      else f.unpainted i j }

/-- `complete`: nothing is left to be painted. -/
def complete (f : FullScreenReceived) : Bool :=
  (List.range f.width).all fun i => (List.range f.height).all fun j => !f.unpainted i j

/-- How much is left to be painted. -/
def left (f : FullScreenReceived) : ℕ :=
  ((List.range f.width).map fun i => (List.range f.height).countP fun j => f.unpainted i j).sum

/-- `__str__`. -/
def describe (f : FullScreenReceived) : String :=
  s!"the server left {f.left} of the {f.width}x{f.height} framebuffer unpainted after " ++
    s!"{f.retries + 1} full-screen update requests; capturing it as black"

/-- `pending`: a refresh of the whole screen still rides on this. -/
def pending (f : FullScreenReceived) : Bool := (f.width, f.height) ≠ (0, 0)

end FullScreenReceived

end VncDoTool
