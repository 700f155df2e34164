import Mathlib.Analysis.Real.Sqrt
import VncDoTool.DoTool.Canvas
import VncDoTool.Lib.Averaging

/-!
# Comparing images

`imagematch.py`: how far two images are apart, and whether that is near enough. Scores are exact: the
decimals of the module are rationals, and the square root is that of the reals.

* `ImageMatch.worstDelta`: the score, `ImageMatch.boundForChannels`: the bound on it that is read off
  the differences of the channels.
* `ImageMatch.imageMatches`: the comparison, which may answer from the bound; `scale_le_iff` decides it
  without a root.
* `ImageMatch.worstDelta_le_of_bound`: the bound holds of images with any blur.
* `ImageMatch.matches_iff`: the comparison answers what the score would.
-/

namespace VncDoTool

namespace ImageMatch

open Averaging

/-- Three numbers, one for each channel or for each axis. -/
abbrev Triple (α : Type) : Type := α × α × α

/-- `_Y`. -/
def axisY : Triple ℚ := (0.29889531, 0.58662247, 0.11448223)

/-- `_I`. -/
def axisI : Triple ℚ := (0.59597799, -0.27417610, -0.32180189)

/-- `_Q`. -/
def axisQ : Triple ℚ := (0.11147015, -0.52248202, 0.41101187)

/-- `_WEIGHTS`. -/
def weights : Triple ℚ := (0.5053, 0.299, 0.1957)

/-- `MAX_DELTA`. -/
def maxDelta : ℚ := 35215

/-- `_bands`, at one pixel. -/
def band (axis channels : Triple ℚ) : ℚ :=
  axis.1 * channels.1 + axis.2.1 * channels.2.1 + axis.2.2 * channels.2.2

/-- The sum of what the channels add on an axis, whichever way they differ. -/
def bandBound (axis channels : Triple ℚ) : ℚ :=
  |axis.1| * channels.1 + |axis.2.1| * channels.2.1 + |axis.2.2| * channels.2.2

/-- `_delta_for`. -/
def deltaFor (differences : Triple ℚ) : ℚ :=
  weights.1 * differences.1 ^ 2 + weights.2.1 * differences.2.1 ^ 2 +
    weights.2.2 * differences.2.2 ^ 2

/-- `_scale`. -/
noncomputable def scale (delta : ℚ) : ℝ := 255 * √((delta / maxDelta : ℚ) : ℝ)

/-- `bound_for_channels`. -/
noncomputable def boundForChannels (channels : Triple ℕ) : ℤ :=
  let channels : Triple ℚ := (channels.1, channels.2.1, channels.2.2)
  ⌈scale (deltaFor (bandBound axisY channels, bandBound axisI channels, bandBound axisQ channels))⌉

/-! ## Images -/

/-- The values of the channels at each column and row. -/
abbrev Bands : Type := ℕ × ℕ → Triple ℤ

/-- The columns and rows of an image. -/
def places (width height : ℕ) : List (ℕ × ℕ) :=
  (List.range height).flatMap fun j => (List.range width).map fun i => (i, j)

/-- `split`. -/
def split (image : Canvas) : Bands := fun p =>
  let colour := image.pixel p.1 p.2
  (colour.1.toNat, colour.2.1.toNat, colour.2.2.toNat)

/-- What Pillow makes of `ImageFilter.BoxBlur(radius)` on an image of some size: passes of averages,
each rounded. -/
structure BoxBlur : Type where
  rounding : Rounding
  passes : (width height radius : ℕ) →
    List (Pass fun p : ℕ × ℕ => p.1 < width ∧ p.2 < height)

/-- The places a box reaches from one on along a line, those behind its ends taken for the ends. -/
def reach (last radius place : ℕ) : List ℕ :=
  (List.range (2 * radius + 1)).map fun d => min (place + d - radius) last

theorem lt_of_mem_reach {length radius place i : ℕ} (hplace : place < length)
    (h : i ∈ reach (length - 1) radius place) : i < length := by
  obtain ⟨d, -, rfl⟩ := List.mem_map.mp h
  have hle : min (place + d - radius) (length - 1) ≤ length - 1 := min_le_right _ _
  omega

theorem reach_ne_nil (last radius place : ℕ) : reach last radius place ≠ [] := by simp [reach]

/-- A box blur of exact averages: along each row, then along each column. -/
def BoxBlur.exact : BoxBlur where
  rounding := .nearest
  passes width height radius := [
    { average := fun p => .equal ((reach (width - 1) radius p.1).map fun i => (i, p.2))
        (mt List.map_eq_nil_iff.mp (reach_ne_nil _ _ _))
      within := by
        intro p hp t ht
        obtain ⟨q, hq, rfl⟩ := List.mem_map.mp ht
        obtain ⟨i, hi, rfl⟩ := List.mem_map.mp hq
        exact ⟨lt_of_mem_reach hp.1 hi, hp.2⟩ },
    { average := fun p => .equal ((reach (height - 1) radius p.2).map fun j => (p.1, j))
        (mt List.map_eq_nil_iff.mp (reach_ne_nil _ _ _))
      within := by
        intro p hp t ht
        obtain ⟨q, hq, rfl⟩ := List.mem_map.mp ht
        obtain ⟨j, hj, rfl⟩ := List.mem_map.mp hq
        exact ⟨hp.1, lt_of_mem_reach hp.2 hj⟩ }]

/-- A channel of `_blurred`: no blur leaves the image as it is. -/
def blurredChannel (boxBlur : BoxBlur) (image : Canvas) (blur : ℕ) (channel : Triple ℤ → ℤ) :
    ℕ × ℕ → ℤ :=
  if blur = 0 then fun p => channel (split image p)
  else
    smooth boxBlur.rounding (boxBlur.passes image.width image.height blur) fun p =>
      channel (split image p)

/-- `_blurred`. -/
def blurred (boxBlur : BoxBlur) (image : Canvas) (blur : ℕ) : Bands := fun p =>
  (blurredChannel boxBlur image blur (·.1) p, blurredChannel boxBlur image blur (·.2.1) p,
    blurredChannel boxBlur image blur (·.2.2) p)

/-- The three differences of two pixels on the axes. -/
def differences (left right : Triple ℤ) : Triple ℚ :=
  let left : Triple ℚ := (left.1, left.2.1, left.2.2)
  let right : Triple ℚ := (right.1, right.2.1, right.2.2)
  (band axisY left - band axisY right, band axisI left - band axisI right,
    band axisQ left - band axisQ right)

/-- `worst_delta`: the greatest score of a pixel, 0 where there are no pixels. -/
noncomputable def worstDelta (boxBlur : BoxBlur) (actual expected : Canvas) (blur : ℕ) : ℝ :=
  let left := blurred boxBlur actual blur
  let right := blurred boxBlur expected blur
  let scored := (places actual.width actual.height).map fun p =>
    scale (deltaFor (differences (left p) (right p)))
  scored.foldr max 0

/-- The greatest difference of a channel, 0 where there are no pixels. -/
def extreme (actual expected : Canvas) (channel : Triple ℤ → ℤ) : ℕ :=
  ((places actual.width actual.height).map fun p =>
    (channel (split actual p) - channel (split expected p)).natAbs).foldr max 0

/-- `ImageStat.Stat(ImageChops.difference(..)).extrema`, the high ends. -/
def channels (actual expected : Canvas) : Triple ℕ :=
  (extreme actual expected (·.1), extreme actual expected (·.2.1), extreme actual expected (·.2.2))

/-! ## Scores without a root -/

variable {delta : ℚ} {fuzz : ℤ} {boxBlur : BoxBlur} {actual expected : Canvas} {blur : ℕ}

/-- A score is within the fuzz where its square is. -/
theorem scale_le_iff : scale delta ≤ fuzz ↔ 0 ≤ fuzz ∧ 65025 * delta ≤ fuzz ^ 2 * maxDelta := by
  have hroot : scale delta ≤ fuzz ↔ √((delta / maxDelta : ℚ) : ℝ) ≤ (fuzz : ℝ) / 255 := by
    rw [scale, le_div_iff₀ (by norm_num), mul_comm]
  have hsquare : ((delta / maxDelta : ℚ) : ℝ) ≤ ((fuzz : ℝ) / 255) ^ 2 ↔
      65025 * delta ≤ fuzz ^ 2 * maxDelta := by
    have hcast : ((fuzz : ℝ) / 255) ^ 2 = (((fuzz : ℚ) ^ 2 / 65025 : ℚ) : ℝ) := by
      push_cast
      ring
    rw [hcast, Rat.cast_le, div_le_div_iff₀ (by norm_num [maxDelta]) (by norm_num), mul_comm]
  have hpos : 0 ≤ (fuzz : ℝ) / 255 ↔ 0 ≤ fuzz := by
    rw [le_div_iff₀ (by norm_num), zero_mul, Int.cast_nonneg_iff]
  rw [hroot, Real.sqrt_le_iff, hsquare, hpos]

theorem scale_mono {a b : ℚ} (h : a ≤ b) : scale a ≤ scale b := by
  have hcast : ((a / maxDelta : ℚ) : ℝ) ≤ ((b / maxDelta : ℚ) : ℝ) := by
    rw [Rat.cast_le]
    exact div_le_div_of_nonneg_right h (by norm_num [maxDelta])
  exact mul_le_mul_of_nonneg_left (Real.sqrt_le_sqrt hcast) (by norm_num)

theorem boundForChannels_le_iff {channels : Triple ℕ} : boundForChannels channels ≤ fuzz ↔
    0 ≤ fuzz ∧ 65025 * deltaFor (bandBound axisY (channels.1, channels.2.1, channels.2.2),
      bandBound axisI (channels.1, channels.2.1, channels.2.2),
      bandBound axisQ (channels.1, channels.2.1, channels.2.2)) ≤ fuzz ^ 2 * maxDelta :=
  Int.ceil_le.trans scale_le_iff

/-- The greatest of some scores is within a bound where zero and each of them are. -/
theorem foldr_max_le_iff {α β : Type} [LinearOrder β] {f : α → β} {xs : List α} {b z : β} :
    (xs.map f).foldr max z ≤ b ↔ z ≤ b ∧ ∀ x ∈ xs, f x ≤ b := by
  induction xs with
  | nil => simp
  | cons x xs ih =>
    rw [List.map_cons, List.foldr_cons, max_le_iff, ih, List.forall_mem_cons]
    exact and_left_comm

theorem worstDelta_le_iff : worstDelta boxBlur actual expected blur ≤ fuzz ↔ 0 ≤ fuzz ∧
    ∀ p ∈ places actual.width actual.height,
      65025 * deltaFor (differences (blurred boxBlur actual blur p) (blurred boxBlur expected blur p)) ≤
        fuzz ^ 2 * maxDelta := by
  rw [worstDelta, foldr_max_le_iff]
  simp only [scale_le_iff, Int.cast_nonneg_iff]
  exact ⟨fun h => ⟨h.1, fun p hp => (h.2 p hp).2⟩, fun h => ⟨h.1, fun p hp => ⟨h.1, h.2 p hp⟩⟩⟩

instance {channels : Triple ℕ} : Decidable (boundForChannels channels ≤ fuzz) :=
  decidable_of_iff _ boundForChannels_le_iff.symm

instance : Decidable (worstDelta boxBlur actual expected blur ≤ fuzz) :=
  decidable_of_iff _ worstDelta_le_iff.symm

/-- `matches`. No pixels have no extrema that could be unpacked. -/
def imageMatches (boxBlur : BoxBlur) (actual expected : Canvas) (fuzz : ℤ) (blur : ℕ) :
    Except PyErr Bool :=
  if (actual.width, actual.height) ≠ (expected.width, expected.height) then .ok false
  else if boundForChannels (channels actual expected) ≤ fuzz then .ok true
  else if places actual.width actual.height = [] then
    .error ⟨.typeError, "cannot unpack non-iterable NoneType object"⟩
  else .ok (decide (worstDelta boxBlur actual expected blur ≤ fuzz))

/-! ## The bound -/

/-- No axis adds more than the channels do. -/
theorem abs_band_sub_le (axis : Triple ℚ) (left right : Triple ℤ) (n : Triple ℕ)
    (h1 : |left.1 - right.1| ≤ n.1) (h2 : |left.2.1 - right.2.1| ≤ n.2.1)
    (h3 : |left.2.2 - right.2.2| ≤ n.2.2) :
    |band axis (left.1, left.2.1, left.2.2) - band axis (right.1, right.2.1, right.2.2)| ≤
      bandBound axis (n.1, n.2.1, n.2.2) := by
  have hchannel {c : ℚ} {a b : ℤ} {m : ℕ} (h : |a - b| ≤ m) : |c * ((a : ℚ) - b)| ≤ |c| * m := by
    rw [abs_mul]
    apply mul_le_mul_of_nonneg_left _ (abs_nonneg c)
    exact_mod_cast h
  have hsum : band axis (left.1, left.2.1, left.2.2) - band axis (right.1, right.2.1, right.2.2) =
      axis.1 * ((left.1 : ℚ) - right.1) + axis.2.1 * ((left.2.1 : ℚ) - right.2.1) +
        axis.2.2 * ((left.2.2 : ℚ) - right.2.2) := by
    unfold band
    ring
  rw [hsum, bandBound]
  calc |axis.1 * ((left.1 : ℚ) - right.1) + axis.2.1 * ((left.2.1 : ℚ) - right.2.1) +
        axis.2.2 * ((left.2.2 : ℚ) - right.2.2)|
      ≤ |axis.1 * ((left.1 : ℚ) - right.1)| + |axis.2.1 * ((left.2.1 : ℚ) - right.2.1)| +
        |axis.2.2 * ((left.2.2 : ℚ) - right.2.2)| := abs_add_three _ _ _
    _ ≤ _ := add_le_add (add_le_add (hchannel h1) (hchannel h2)) (hchannel h3)

/-- The greater the differences, the greater their sum, whatever their signs. -/
theorem deltaFor_le {d b : Triple ℚ} (h1 : |d.1| ≤ b.1) (h2 : |d.2.1| ≤ b.2.1)
    (h3 : |d.2.2| ≤ b.2.2) : deltaFor d ≤ deltaFor b := by
  have hsquare {w x y : ℚ} (hw : 0 ≤ w) (h : |x| ≤ y) : w * x ^ 2 ≤ w * y ^ 2 := by
    apply mul_le_mul_of_nonneg_left _ hw
    rw [← sq_abs x]
    exact pow_le_pow_left₀ (abs_nonneg x) h 2
  have hfirst := hsquare (w := weights.1) (by norm_num [weights]) h1
  have hsecond := hsquare (w := weights.2.1) (by norm_num [weights]) h2
  have hthird := hsquare (w := weights.2.2) (by norm_num [weights]) h3
  exact add_le_add (add_le_add hfirst hsecond) hthird

theorem mem_places {width height : ℕ} {p : ℕ × ℕ} :
    p ∈ places width height ↔ p.1 < width ∧ p.2 < height := by
  unfold places
  simp only [List.mem_flatMap, List.mem_map, List.mem_range]
  constructor
  · rintro ⟨j, hj, i, hi, rfl⟩
    exact ⟨hi, hj⟩
  · rintro ⟨hi, hj⟩
    exact ⟨p.2, hj, p.1, hi, rfl⟩

/-- No pixel differs by more in a channel than the extreme. -/
theorem abs_sub_le_extreme (channel : Triple ℤ → ℤ) {p : ℕ × ℕ}
    (hp : p.1 < actual.width ∧ p.2 < actual.height) :
    |channel (split actual p) - channel (split expected p)| ≤ extreme actual expected channel := by
  have hle : (channel (split actual p) - channel (split expected p)).natAbs ≤
      extreme actual expected channel :=
    (foldr_max_le_iff.mp (le_refl (extreme actual expected channel))).2 p (mem_places.mpr hp)
  rw [Int.abs_eq_natAbs]
  exact_mod_cast hle

/-- Nor does it once both images are blurred. -/
theorem abs_blurred_sub_le (boxBlur : BoxBlur) (blur : ℕ) (hwidth : actual.width = expected.width)
    (hheight : actual.height = expected.height) (channel : Triple ℤ → ℤ) {p : ℕ × ℕ}
    (hp : p.1 < actual.width ∧ p.2 < actual.height) :
    |blurredChannel boxBlur actual blur channel p - blurredChannel boxBlur expected blur channel p| ≤
      extreme actual expected channel := by
  unfold blurredChannel
  split_ifs with hnone
  · exact abs_sub_le_extreme channel hp
  · rw [← hwidth, ← hheight]
    exact smooth_close _ _ (fun q hq => abs_sub_le_extreme channel hq) p hp

/-- The bound read off the channels before the blur holds of every pixel behind it. -/
theorem scale_differences_le (hwidth : actual.width = expected.width)
    (hheight : actual.height = expected.height) {p : ℕ × ℕ}
    (hp : p.1 < actual.width ∧ p.2 < actual.height) :
    scale (deltaFor (differences (blurred boxBlur actual blur p) (blurred boxBlur expected blur p))) ≤
      boundForChannels (channels actual expected) := by
  have hchannel := abs_blurred_sub_le boxBlur blur hwidth hheight
  have haxis (axis : Triple ℚ) := abs_band_sub_le axis
    (blurred boxBlur actual blur p) (blurred boxBlur expected blur p) (channels actual expected)
    (hchannel (·.1) hp) (hchannel (·.2.1) hp) (hchannel (·.2.2) hp)
  let n : Triple ℚ := ((channels actual expected).1, (channels actual expected).2.1,
    (channels actual expected).2.2)
  have hdelta :
      deltaFor (differences (blurred boxBlur actual blur p) (blurred boxBlur expected blur p)) ≤
        deltaFor (bandBound axisY n, bandBound axisI n, bandBound axisQ n) :=
    deltaFor_le (haxis axisY) (haxis axisI) (haxis axisQ)
  exact (scale_mono hdelta).trans (Int.le_ceil _)

/-- The bound read off the channels before the blur is no less than the score behind it. -/
theorem worstDelta_le_of_bound (hwidth : actual.width = expected.width)
    (hheight : actual.height = expected.height)
    (h : boundForChannels (channels actual expected) ≤ fuzz) :
    worstDelta boxBlur actual expected blur ≤ fuzz := by
  have hfuzz : 0 ≤ fuzz := (boundForChannels_le_iff.mp h).1
  apply foldr_max_le_iff.mpr ⟨by exact_mod_cast hfuzz, fun p hp => ?_⟩
  calc scale (deltaFor (differences (blurred boxBlur actual blur p) (blurred boxBlur expected blur p)))
      ≤ boundForChannels (channels actual expected) :=
        scale_differences_le hwidth hheight (mem_places.mp hp)
    _ ≤ fuzz := by exact_mod_cast h

/-- Images without pixels are as near as can be. -/
theorem bound_of_no_places (hnone : places actual.width actual.height = []) (hfuzz : 0 ≤ fuzz) :
    boundForChannels (channels actual expected) ≤ fuzz := by
  have hextreme (channel : Triple ℤ → ℤ) : extreme actual expected channel = 0 := by
    rw [extreme, hnone]
    rfl
  have hchannels : channels actual expected = (0, 0, 0) := by
    rw [channels, hextreme, hextreme, hextreme]
  rw [hchannels, boundForChannels_le_iff]
  have hmax : 0 ≤ maxDelta := by norm_num [maxDelta]
  refine ⟨hfuzz, ?_⟩
  calc _ = (0 : ℚ) := by norm_num [deltaFor, bandBound]
    _ ≤ fuzz ^ 2 * maxDelta := mul_nonneg (sq_nonneg _) hmax

/-- The comparison says of two images of one size what their score does, with no blur and with any;
where the bound of the images as they are is within the fuzz, so is the score behind the blur. -/
theorem matches_iff (boxBlur : BoxBlur) (actual expected : Canvas) (fuzz : ℤ) (blur : ℕ) :
    (imageMatches boxBlur actual expected fuzz blur = .ok true ↔
      (actual.width, actual.height) = (expected.width, expected.height) ∧
        worstDelta boxBlur actual expected blur ≤ fuzz) ∧
    ((actual.width, actual.height) = (expected.width, expected.height) →
      boundForChannels (channels actual expected) ≤ fuzz →
        worstDelta boxBlur actual expected blur ≤ fuzz) := by
  have hsound (hsize : (actual.width, actual.height) = (expected.width, expected.height))
      (hbound : boundForChannels (channels actual expected) ≤ fuzz) :
      worstDelta boxBlur actual expected blur ≤ fuzz :=
    worstDelta_le_of_bound (Prod.mk.inj hsize).1 (Prod.mk.inj hsize).2 hbound
  refine ⟨?_, hsound⟩
  unfold imageMatches
  by_cases hsize : (actual.width, actual.height) = (expected.width, expected.height)
  · rw [if_neg (not_not.mpr hsize)]
    by_cases hbound : boundForChannels (channels actual expected) ≤ fuzz
    · rw [if_pos hbound]
      exact ⟨fun _ => ⟨hsize, hsound hsize hbound⟩, fun _ => rfl⟩
    rw [if_neg hbound]
    by_cases hnone : places actual.width actual.height = []
    · -- the score of no pixels is zero, and so is their bound
      rw [if_pos hnone]
      refine ⟨fun h => (by cases h), fun h => absurd ?_ hbound⟩
      exact bound_of_no_places hnone (worstDelta_le_iff.mp h.2).1
    · rw [if_neg hnone]
      simp [hsize]
  · rw [if_pos hsize]
    exact ⟨fun h => (by cases h), fun h => absurd h.1 hsize⟩

/-- Three grey pixels, the one in the middle this much greener. -/
def greyRow (green : UInt8) : Canvas := ⟨3, 1, fun i _ => (120, 120 + (if i = 1 then green else 0), 120)⟩

/-- Two rows further apart than the fuzz, of which a blur of exact averages makes a match. -/
theorem matches_iff_blurred :
    imageMatches .exact (greyRow 0) (greyRow 2) 1 1 = .ok true ∧
      worstDelta .exact (greyRow 0) (greyRow 2) 1 ≤ 1 ∧
      ¬worstDelta .exact (greyRow 0) (greyRow 2) 0 ≤ 1 ∧
      ¬boundForChannels (channels (greyRow 0) (greyRow 2)) ≤ 1 := by
  have hblurred := matches_iff .exact (greyRow 0) (greyRow 2) 1 1
  have hsharp := matches_iff .exact (greyRow 0) (greyRow 2) 1 0
  have hmatches : imageMatches .exact (greyRow 0) (greyRow 2) 1 1 = .ok true := by decide +kernel
  have hfar : imageMatches .exact (greyRow 0) (greyRow 2) 1 0 ≠ .ok true := by decide +kernel
  have hnear := hblurred.1.mp hmatches
  simp only [Int.cast_one] at hnear hsharp
  have hapart : ¬worstDelta .exact (greyRow 0) (greyRow 2) 0 ≤ 1 :=
    fun h => hfar (hsharp.1.mpr ⟨rfl, h⟩)
  exact ⟨hmatches, hnear.2, hapart, fun h => hapart (hsharp.2 rfl h)⟩

end ImageMatch

end VncDoTool
