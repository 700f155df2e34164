import VncDoTool.Decoders.Feeding
import VncDoTool.Decoders.Hextile
import VncDoTool.Decoders.Picture

/-!
# What Hextile paints

A Hextile rectangle as its sender describes it, the bytes that describe it, and the picture it comes
to.

* `TileDescription`: a tile; `TileDescription.serialise`: its bytes.
* `TileDescription.paint`: what a tile lays over a picture, in colours of its own or carried over
  from the tiles before; there is none where a colour is not available or a subrectangle overflows.
* `Decoders.hextile_decodes`: the decoder takes exactly the bytes of the tiles and paints what they
  describe, or raises a `DecodeError`.
-/

namespace VncDoTool

open Raster (Picture render overlay ofRaster Sized)

/-! ## Tiles -/

/-- Where a subrectangle lies in its tile. -/
structure TilePlace : Type where
  x : ℕ
  y : ℕ
  width : ℕ
  height : ℕ
  deriving DecidableEq, Repr

namespace TilePlace

/-- Four bits hold the position, and as many the size less one. -/
structure Encodable (place : TilePlace) : Prop where
  x : place.x < 16
  y : place.y < 16
  width : 1 ≤ place.width ∧ place.width ≤ 16
  height : 1 ≤ place.height ∧ place.height ≤ 16

/-- The subrectangle does not overflow the tile. -/
def Fits (tile : Rect) (place : TilePlace) : Prop :=
  place.x + place.width ≤ tile.width ∧ place.y + place.height ≤ tile.height

instance (tile : Rect) (place : TilePlace) : Decidable (place.Fits tile) :=
  inferInstanceAs (Decidable (_ ∧ _))

/-- A byte for the position, and one for the size. -/
def serialise (place : TilePlace) : Bytes :=
  [UInt8.ofNat (16 * place.x + place.y), UInt8.ofNat (16 * (place.width - 1) + (place.height - 1))]

end TilePlace

/-- The subrectangles of a tile: all in the foreground, or each in a colour of its own. -/
inductive TileSubrects : Type where
  | plain (places : List TilePlace)
  | coloured (entries : List (Bytes × TilePlace))
  deriving DecidableEq, Repr

/-- A tile, as its sender describes it. -/
inductive TileDescription : Type where
  | raw (pixels : Bytes)
  | painted (background foreground : Option Bytes) (subrects : Option TileSubrects)
  deriving DecidableEq, Repr

/-- The colours that the next tile may use without specifying them. -/
structure Carried : Type where
  background : Option Bytes := none
  foreground : Option Bytes := none
  deriving DecidableEq, Repr

/-! ## Serialising -/

namespace TileSubrects

/-- There are as many subrectangles as a byte may count, and each can be written. -/
def Encodable (bypp : ℕ) : TileSubrects → Prop
  | plain places => places.length ≤ 255 ∧ ∀ place ∈ places, place.Encodable
  | coloured entries =>
    entries.length ≤ 255 ∧ ∀ entry ∈ entries, entry.1.length = bypp ∧ entry.2.Encodable

/-- How many subrectangles there are. -/
def count : TileSubrects → ℕ
  | plain places => places.length
  | coloured entries => entries.length

/-- Each subrectangle has a colour of its own. -/
def isColoured : TileSubrects → Bool
  | plain _ => false
  | coloured _ => true

/-- The bytes of the subrectangles. -/
def serialise : TileSubrects → Bytes
  | plain places => places.flatMap TilePlace.serialise
  | coloured entries => entries.flatMap fun entry => entry.1 ++ entry.2.serialise

/-- Lay a subrectangle over a picture, if it fits its tile. -/
def paintPlace (tile : Rect) (p : Picture UInt8) (entry : Bytes × TilePlace) :
    Option (Picture UInt8) :=
  let (colour, place) := entry
  if place.Fits tile then
    some (overlay p (tile.x + place.x) (tile.y + place.y) place.width place.height fun _ _ => colour)
  else none

/-- Lay the subrectangles over a picture, and what foreground that leaves. -/
def paint (tile : Rect) (foreground : Option Bytes) (p : Picture UInt8) :
    TileSubrects → Option (Picture UInt8 × Option Bytes)
  | plain places => do
    let p ← places.foldlM (fun p place => do
      let colour ← foreground
      paintPlace tile p (colour, place)) p
    some (p, foreground)
  | coloured entries => do
    let p ← entries.foldlM (paintPlace tile) p
    some (p, none)

end TileSubrects

namespace TileDescription

/-- Each colour has the bytes of a pixel, and raw pixels are those of the tile. -/
def Encodable (bypp : ℕ) (tile : Rect) : TileDescription → Prop
  | raw pixels => pixels.length = tile.width * tile.height * bypp
  | painted background foreground subrects =>
    (∀ colour ∈ background, colour.length = bypp) ∧ (∀ colour ∈ foreground, colour.length = bypp) ∧
      ∀ s ∈ subrects, s.Encodable bypp

/-- The bits of the subencoding. -/
def subencoding : TileDescription → ℕ
  | raw _ => 1
  | painted background foreground subrects =>
    (if background.isSome then 2 else 0) + (if foreground.isSome then 4 else 0) +
      match subrects with
      | none => 0
      | some (.plain _) => 8
      | some (.coloured _) => 24

/-- The bytes of a tile. -/
def serialise (t : TileDescription) : Bytes :=
  UInt8.ofNat t.subencoding ::
    match t with
    | raw pixels => pixels
    | painted background foreground none => background.getD [] ++ foreground.getD []
    | painted background foreground (some s) =>
      background.getD [] ++ foreground.getD [] ++ [UInt8.ofNat s.count] ++ s.serialise

/-- What a tile lays over a picture, and the colours it leaves. Nothing is carried over a raw tile,
and no foreground over one whose subrectangles are coloured. -/
def paint (bypp : ℕ) (st : Picture UInt8 × Carried) (tile : Rect) :
    TileDescription → Option (Picture UInt8 × Carried)
  | raw pixels =>
    some (overlay st.1 tile.x tile.y tile.width tile.height (ofRaster bypp tile.width pixels), {})
  | painted background foreground subrects => do
    let background ← background <|> st.2.background
    let p := overlay st.1 tile.x tile.y tile.width tile.height fun _ _ => background
    let foreground := foreground <|> st.2.foreground
    match subrects with
    | none => some (p, ⟨some background, foreground⟩)
    | some s => do
      let (p, foreground) ← s.paint tile foreground p
      some (p, ⟨some background, foreground⟩)

end TileDescription

namespace Decoders

/-- What the tiles of a rectangle paint, one after the other, over a blank picture. -/
def hextilePaint (bypp width height : ℕ) (descriptions : List TileDescription) :
    Option (Picture UInt8) := do
  let (p, _) ← ((tiles hextileTileSize width height).zip descriptions).foldlM
    (fun st (tile, description) => description.paint bypp st tile)
    (RectBuffer.blank bypp, ({} : Carried))
  some p

open RFBClient Coroutine TileSubrects

variable {codecs : Codecs} {S : Type} {bypp : ℕ} {tile : Rect} {target target' : RectBuffer}
  {p p' : Picture UInt8}

/-- The tile lies in the buffer. -/
structure Within (tile : Rect) (target : RectBuffer) : Prop where
  right : tile.x + tile.width ≤ target.width
  bottom : tile.y + tile.height ≤ target.height

theorem Within.writes (h : Within tile target) (hwrites : target.Writes target') :
    Within tile target' :=
  ⟨hwrites.width ▸ h.right, hwrites.height ▸ h.bottom⟩

/-- The tiles of a rectangle lie in it. -/
theorem within_of_mem_tiles {size width height : ℕ} (hsize : 0 < size)
    (h : tile ∈ tiles size width height) :
    tile.x + tile.width ≤ width ∧ tile.y + tile.height ≤ height := by
  have hstep : ∀ limit t, t ∈ steps size limit → t < limit := by
    intro limit t ht
    obtain ⟨i, hi, rfl⟩ := List.mem_map.mp ht
    -- the last step but one ends before the limit
    have hlt : i < (limit + size - 1) / size := List.mem_range.mp hi
    have hle : (i + 1) * size ≤ limit + size - 1 := (Nat.le_div_iff_mul_le hsize).mp hlt
    rw [Nat.succ_mul, Nat.mul_comm] at hle
    omega
  obtain ⟨ty, hty, hrow⟩ := List.mem_flatMap.mp h
  obtain ⟨tx, htx, rfl⟩ := List.mem_map.mp hrow
  have hx := hstep width tx htx
  have hy := hstep height ty hty
  constructor <;> dsimp only <;> omega

/-- The bytes of a subrectangle. -/
def entryBytes (coloured : Bool) (entry : Bytes × TilePlace) : Bytes :=
  (if coloured then entry.1 else []) ++ entry.2.serialise

/-- A subrectangle is painted where it fits its tile. -/
theorem paintTileSubrect_entryBytes (tile : Rect) {coloured : Bool} (foreground : Bytes)
    {entry : Bytes × TilePlace} (hcolour : coloured = true → entry.1.length = target.bypp)
    (hplain : coloured = false → entry.1 = foreground) (hplace : entry.2.Encodable) :
    (entry.2.Fits tile →
      paintTileSubrect tile coloured foreground target (entryBytes coloured entry) =
        target.fill (tile.x + entry.2.x : ℕ) (tile.y + entry.2.y : ℕ) entry.2.width entry.2.height
          entry.1) ∧
    (¬entry.2.Fits tile → ∃ text,
      paintTileSubrect tile coloured foreground target (entryBytes coloured entry) =
        .error ⟨.decodeError, text⟩) := by
  obtain ⟨hx, hy, hwidth, hheight⟩ := hplace
  have htaken : (if coloured then (entryBytes coloured entry).take target.bypp else foreground) =
      entry.1 := by
    cases coloured with
    | true => exact List.take_left' (hcolour rfl)
    | false => exact (hplain rfl).symm
  have hleft : (if coloured then (entryBytes coloured entry).drop target.bypp
      else entryBytes coloured entry) = entry.2.serialise := by
    cases coloured with
    | true => exact List.drop_left' (hcolour rfl)
    | false => rfl
  -- Two bytes of nibbles: the place, and the size less one.
  have hxy : byteAt entry.2.serialise 0 = 16 * entry.2.x + entry.2.y := byteAt_ofNat (by omega) _
  have hwh : byteAt entry.2.serialise 1 = 16 * (entry.2.width - 1) + (entry.2.height - 1) :=
    byteAt_ofNat (by omega) []
  have hposition := nibbles (a := entry.2.x) hy
  have hsize := nibbles (a := entry.2.width - 1) (b := entry.2.height - 1) (by omega)
  unfold paintTileSubrect
  simp only [htaken, hleft, hxy, hwh, hposition.1, hposition.2, hsize.1, hsize.2,
    Nat.sub_add_cancel hwidth.1, Nat.sub_add_cancel hheight.1]
  constructor
  · rintro ⟨hright, hbottom⟩
    exact if_neg (by omega)
  · intro hoverflows
    refine ⟨_, if_pos ?_⟩
    unfold TilePlace.Fits at hoverflows
    omega

/-- The subrectangles of a tile, one after the other. -/
theorem decodes_subrects {coloured : Bool} {foreground : Bytes} {entries : List (Bytes × TilePlace)}
    (hshows : target.Shows p) (hwithin : Within tile target)
    (hcolours : ∀ entry ∈ entries, entry.1.length = target.bypp)
    (hplain : coloured = false → ∀ entry ∈ entries, entry.1 = foreground)
    (hplaces : ∀ entry ∈ entries, entry.2.Encodable) (a : DAttrs codecs S) :
    (∀ p', entries.foldlM (paintPlace tile) p = some p' → ∃ target',
      Decodes (entries.foldlM (fun target entry => Gen.lift (RFBClient.ofExcept
        (paintTileSubrect tile coloured foreground target (entryBytes coloured entry)))) target)
        a [] target' a ∧
      target'.Shows p' ∧ target.Writes target' ∧
        (target.covered = true → target'.covered = true)) ∧
    (entries.foldlM (paintPlace tile) p = none →
      Refuses (entries.foldlM (fun target entry => Gen.lift (RFBClient.ofExcept
        (paintTileSubrect tile coloured foreground target (entryBytes coloured entry)))) target)
        a []) := by
  induction entries generalizing target p with
  | nil =>
    refine ⟨fun p' hpaint => ⟨target, Consumes.pure target a, ?_, RectBuffer.Writes.refl target, id⟩,
      fun hpaint => absurd hpaint (by simp)⟩
    rw [← Option.some.inj hpaint]
    exact hshows
  | cons entry entries ih =>
    have hcolour := hcolours entry List.mem_cons_self
    have hpaint := paintTileSubrect_entryBytes tile foreground
      (fun _ => hcolour) (fun hfalse => hplain hfalse entry List.mem_cons_self)
      (hplaces entry List.mem_cons_self)
    by_cases hfits : entry.2.Fits tile
    · -- it is filled, and the picture with it
      have hpainted : paintPlace tile p entry = some (overlay p (tile.x + entry.2.x)
          (tile.y + entry.2.y) entry.2.width entry.2.height fun _ _ => entry.1) := if_pos hfits
      have hinside : target.Inside (tile.x + entry.2.x : ℕ) (tile.y + entry.2.y : ℕ)
          entry.2.width entry.2.height := by
        obtain ⟨hright, hbottom⟩ := hwithin
        obtain ⟨hx, hy⟩ := hfits
        unfold RectBuffer.Inside
        omega
      obtain ⟨target', hfill⟩ := (RectBuffer.fill_succeeds_iff target _ _ _ _ entry.1).1
        ⟨hinside, hcolour⟩
      obtain ⟨hshows', hcovered', hwrites'⟩ := RectBuffer.shows_fill hshows hfill
      have hfirst := decodes_ofExcept ((hpaint.1 hfits).trans hfill) a
      obtain ⟨hrest, hfail⟩ := ih hshows' (hwithin.writes hwrites')
        (fun e he => (hcolours e (List.mem_cons_of_mem entry he)).trans hwrites'.bypp.symm)
        (fun hfalse e he => hplain hfalse e (List.mem_cons_of_mem entry he))
        (fun e he => hplaces e (List.mem_cons_of_mem entry he))
      simp only [Int.toNat_natCast] at hrest hfail
      rw [List.foldlM_cons, hpainted]
      refine ⟨fun p' hp' => ?_, fun hnone => ?_⟩
      · obtain ⟨target'', hdecodes, hshows'', hwrites'', hcovered''⟩ := hrest p' hp'
        exact ⟨target'', Consumes.foldlM_cons hfirst hdecodes, hshows'', hwrites'.trans hwrites'',
          fun _ => hcovered'' hcovered'⟩
      · exact Rejects.foldlM_cons hfirst (hfail hnone)
    · obtain ⟨text, herror⟩ := hpaint.2 hfits
      have hpainted : paintPlace tile p entry = none := if_neg hfits
      rw [List.foldlM_cons, hpainted]
      exact ⟨fun p' hp' => absurd hp' (by simp),
        fun _ => Rejects.foldlM_head (refuses_ofExcept herror a [])⟩

/-- The decoder cuts the bytes of the subrectangles apart again. -/
theorem foldlM_pieces {coloured : Bool} {foreground : Bytes} {entries : List (Bytes × TilePlace)}
    {size : ℕ} (hsize : ∀ entry ∈ entries, (entryBytes coloured entry).length = size) :
    (List.range entries.length).foldlM (fun target i => (Gen.lift (RFBClient.ofExcept
      (paintTileSubrect tile coloured foreground target
        (((entries.flatMap (entryBytes coloured)).drop (i * size)).take size))) :
          Gen (Decoding codecs) S RectBuffer)) target =
    entries.foldlM (fun target entry => Gen.lift (RFBClient.ofExcept
      (paintTileSubrect tile coloured foreground target (entryBytes coloured entry)))) target := by
  rw [← List.foldlM_map (f := entryBytes coloured) (g := fun target piece => (Gen.lift
      (RFBClient.ofExcept (paintTileSubrect tile coloured foreground target piece)) :
        Gen (Decoding codecs) S RectBuffer)),
    ← Raster.pieces_flatMap hsize, List.foldlM_map]

/-- The decoder's colour is the one that is available, or empty. -/
structure Holds (bypp : ℕ) (colour : Bytes) (available : Option Bytes) : Prop where
  eq : colour = available.getD []
  length : ∀ c ∈ available, c.length = bypp

theorem Holds.eq_nil_iff {colour : Bytes} {available : Option Bytes} (h : Holds bypp colour available)
    (hbypp : 1 ≤ bypp) : colour = [] ↔ available = none := by
  rw [h.eq]
  cases available with
  | none => exact ⟨fun _ => rfl, fun _ => rfl⟩
  | some c =>
    have hlength := h.length c rfl
    refine ⟨fun hnil => ?_, fun hnone => absurd hnone (by simp)⟩
    rw [Option.getD_some] at hnil
    rw [hnil] at hlength
    exact absurd hlength (by simp; omega)

/-- A colour that is specified, or the one before. -/
theorem Holds.orElse {colour : Bytes} {available specified : Option Bytes}
    (h : Holds bypp colour available) (hspecified : ∀ c ∈ specified, c.length = bypp) :
    Holds bypp (if specified.isSome then specified.getD [] else colour)
      (specified <|> available) := by
  cases specified with
  | none => exact h
  | some c => exact ⟨rfl, hspecified⟩

/-- The decoder's state shows the picture, and holds the colours that are carried over. -/
structure Tracks (target₀ : RectBuffer) (st : HextileState) (p : Picture UInt8)
    (carried : Carried) : Prop where
  shows : st.target.Shows p
  writes : target₀.Writes st.target
  background : Holds target₀.bypp st.background carried.background
  foreground : Holds target₀.bypp st.foreground carried.foreground

/-- The subrectangles of a tile, once they are read. -/
theorem decodes_hextileSubrects_read (flags : HextileFlags) {st : HextileState}
    (entries : List (Bytes × TilePlace)) (hshows : st.target.Shows p)
    (hwithin : Within tile st.target)
    (hcolours : ∀ entry ∈ entries, entry.1.length = st.target.bypp)
    (hplain : flags.subrectsColored = false → ∀ entry ∈ entries, entry.1 = st.foreground)
    (hplaces : ∀ entry ∈ entries, entry.2.Encodable)
    (hforeground : ¬(entries.length ≠ 0 ∧ ¬flags.subrectsColored = true ∧ st.foreground = []))
    (a : DAttrs codecs S) :
    (∀ p', entries.foldlM (paintPlace tile) p = some p' → ∃ target',
      Decodes (hextileSubrects flags tile entries.length st) a
        (entries.flatMap (entryBytes flags.subrectsColored))
        { st with
          target := target'
          foreground := if flags.subrectsColored then [] else st.foreground } a ∧
      target'.Shows p' ∧ st.target.Writes target' ∧
        (st.target.covered = true → target'.covered = true)) ∧
    (entries.foldlM (paintPlace tile) p = none →
      Refuses (hextileSubrects flags tile entries.length st) a
        (entries.flatMap (entryBytes flags.subrectsColored))) := by
  have hsize : ∀ entry ∈ entries, (entryBytes flags.subrectsColored entry).length =
      if flags.subrectsColored then st.target.bypp + 2 else 2 := by
    intro entry hentry
    unfold entryBytes
    rw [List.length_append]
    cases flags.subrectsColored with
    | true =>
      rw [if_pos rfl, if_pos rfl, hcolours entry hentry]
      rfl
    | false => rfl
  have hdata : (entries.flatMap (entryBytes flags.subrectsColored)).length =
      (if flags.subrectsColored then st.target.bypp + 2 else 2) * entries.length := by
    rw [Raster.length_flatMap hsize, Nat.mul_comm]
  obtain ⟨hsome, hnone⟩ := decodes_subrects hshows hwithin hcolours hplain hplaces a
  unfold hextileSubrects
  rw [if_neg hforeground]
  -- nothing follows the bytes that are read
  rw [← List.append_nil (entries.flatMap _)]
  constructor
  · intro p' hp'
    obtain ⟨target', hdecodes, hrest⟩ := hsome p' hp'
    refine ⟨target', decodes_read_bind hdata ?_, hrest⟩
    rw [← foldlM_pieces hsize] at hdecodes
    exact hdecodes.bind_nil (Consumes.pure _ a)
  · intro hp'
    have hrejects := hnone hp'
    rw [← foldlM_pieces hsize] at hrejects
    exact refuses_read_bind hdata hrejects.bind_left
/-- The subrectangles of a tile. -/
theorem decodes_hextileSubrects (flags : HextileFlags) (st : HextileState) {s : TileSubrects}
    {foreground : Option Bytes} (hshows : st.target.Shows p) (hwithin : Within tile st.target)
    (hbypp : 1 ≤ st.target.bypp) (hforeground : Holds st.target.bypp st.foreground foreground)
    (hs : s.Encodable st.target.bypp) (hflags : flags.subrectsColored = s.isColoured)
    (a : DAttrs codecs S) :
    (∀ p' foreground', s.paint tile foreground p = some (p', foreground') → ∃ st' : HextileState,
      Decodes (hextileSubrects flags tile s.count st) a s.serialise st' a ∧
      st'.target.Shows p' ∧ st.target.Writes st'.target ∧ st'.background = st.background ∧
      Holds st.target.bypp st'.foreground foreground' ∧
        (st.target.covered = true → st'.target.covered = true)) ∧
    (s.paint tile foreground p = none →
      Refuses (hextileSubrects flags tile s.count st) a s.serialise) := by
  cases s with
  | coloured entries =>
    have hdecodes := decodes_hextileSubrects_read flags _ hshows hwithin
      (fun entry hentry => (hs.2 entry hentry).1) (fun hfalse => absurd (hflags.symm.trans hfalse)
        (by simp [TileSubrects.isColoured])) (fun entry hentry => (hs.2 entry hentry).2)
      (fun hraises => hraises.2.1 hflags) a
    rw [hflags] at hdecodes
    constructor
    · intro p' foreground' hpaint
      obtain ⟨q, hq, hresult⟩ := Option.bind_eq_some_iff.mp hpaint
      obtain ⟨rfl, rfl⟩ := Prod.mk.inj (Option.some.inj hresult)
      obtain ⟨target', htarget, hshown, hwrites, hcovered⟩ := hdecodes.1 q hq
      exact ⟨_, htarget, hshown, hwrites, rfl, ⟨rfl, by simp⟩, hcovered⟩
    · intro hpaint
      refine hdecodes.2 ?_
      cases hfold : entries.foldlM (paintPlace tile) p with
      | none => rfl
      | some q => exact absurd hpaint (by simp [TileSubrects.paint, hfold])
  | plain places =>
    cases foreground with
    | none =>
      have hempty : st.foreground = [] := (hforeground.eq_nil_iff hbypp).mpr rfl
      cases places with
      | nil =>
        -- no subrectangles need no foreground
        have hdecodes := (decodes_hextileSubrects_read flags [] hshows
          hwithin (by simp) (by simp) (by simp) (fun hraises => hraises.1 rfl) a).1 p rfl
        obtain ⟨target', htarget, hshown, hwrites, hcovered⟩ := hdecodes
        rw [hflags] at htarget
        refine ⟨fun p' foreground' hpaint => ?_, fun hpaint => absurd hpaint (by simp
          [TileSubrects.paint])⟩
        obtain ⟨rfl, rfl⟩ := Prod.mk.inj (Option.some.inj hpaint)
        exact ⟨_, htarget, hshown, hwrites, rfl, ⟨hempty, by simp⟩, hcovered⟩
      | cons place places =>
        have hpainted : (plain (place :: places)).paint tile none p = none := rfl
        rw [hpainted]
        refine ⟨fun p' foreground' hpaint => absurd hpaint (by simp), fun _ => ?_⟩
        unfold hextileSubrects
        rw [if_pos ⟨Nat.succ_ne_zero places.length, by simp [hflags, isColoured], hempty⟩]
        exact refuses_raise _ a _
    | some colour =>
      have hcolour : st.foreground = colour := hforeground.eq
      have hlength : colour.length = st.target.bypp := hforeground.length colour rfl
      -- each subrectangle is an entry in the foreground
      have hentries : ∀ entry ∈ places.map (colour, ·), entry.1 = colour ∧ entry.2.Encodable := by
        intro entry hentry
        obtain ⟨place, hplace, rfl⟩ := List.mem_map.mp hentry
        exact ⟨rfl, hs.2 place hplace⟩
      have hbytes : (places.map (colour, ·)).flatMap (entryBytes flags.subrectsColored) =
          (plain places).serialise := by
        rw [hflags, List.flatMap_map]
        rfl
      have hpainted : (plain places).paint tile (some colour) p =
          ((places.map (colour, ·)).foldlM (paintPlace tile) p).bind fun q => some (q, some colour) := by
        rw [List.foldlM_map]
        rfl
      obtain ⟨hsome, hnone⟩ := decodes_hextileSubrects_read flags _ hshows hwithin
        (fun entry hentry => (congrArg List.length (hentries entry hentry).1).trans hlength)
        (fun _ entry hentry => (hentries entry hentry).1.trans hcolour.symm)
        (fun entry hentry => (hentries entry hentry).2)
        (fun hraises => absurd ((hforeground.eq_nil_iff hbypp).mp hraises.2.2) (by simp)) a
      rw [hbytes, List.length_map] at hsome hnone
      rw [hpainted]
      constructor
      · intro p' foreground' hpaint
        obtain ⟨q, hq, hresult⟩ := Option.bind_eq_some_iff.mp hpaint
        obtain ⟨rfl, rfl⟩ := Prod.mk.inj (Option.some.inj hresult)
        obtain ⟨target', htarget, hshown, hwrites, hcovered⟩ := hsome q hq
        rw [hflags] at htarget
        exact ⟨_, htarget, hshown, hwrites, rfl, hforeground, hcovered⟩
      · intro hpaint
        refine hnone ?_
        cases hfold : (places.map (colour, ·)).foldlM (paintPlace tile) p with
        | none => rfl
        | some q => exact absurd hpaint (by simp [hfold])
/-! ## Tiles -/

/-- The count of the subrectangles, if there are any. -/
def countByte (subrects : Option TileSubrects) : Bytes :=
  match subrects with
  | none => []
  | some s => [UInt8.ofNat s.count]

/-- The subrectangles, if there are any. -/
def subrectBytes (subrects : Option TileSubrects) : Bytes :=
  match subrects with
  | none => []
  | some s => s.serialise

variable {background foreground : Option Bytes} {subrects : Option TileSubrects}
  {target₀ : RectBuffer} {st : HextileState} {carried : Carried}

theorem serialise_painted :
    (TileDescription.painted background foreground subrects).serialise =
      UInt8.ofNat (TileDescription.painted background foreground subrects).subencoding ::
        (background.getD [] ++ foreground.getD [] ++ countByte subrects ++
          subrectBytes subrects) := by
  cases subrects with
  | none => simp [TileDescription.serialise, countByte, subrectBytes]
  | some s => rfl

/-- The bits of a byte that is not of a raw tile. -/
theorem ofByte_bits (background foreground subrects coloured : Bool) :
    HextileFlags.ofByte ((if background then 2 else 0) + (if foreground then 4 else 0) +
        if subrects then (if coloured then 24 else 8) else 0) =
      ⟨false, background, foreground, subrects, subrects && coloured⟩ := by
  revert background foreground subrects coloured
  decide

/-- The decoder finds the flags that the sender set. -/
theorem ofByte_subencoding :
    HextileFlags.ofByte (TileDescription.painted background foreground subrects).subencoding =
      { raw := false
        backgroundSpecified := background.isSome
        foregroundSpecified := foreground.isSome
        anySubrects := subrects.isSome
        subrectsColored := (subrects.map TileSubrects.isColoured).getD false } := by
  rcases subrects with _ | _ | _
  · exact ofByte_bits background.isSome foreground.isSome false false
  · exact ofByte_bits background.isSome foreground.isSome true false
  · exact ofByte_bits background.isSome foreground.isSome true true

theorem length_getD {colour : Option Bytes} (h : ∀ c ∈ colour, c.length = bypp) :
    (colour.getD []).length = if colour.isSome then bypp else 0 := by
  cases colour with
  | none => rfl
  | some c => exact h c rfl

/-- A tile that is not raw, once its colours are read. -/
theorem decodes_hextileFill (htracks : Tracks target₀ st p carried) (hbypp : 1 ≤ target₀.bypp)
    (hwithin : Within tile target₀)
    (ht : (TileDescription.painted background foreground subrects).Encodable target₀.bypp tile)
    (a : DAttrs codecs S) :
    (∀ p' carried', (TileDescription.painted background foreground subrects).paint target₀.bypp
        (p, carried) tile = some (p', carried') → ∃ st' : HextileState,
      Decodes (hextileFill (HextileFlags.ofByte
        (TileDescription.painted background foreground subrects).subencoding) tile
        (background.getD [] ++ foreground.getD [] ++ countByte subrects) st) a
        (subrectBytes subrects) st' a ∧
      Tracks target₀ st' p' carried' ∧ st'.target.covered = true) ∧
    ((TileDescription.painted background foreground subrects).paint target₀.bypp
        (p, carried) tile = none →
      Refuses (hextileFill (HextileFlags.ofByte
        (TileDescription.painted background foreground subrects).subencoding) tile
        (background.getD [] ++ foreground.getD [] ++ countByte subrects) st) a
        (subrectBytes subrects)) := by
  obtain ⟨hbackground, hforeground, hsubrects⟩ := ht
  have hsame := htracks.writes.bypp
  have hholds := htracks.background.orElse hbackground
  have hholds' := htracks.foreground.orElse hforeground
  -- what the decoder cuts out of the block
  have htake : (if background.isSome then (background.getD [] ++ foreground.getD [] ++
      countByte subrects).take st.target.bypp else st.background) =
        if background.isSome then background.getD [] else st.background := by
    cases background with
    | none => rfl
    | some c =>
      rw [Option.getD_some, List.append_assoc, hsame]
      exact List.take_left' (hbackground c rfl)
  have hpos : (if background.isSome then st.target.bypp else 0) = (background.getD []).length := by
    rw [length_getD hbackground, hsame]
  have hdrop : (if foreground.isSome then ((background.getD [] ++ foreground.getD [] ++
      countByte subrects).drop (background.getD []).length).take st.target.bypp
      else st.foreground) =
        if foreground.isSome then foreground.getD [] else st.foreground := by
    cases foreground with
    | none => rfl
    | some c =>
      rw [Option.getD_some, List.append_assoc, List.drop_left, hsame]
      exact congrArg (ite _ · _) (List.take_left' (hforeground c rfl))
  have hpos' : (if foreground.isSome then (background.getD []).length + st.target.bypp
      else (background.getD []).length) = (background.getD [] ++ foreground.getD []).length := by
    rw [List.length_append, length_getD hforeground, hsame]
    split_ifs <;> rfl
  unfold hextileFill TileDescription.paint
  simp only [ofByte_subencoding, htake, hpos, hdrop, hpos']
  -- the colours the tile is painted in
  generalize hback : (if background.isSome then background.getD [] else st.background) = back at *
  generalize hfore : (if foreground.isSome then foreground.getD [] else st.foreground) = fore at *
  generalize (background <|> carried.background) = backAvailable at *
  generalize (foreground <|> carried.foreground) = foreAvailable at *
  cases backAvailable with
  | none =>
    rw [if_pos ((hholds.eq_nil_iff hbypp).mpr rfl)]
    exact ⟨fun p' carried' hpaint => absurd hpaint (by simp), fun _ => refuses_raise _ a _⟩
  | some colour =>
    obtain rfl : back = colour := hholds.eq
    have hlength := hholds.length back rfl
    rw [if_neg fun hnil => absurd ((hholds.eq_nil_iff hbypp).mp hnil) (by simp)]
    have hinside : st.target.Inside tile.x tile.y tile.width tile.height := by
      obtain ⟨hright, hbottom⟩ := hwithin.writes htracks.writes
      unfold RectBuffer.Inside
      omega
    obtain ⟨target, hfill⟩ := (RectBuffer.fill_succeeds_iff st.target _ _ _ _ back).1
      ⟨hinside, hlength.trans hsame.symm⟩
    obtain ⟨hshown, hcovered, hwrites⟩ := RectBuffer.shows_fill htracks.shows hfill
    simp only [Int.toNat_natCast] at hshown
    have hfilled := decodes_ofExcept (S := S) hfill a
    have hwrites₀ := htracks.writes.trans hwrites
    cases subrects with
    | none =>
      refine ⟨fun p' carried' hpaint => ?_, fun hpaint => absurd hpaint (by simp)⟩
      obtain ⟨rfl, rfl⟩ := Prod.mk.inj (Option.some.inj hpaint)
      exact ⟨⟨target, back, fore⟩, hfilled.bind_nil (Consumes.pure _ a),
        ⟨hshown, hwrites₀, ⟨rfl, hholds.length⟩, hholds'⟩, hcovered⟩
    | some s =>
      have hs := hsubrects s rfl
      have hcount : byteAt (background.getD [] ++ foreground.getD [] ++ countByte (some s))
          (background.getD [] ++ foreground.getD []).length = s.count := by
        have hcounted : s.count ≤ 255 := by cases s <;> exact hs.1
        exact (byteAt_append_right _ _ 0).trans (byteAt_ofNat (by omega) [])
      rw [hcount]
      rw [← hwrites₀.bypp] at hbypp hs hholds'
      obtain ⟨hsome, hnone⟩ := decodes_hextileSubrects
        ⟨false, background.isSome, foreground.isSome, true, s.isColoured⟩ ⟨target, back, fore⟩
        hshown (hwithin.writes hwrites₀) hbypp hholds' hs rfl a
      constructor
      · intro p' carried' hpaint
        have hsubs : ((s.paint tile foreAvailable
            (overlay p tile.x tile.y tile.width tile.height fun _ _ => back)).bind fun q =>
              some (q.1, (⟨some back, q.2⟩ : Carried))) = some (p', carried') := hpaint
        obtain ⟨⟨q, foreground'⟩, hq, hresult⟩ := Option.bind_eq_some_iff.mp hsubs
        obtain ⟨rfl, rfl⟩ := Prod.mk.inj (Option.some.inj hresult)
        obtain ⟨st', hdecodes, hshown', hwrites', hback', hfore', hcovered'⟩ := hsome q foreground' hq
        refine ⟨st', hfilled.bind_nil hdecodes, ⟨hshown', hwrites₀.trans hwrites', ?_, ?_⟩,
          hcovered' hcovered⟩
        · exact ⟨hback', hholds.length⟩
        · rwa [← hwrites₀.bypp]
      · intro hpaint
        refine Rejects.bind_nil hfilled (hnone ?_)
        cases hq : s.paint tile foreAvailable
            (overlay p tile.x tile.y tile.width tile.height fun _ _ => back) with
        | none => rfl
        | some q => exact absurd hpaint (by simp [hq])
theorem subencoding_lt (t : TileDescription) : t.subencoding < 256 := by
  rcases t with _ | ⟨background, foreground, _ | _ | _⟩
  · exact Nat.one_lt_succ_succ 254
  all_goals
    unfold TileDescription.subencoding
    dsimp only
    split_ifs <;> omega

/-- As many bytes follow the subencoding as the flags say. -/
theorem wanted_subencoding
    (ht : (TileDescription.painted background foreground subrects).Encodable bypp tile) :
    (HextileFlags.ofByte (TileDescription.painted background foreground
      subrects).subencoding).wanted bypp =
      (background.getD [] ++ foreground.getD [] ++ countByte subrects).length := by
  rw [ofByte_subencoding, List.length_append, List.length_append, length_getD ht.1,
    length_getD ht.2.1]
  cases subrects <;> rfl

/-- A read that is left out where nothing is to be read. -/
theorem decodes_readIfAny {α : Type} {n : ℕ} {block input : Bytes}
    {f : Bytes → Gen (Decoding codecs) S α} {v : α} {a a' : DAttrs codecs S}
    (h : block.length = n) (hf : Decodes (f block) a input v a') :
    Decodes (if n = 0 then f [] else Gen.read n >>= fun b => f b.bytes) a (block ++ input) v a' := by
  split_ifs with hzero
  · rw [List.length_eq_zero_iff.mp (h.trans hzero)] at hf ⊢
    exact hf
  · exact decodes_read_bind h hf

theorem refuses_readIfAny {α : Type} {n : ℕ} {block input : Bytes}
    {f : Bytes → Gen (Decoding codecs) S α} {a : DAttrs codecs S} (h : block.length = n)
    (hf : Refuses (f block) a input) :
    Refuses (if n = 0 then f [] else Gen.read n >>= fun b => f b.bytes) a (block ++ input) := by
  split_ifs with hzero
  · rw [List.length_eq_zero_iff.mp (h.trans hzero)] at hf ⊢
    exact hf
  · exact refuses_read_bind h hf

/-- One tile. -/
theorem decodes_hextileTile {t : TileDescription} (htracks : Tracks target₀ st p carried)
    (hbypp : 1 ≤ target₀.bypp) (hwithin : Within tile target₀)
    (ht : t.Encodable target₀.bypp tile) (a : DAttrs codecs S) :
    (∀ p' carried', t.paint target₀.bypp (p, carried) tile = some (p', carried') →
      ∃ st' : HextileState, Decodes (hextileTile st tile) a t.serialise st' a ∧
        Tracks target₀ st' p' carried' ∧ st'.target.covered = true) ∧
    (t.paint target₀.bypp (p, carried) tile = none →
      Refuses (hextileTile st tile) a t.serialise) := by
  cases t with
  | raw pixels =>
    refine ⟨fun p' carried' hpaint => ?_, fun hpaint => absurd hpaint (by simp
      [TileDescription.paint])⟩
    obtain ⟨rfl, rfl⟩ := Prod.mk.inj (Option.some.inj hpaint)
    have hsame := htracks.writes.bypp
    have hlength : pixels.length = tile.width * tile.height * st.target.bypp := by
      rw [hsame]
      exact ht
    -- A raw tile is pasted whole, and drops both colours.
    have hinside : st.target.Inside tile.x tile.y tile.width tile.height := by
      obtain ⟨hright, hbottom⟩ := hwithin.writes htracks.writes
      unfold RectBuffer.Inside
      omega
    obtain ⟨target, hblit⟩ := (RectBuffer.blit_succeeds_iff st.target _ _ _ _ pixels).1
      ⟨hinside, hlength⟩
    obtain ⟨hshown, hcovered, hwrites⟩ := RectBuffer.shows_blit htracks.shows hblit
    simp only [Int.toNat_natCast, hsame] at hshown
    refine ⟨⟨target, [], []⟩, ?_, ⟨hshown, htracks.writes.trans hwrites, ⟨rfl, by simp⟩,
      ⟨rfl, by simp⟩⟩, hcovered⟩
    have hpixels : Decodes (do
        let pixels ← Gen.read (tile.width * tile.height * st.target.bypp)
        let target ← Gen.lift (RFBClient.ofExcept
          (st.target.blit tile.x tile.y tile.width tile.height pixels.bytes))
        pure (⟨target, [], []⟩ : HextileState)) a (pixels ++ []) ⟨target, [], []⟩ a :=
      decodes_read_bind hlength (decodes_ofExcept_bind hblit (Consumes.pure _ a))
    rw [List.append_nil] at hpixels
    exact decodes_read_bind (b := [UInt8.ofNat 1]) rfl hpixels
  | painted background foreground subrects =>
    obtain ⟨hsome, hnone⟩ := decodes_hextileFill htracks hbypp hwithin ht a
    have hwanted := wanted_subencoding ht
    rw [← htracks.writes.bypp] at hwanted
    have hbyte : byteAt (Block.of (n := 1) [UInt8.ofNat (TileDescription.painted background
        foreground subrects).subencoding] rfl).bytes 0 =
          (TileDescription.painted background foreground subrects).subencoding :=
      byteAt_ofNat (subencoding_lt _) []
    -- The subencoding of a painted tile never has the raw bit.
    have hraw : ¬(HextileFlags.ofByte (TileDescription.painted background foreground
        subrects).subencoding).raw = true := by
      rw [ofByte_subencoding]
      exact Bool.false_ne_true
    rw [serialise_painted]
    unfold hextileTile
    constructor
    · intro p' carried' hpaint
      obtain ⟨st', hdecodes, htracks'⟩ := hsome p' carried' hpaint
      refine ⟨st', decodes_read_bind (b := [UInt8.ofNat _]) rfl ?_, htracks'⟩
      dsimp only
      generalize byteAt (Block.of [UInt8.ofNat _] _).bytes 0 = n at hbyte ⊢
      subst hbyte
      rw [if_neg hraw]
      exact decodes_readIfAny (f := fun block => hextileFill _ tile block st) hwanted.symm hdecodes
    · intro hpaint
      refine refuses_read_bind (b := [UInt8.ofNat _]) rfl ?_
      dsimp only
      generalize byteAt (Block.of [UInt8.ofNat _] _).bytes 0 = n at hbyte ⊢
      subst hbyte
      rw [if_neg hraw]
      exact refuses_readIfAny (f := fun block => hextileFill _ tile block st) hwanted.symm
        (hnone hpaint)

/-! ## Rectangles -/

/-- The tiles of a rectangle, one after the other. -/
theorem decodes_hextileTiles {places : List Rect} {descriptions : List TileDescription}
    (hbypp : 1 ≤ target₀.bypp) (hwithin : ∀ tile ∈ places, Within tile target₀)
    (hdescriptions : List.Forall₂ (fun tile t => TileDescription.Encodable target₀.bypp tile t)
      places descriptions) (htracks : Tracks target₀ st p carried) (a : DAttrs codecs S) :
    (∀ p' carried', (places.zip descriptions).foldlM
        (fun st (tile, t) => TileDescription.paint target₀.bypp st tile t) (p, carried) =
          some (p', carried') →
      ∃ st' : HextileState, Decodes (places.foldlM hextileTile st) a
        (descriptions.flatMap TileDescription.serialise) st' a ∧ Tracks target₀ st' p' carried' ∧
          (places ≠ [] ∨ st.target.covered = true → st'.target.covered = true)) ∧
    ((places.zip descriptions).foldlM
        (fun st (tile, t) => TileDescription.paint target₀.bypp st tile t) (p, carried) = none →
      Refuses (places.foldlM hextileTile st) a
        (descriptions.flatMap TileDescription.serialise)) := by
  induction hdescriptions generalizing st p carried with
  | nil =>
    refine ⟨fun p' carried' hpaint => ?_, fun hpaint => absurd hpaint (by simp)⟩
    obtain ⟨rfl, rfl⟩ := Prod.mk.inj (Option.some.inj hpaint)
    exact ⟨st, Consumes.pure st a, htracks, fun hor => hor.resolve_left (by simp)⟩
  | @cons tile t places descriptions ht hrest ih =>
    obtain ⟨hsome, hnone⟩ := decodes_hextileTile htracks hbypp
      (hwithin tile List.mem_cons_self) ht a
    rw [List.zip_cons_cons, List.foldlM_cons, List.flatMap_cons]
    dsimp only
    -- The first tile that cannot be painted is refused there; the bytes behind it are not read.
    cases hpaint : t.paint target₀.bypp (p, carried) tile with
    | none =>
      refine ⟨fun p' carried' hfold => absurd hfold (by simp), fun _ => ?_⟩
      exact Rejects.foldlM_head ((hnone hpaint).append _)
    | some painted =>
      obtain ⟨q, carried₁⟩ := painted
      obtain ⟨st₁, hfirst, htracks₁, hcovered₁⟩ := hsome q carried₁ hpaint
      obtain ⟨hsome', hnone'⟩ :=
        ih (fun tile htile => hwithin tile (List.mem_cons_of_mem _ htile)) htracks₁
      refine ⟨fun p' carried' hfold => ?_, fun hfold => ?_⟩
      · obtain ⟨st', hdecodes, htracks', hcovered'⟩ := hsome' p' carried' hfold
        exact ⟨st', Consumes.foldlM_cons hfirst hdecodes, htracks',
          fun _ => hcovered' (.inr hcovered₁)⟩
      · exact Rejects.foldlM_cons hfirst (hnone' hfold)

/-- A rectangle that is not empty has a tile. -/
theorem tiles_ne_nil {size width height : ℕ} (hsize : 0 < size) (hwidth : 0 < width)
    (hheight : 0 < height) : tiles size width height ≠ [] := by
  have hzero : ∀ limit, 0 < limit → 0 ∈ steps size limit := by
    intro limit hlimit
    refine List.mem_map.mpr ⟨0, List.mem_range.mpr ?_, Nat.mul_zero size⟩
    exact Nat.div_pos (by omega) hsize
  refine List.ne_nil_of_mem (a := ⟨0, 0, min size (width - 0), min size (height - 0)⟩) ?_
  refine List.mem_flatMap.mpr ⟨0, hzero height hheight, ?_⟩
  exact List.mem_map.mpr ⟨0, hzero width hwidth, rfl⟩

/-- A buffer that is covered unless it is empty holds its picture. -/
theorem tobytes_of_covered {target : RectBuffer} (hshows : target.Shows p)
    (hcovered : 0 < target.width → 0 < target.height → target.covered = true) :
    target.tobytes = render target.width target.height p := by
  by_cases hempty : 0 < target.width ∧ 0 < target.height
  · exact hshows.tobytes (hcovered hempty.1 hempty.2)
  · have hnone : target.width * target.height = 0 := by
      rcases Nat.eq_zero_or_pos target.width with hzero | hwidth
      · rw [hzero, Nat.zero_mul]
      · rw [Nat.eq_zero_of_not_pos fun hheight => hempty ⟨hwidth, hheight⟩, Nat.mul_zero]
    have hleft : target.tobytes.length = 0 := by
      rw [RectBuffer.length_tobytes hshows.valid, RectBuffer.nbytes, hnone, Nat.zero_mul]
    have hright : (render target.width target.height p).length = 0 := by
      rw [Raster.length_render hshows.sized, hnone, Nat.zero_mul]
    rw [List.length_eq_zero_iff.mp hleft, List.length_eq_zero_iff.mp hright]

/-- Fed the bytes of its tiles, the decoder takes exactly those and fills the rectangle with what the
tiles paint; where a tile cannot be painted, it raises a `DecodeError`. -/
theorem hextile_decodes {width height bypp : ℕ} {backing : Bytes} {target : RectBuffer}
    (hcreate : RectBuffer.create width height bypp backing = .ok target) (hbypp : 1 ≤ bypp)
    {descriptions : List TileDescription}
    (hdescriptions : List.Forall₂ (fun tile t => TileDescription.Encodable bypp tile t)
      (tiles hextileTileSize width height) descriptions)
    (pixelFormat : PixelFormat) (a : DAttrs codecs S) :
    (∀ p, hextilePaint bypp width height descriptions = some p → ∃ target',
      Decodes (hextileDecodePixels target pixelFormat) a
        (descriptions.flatMap TileDescription.serialise) target' a ∧
      target'.tobytes = render width height p) ∧
    (hextilePaint bypp width height descriptions = none →
      Refuses (hextileDecodePixels target pixelFormat) a
        (descriptions.flatMap TileDescription.serialise)) := by
  have hroom : width * height * bypp ≤ backing.length := by
    by_contra hsmall
    unfold RectBuffer.create at hcreate
    rw [if_pos (Nat.not_le.mp hsmall)] at hcreate
    exact absurd hcreate (by simp)
  obtain ⟨hcreated, hblank⟩ := RectBuffer.shows_create hroom
  obtain rfl := Except.ok.inj (hcreated.symm.trans hcreate)
  have htracks : Tracks { width, height, bypp, backing } ⟨{ width, height, bypp, backing }, [], []⟩
      (RectBuffer.blank bypp) {} :=
    ⟨hblank, RectBuffer.Writes.refl _, ⟨rfl, by simp⟩, ⟨rfl, by simp⟩⟩
  have hwithin : ∀ tile ∈ tiles hextileTileSize width height,
      Within tile { width, height, bypp, backing } := by
    intro tile htile
    obtain ⟨hright, hbottom⟩ := within_of_mem_tiles (by decide) htile
    exact ⟨hright, hbottom⟩
  obtain ⟨hsome, hnone⟩ := decodes_hextileTiles hbypp hwithin hdescriptions htracks a
  constructor
  · intro p hpaint
    obtain ⟨⟨q, carried⟩, hfold, hresult⟩ := Option.bind_eq_some_iff.mp hpaint
    obtain rfl := Option.some.inj hresult
    obtain ⟨st', hdecodes, htracks', hcovered⟩ := hsome q carried hfold
    refine ⟨st'.target, hdecodes.bind_pure (Consumes.pure _ a), ?_⟩
    have hwidth := htracks'.writes.width
    have hheight := htracks'.writes.height
    rw [tobytes_of_covered htracks'.shows, hwidth, hheight]
    intro hw hh
    rw [hwidth] at hw
    rw [hheight] at hh
    exact hcovered (.inl (tiles_ne_nil (by decide) hw hh))
  · intro hpaint
    refine (hnone ?_).bind_left
    unfold hextilePaint at hpaint
    cases hfold : ((tiles hextileTileSize width height).zip descriptions).foldlM
        (fun st (tile, t) => TileDescription.paint bypp st tile t)
        (RectBuffer.blank bypp, ({} : Carried)) with
    | none => rfl
    | some painted => exact absurd hpaint (by simp [hfold])
/-- Two tiles, the second in the colours of the first; and a tile that has none to use. -/
abbrev carriedTiles : List TileDescription :=
  [.painted (some [5]) (some [7]) (some (.plain [⟨2, 0, 3, 1⟩])),
    .painted none none (some (.plain [⟨0, 0, 1, 1⟩]))]

abbrev colourlessTiles : List TileDescription :=
  [.raw (List.replicate 16 1), .painted none none none]

/-- A second tile on the background and the foreground of the first; behind a Raw tile there are none to
carry over. -/
theorem hextile_decodes_carried :
    let target : RectBuffer := ⟨17, 1, 1, List.replicate 20 9, none, false⟩
    let a : DAttrs sampleCodecs Unit := { factory := {}, decoding := {}, own := () }
    (∃ target', Decodes (hextileDecodePixels target {}) a
      [14, 5, 7, 1, 32, 32, 8, 1, 0, 0] target' a ∧
      target'.tobytes = [5, 5, 7, 7, 7, 5, 5, 5, 5, 5, 5, 5, 5, 5, 5, 5, 7]) ∧
    Refuses (hextileDecodePixels target {}) a (1 :: List.replicate 16 1 ++ [0]) := by
  have hcreate : RectBuffer.create 17 1 1 (List.replicate 20 9) =
      .ok ⟨17, 1, 1, List.replicate 20 9, none, false⟩ := rfl
  have hplaces : tiles hextileTileSize 17 1 = [⟨0, 0, 16, 1⟩, ⟨16, 0, 1, 1⟩] := by decide
  have hcarried : List.Forall₂ (fun tile t => TileDescription.Encodable 1 tile t)
      (tiles hextileTileSize 17 1) carriedTiles := by
    rw [hplaces]
    refine .cons ⟨by simp, by simp, ?_⟩ (.cons ⟨by simp, by simp, ?_⟩ .nil)
    · rintro _ ⟨rfl⟩
      refine ⟨by decide, fun place hplace => ?_⟩
      obtain rfl := List.mem_singleton.mp hplace
      exact ⟨by decide, by decide, by decide, by decide⟩
    · rintro _ ⟨rfl⟩
      refine ⟨by decide, fun place hplace => ?_⟩
      obtain rfl := List.mem_singleton.mp hplace
      exact ⟨by decide, by decide, by decide, by decide⟩
  have hcolourless : List.Forall₂ (fun tile t => TileDescription.Encodable 1 tile t)
      (tiles hextileTileSize 17 1) colourlessTiles := by
    rw [hplaces]
    exact .cons (by rfl) (.cons ⟨by simp, by simp, by simp⟩ .nil)
  refine ⟨?_, (hextile_decodes hcreate (by decide) hcolourless {} _).2 ?_⟩
  · have hdecodes := (hextile_decodes hcreate (by decide) hcarried {}
      ({ factory := {}, decoding := {}, own := () } : DAttrs sampleCodecs Unit)).1
    obtain ⟨target', htarget, htobytes⟩ := hdecodes _ rfl
    exact ⟨target', htarget, htobytes.trans rfl⟩
  · rfl

end Decoders

end VncDoTool
