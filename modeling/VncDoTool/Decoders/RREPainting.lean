import VncDoTool.Decoders.Feeding
import VncDoTool.Decoders.Picture
import VncDoTool.Decoders.Simple

/-!
# What RRE and CoRRE paint

An RRE rectangle as its sender describes it, the bytes that describe it, and the picture it comes to.

* `SubrectForm`: how a subrectangle's place and size are written; `rreForm` and `corReForm`.
* `RREDescription`: a background and subrectangles over it, later ones over earlier ones.
* `Step.TakesAtMost`: how many bytes a decoder waits for in all.
* `Decoders.rre_decodes`: the decoder takes exactly the bytes of a rectangle and paints what they
  describe, or raises a `DecodeError`.
-/

namespace VncDoTool

open Raster (Picture render overlay)

/-- How the place and the size of a subrectangle are written: four numbers below a limit. -/
structure SubrectForm extends Decoders.Coords where
  limit : ℕ
  pack : Rect → Bytes
  length_pack : ∀ r, (pack r).length = size
  unpack_pack : ∀ r, r.x < limit → r.y < limit → r.width < limit → r.height < limit →
    unpack (pack r) = r
  size_le : size ≤ 8

/-- RRE: numbers of 16 bits. -/
def rreForm : SubrectForm where
  toCoords := Decoders.rreCoords
  limit := 65536
  pack r := be16 r.x ++ (be16 r.y ++ (be16 r.width ++ be16 r.height))
  length_pack _ := rfl
  unpack_pack r hx hy hw hh := by
    obtain ⟨x, y, w, h⟩ := r
    have hlast : u16At (be16 h) 0 = h := by
      have hread := u16At_be16 hh []
      rwa [List.append_nil] at hread
    show (⟨u16At (be16 x ++ _) 0, u16At (be16 x ++ _) 2, u16At (be16 x ++ _) 4,
      u16At (be16 x ++ _) 6⟩ : Rect) = _
    rw [u16At_be16 hx, u16At_be16_append _ 0, u16At_be16 hy, u16At_be16_append _ 2,
      u16At_be16_append _ 0, u16At_be16 hw, u16At_be16_append _ 4, u16At_be16_append _ 2,
      u16At_be16_append _ 0, hlast]
  size_le := Nat.le_refl 8

/-- CoRRE: numbers of eight bits. -/
def corReForm : SubrectForm where
  toCoords := Decoders.corReCoords
  limit := 256
  pack r := [UInt8.ofNat r.x, UInt8.ofNat r.y, UInt8.ofNat r.width, UInt8.ofNat r.height]
  length_pack _ := rfl
  unpack_pack r hx hy hw hh := by
    obtain ⟨x, y, w, h⟩ := r
    show (⟨byteAt (UInt8.ofNat x :: [UInt8.ofNat y, UInt8.ofNat w, UInt8.ofNat h]) 0,
      byteAt (UInt8.ofNat y :: [UInt8.ofNat w, UInt8.ofNat h]) 0,
      byteAt (UInt8.ofNat w :: [UInt8.ofNat h]) 0, byteAt (UInt8.ofNat h :: []) 0⟩ : Rect) = _
    rw [byteAt_ofNat hx, byteAt_ofNat hy, byteAt_ofNat hw, byteAt_ofNat hh]
  size_le := by decide

/-- A rectangle, as its sender describes it. -/
structure RREDescription : Type where
  background : Bytes
  /-- The subrectangles with their colours, in the order of the wire. -/
  subrects : List (Bytes × Rect)

namespace RREDescription

/-- The description can be written: each colour has the bytes of a pixel and each number fits. -/
structure Encodable (form : SubrectForm) (bypp : ℕ) (d : RREDescription) : Prop where
  background : d.background.length = bypp
  count : d.subrects.length < 4294967296
  colours : ∀ entry ∈ d.subrects, entry.1.length = bypp
  numbers : ∀ entry ∈ d.subrects, entry.2.x < form.limit ∧ entry.2.y < form.limit ∧
    entry.2.width < form.limit ∧ entry.2.height < form.limit

/-- A subrectangle lies in the rectangle. -/
def Lies (width height : ℕ) (r : Rect) : Prop := r.x + r.width ≤ width ∧ r.y + r.height ≤ height

instance (width height : ℕ) (r : Rect) : Decidable (Lies width height r) :=
  inferInstanceAs (Decidable (_ ∧ _))

/-- There are no more subrectangles than pixels, and all lie in the rectangle. -/
def Fits (width height : ℕ) (d : RREDescription) : Prop :=
  d.subrects.length ≤ width * height ∧ ∀ entry ∈ d.subrects, Lies width height entry.2

/-- The bytes of a subrectangle. -/
def entryWire (form : SubrectForm) (entry : Bytes × Rect) : Bytes := entry.1 ++ form.pack entry.2

/-- The bytes of a rectangle. -/
def serialise (form : SubrectForm) (d : RREDescription) : Bytes :=
  (be32 d.subrects.length ++ d.background) ++ d.subrects.flatMap (entryWire form)

/-- Lay a subrectangle over a picture. -/
def paintEntry (p : Picture UInt8) (entry : Bytes × Rect) : Picture UInt8 :=
  overlay p entry.2.x entry.2.y entry.2.width entry.2.height fun _ _ => entry.1

/-- The background, and the subrectangles over it one after the other. -/
def paint (d : RREDescription) : Picture UInt8 :=
  d.subrects.foldl paintEntry fun _ _ => d.background

/-- Pictures that agree somewhere agree there after the same subrectangles. -/
theorem paintEntries_congr {entries : List (Bytes × Rect)} {p q : Picture UInt8} {x y : ℕ}
    (hsame : p x y = q x y) : entries.foldl paintEntry p x y = entries.foldl paintEntry q x y := by
  induction entries generalizing p q with
  | nil => exact hsame
  | cons entry entries ih =>
    apply ih
    unfold paintEntry overlay
    split_ifs
    · rfl
    · exact hsame

end RREDescription

namespace Decoders

open RFBClient Coroutine RREDescription

variable {codecs : Codecs} {S : Type} {form : SubrectForm} {target target' : RectBuffer}
  {p : Picture UInt8}

/-! ## Painting -/

/-- A subrectangle is painted where it lies in the rectangle. -/
theorem paintSubrect_entryWire {entry : Bytes × Rect} (hcolour : entry.1.length = target.bypp)
    (hnumbers : entry.2.x < form.limit ∧ entry.2.y < form.limit ∧ entry.2.width < form.limit ∧
      entry.2.height < form.limit) :
    (Lies target.width target.height entry.2 →
      ∃ target', paintSubrect form.toCoords target (entryWire form entry) = .ok target') ∧
    (¬Lies target.width target.height entry.2 → ∃ text,
      paintSubrect form.toCoords target (entryWire form entry) = .error ⟨.decodeError, text⟩) ∧
    (∀ target', paintSubrect form.toCoords target (entryWire form entry) = .ok target' →
      target.Shows p → target'.Shows (paintEntry p entry) ∧ target'.covered = true ∧
        target.Writes target') := by
  obtain ⟨hx, hy, hw, hh⟩ := hnumbers
  have hpaint : paintSubrect form.toCoords target (entryWire form entry) =
      target.fill entry.2.x entry.2.y entry.2.width entry.2.height entry.1 := by
    unfold paintSubrect entryWire
    rw [List.drop_left' hcolour, List.take_left' hcolour, form.unpack_pack _ hx hy hw hh]
  have hinside : target.Inside entry.2.x entry.2.y entry.2.width entry.2.height ↔
      Lies target.width target.height entry.2 := by
    unfold RectBuffer.Inside Lies
    omega
  obtain ⟨hsucceeds, hfails⟩ := RectBuffer.fill_succeeds_iff target entry.2.x entry.2.y
    entry.2.width entry.2.height entry.1
  rw [hpaint]
  refine ⟨fun hlies => hsucceeds ⟨hinside.mpr hlies, hcolour⟩,
    fun hleaves => hfails fun hboth => hleaves (hinside.mp hboth.1), ?_⟩
  exact fun target' hfill hshows => RectBuffer.shows_fill hshows hfill

/-- The subrectangles, one after the other. -/
theorem decodes_entries (form : SubrectForm) {entries : List (Bytes × Rect)} (hshows : target.Shows p)
    (hcolours : ∀ entry ∈ entries, entry.1.length = target.bypp)
    (hnumbers : ∀ entry ∈ entries, entry.2.x < form.limit ∧ entry.2.y < form.limit ∧
      entry.2.width < form.limit ∧ entry.2.height < form.limit) (a : DAttrs codecs S) :
    ((∀ entry ∈ entries, Lies target.width target.height entry.2) → ∃ target',
      Decodes (entries.foldlM (fun target entry => Gen.lift (RFBClient.ofExcept
        (paintSubrect form.toCoords target (entryWire form entry)))) target) a [] target' a ∧
      target'.Shows (entries.foldl paintEntry p) ∧ target.Writes target' ∧
        (target.covered = true → target'.covered = true)) ∧
    ((¬∀ entry ∈ entries, Lies target.width target.height entry.2) →
      Refuses (entries.foldlM (fun target entry => Gen.lift (RFBClient.ofExcept
        (paintSubrect form.toCoords target (entryWire form entry)))) target) a []) := by
  induction entries generalizing target p with
  | nil =>
    refine ⟨fun _ => ⟨target, Consumes.pure target a, hshows, RectBuffer.Writes.refl target, id⟩, ?_⟩
    exact fun hleaves => absurd (fun entry hentry => absurd hentry List.not_mem_nil) hleaves
  | cons entry entries ih =>
    obtain ⟨hpaints, hfails, hshown⟩ := paintSubrect_entryWire (p := p)
      (hcolours entry List.mem_cons_self) (hnumbers entry List.mem_cons_self)
    by_cases hlies : Lies target.width target.height entry.2
    · -- it is painted, and then the others are
      obtain ⟨target', hpaint⟩ := hpaints hlies
      obtain ⟨hshows', hcovered', hwrites'⟩ := hshown target' hpaint hshows
      have hfirst := decodes_ofExcept (S := S) hpaint a
      obtain ⟨hrest, hfail⟩ := ih hshows'
        (fun e he => (hcolours e (List.mem_cons_of_mem entry he)).trans hwrites'.bypp.symm)
        (fun e he => hnumbers e (List.mem_cons_of_mem entry he))
      rw [hwrites'.width, hwrites'.height] at hrest hfail
      constructor
      · intro hall
        obtain ⟨target'', hdecodes, hshows'', hwrites'', hcovered''⟩ :=
          hrest fun e he => hall e (List.mem_cons_of_mem entry he)
        exact ⟨target'', Consumes.foldlM_cons hfirst hdecodes, hshows'', hwrites'.trans hwrites'',
          fun _ => hcovered'' hcovered'⟩
      · intro hleaves
        refine Rejects.foldlM_cons hfirst (hfail fun hall => hleaves ?_)
        exact List.forall_mem_cons.mpr ⟨hlies, hall⟩
    · obtain ⟨text, herror⟩ := hfails hlies
      refine ⟨fun hall => absurd (hall entry List.mem_cons_self) hlies, fun _ => ?_⟩
      exact Rejects.foldlM_head (refuses_ofExcept herror a [])

/-- The decoder cuts the bytes of the subrectangles apart again. -/
theorem foldlM_entries (codecs : Codecs) (S : Type) (form : SubrectForm) (target : RectBuffer)
    {entries : List (Bytes × Rect)} {bypp : ℕ}
    (hcolours : ∀ entry ∈ entries, entry.1.length = bypp) :
    (entries.flatMap (entryWire form)).length = (bypp + form.size) * entries.length ∧
    (List.range entries.length).foldlM (fun target i => (Gen.lift (RFBClient.ofExcept
      (paintSubrect form.toCoords target (((entries.flatMap (entryWire form)).drop
        (i * (bypp + form.size))).take (bypp + form.size)))) :
          Gen (Decoding codecs) S RectBuffer)) target =
    entries.foldlM (fun target entry => Gen.lift (RFBClient.ofExcept
      (paintSubrect form.toCoords target (entryWire form entry)))) target := by
  have hsize : ∀ entry ∈ entries, (entryWire form entry).length = bypp + form.size := by
    intro entry hentry
    rw [entryWire, List.length_append, hcolours entry hentry, form.length_pack]
  refine ⟨by rw [Raster.length_flatMap hsize, Nat.mul_comm], ?_⟩
  rw [← List.foldlM_map (f := entryWire form) (g := fun target piece => (Gen.lift
      (RFBClient.ofExcept (paintSubrect form.toCoords target piece)) :
        Gen (Decoding codecs) S RectBuffer)),
    ← Raster.pieces_flatMap hsize, List.foldlM_map]

/-! ## Waiting -/

/-- All the requests of a run together take no more than `limit` bytes, whatever the bytes are. -/
def TakesAtMost {α : Type} : ℕ → GenStep (Decoding codecs) S α → Prop
  | _, .done _ _ => True
  | _, .failed _ _ => True
  | limit, .yielded _ (.bytes n) resume =>
    n ≤ limit ∧ ∀ block s, TakesAtMost (limit - n.toNat) (resume block s)
  | _, .yielded _ .packet _ => False

/-- A loop of calls waits for nothing. -/
theorem takesAtMost_foldlM {α β : Type} (f : α → β → Except PyErr α) (xs : List β) (x : α)
    (limit : ℕ) (a : DAttrs codecs S) :
    TakesAtMost limit ((xs.foldlM (fun x y => (Gen.lift (RFBClient.ofExcept (f x y)) :
      Gen (Decoding codecs) S α)) x).run a) := by
  induction xs generalizing x with
  | nil => trivial
  | cons y xs ih =>
    rw [List.foldlM_cons, run_bind]
    cases hf : f x y with
    | error e => trivial
    | ok x' => exact ih x'

/-- The subrectangles take no more bytes than as many of them as there are pixels. -/
theorem takesAtMost_rreDecodePixels (form : SubrectForm) (hshows : target.Shows p)
    (pixelFormat : PixelFormat) (a : DAttrs codecs S) :
    ∃ resume, (rreDecodePixels form.toCoords target pixelFormat).run a =
        .yielded a (.bytes (4 + target.bypp : ℕ)) resume ∧
      ∀ header s, TakesAtMost (target.width * target.height * (target.bypp + 8))
        (resume header s) := by
  refine ⟨_, rfl, fun header s => ?_⟩
  show TakesAtMost _ (Coroutine.run (Gen.lift (RFBClient.ofExcept (target.fill 0 0 target.width
    target.height (header.bytes.drop 4))) >>= _) s)
  rw [run_bind]
  cases hfill : target.fill 0 0 target.width target.height (header.bytes.drop 4) with
  | error e => trivial
  | ok filled =>
    obtain ⟨-, -, hwrites⟩ := RectBuffer.shows_fill hshows hfill
    show TakesAtMost _ (Coroutine.run (if u32At header.bytes 0 = 0 then _ else _) s)
    split_ifs with hzero hmany
    · trivial
    · trivial
    · rw [hwrites.width, hwrites.height] at hmany
      refine ⟨?_, fun block t => takesAtMost_foldlM _ _ _ _ t⟩
      have hsize : target.bypp + form.size ≤ target.bypp + 8 := Nat.add_le_add_left form.size_le _
      have hbound := Nat.mul_le_mul hsize (Nat.not_lt.mp hmany)
      rw [Nat.mul_comm (target.bypp + 8)] at hbound
      exact Int.ofNat_le.mpr hbound

/-! ## Rectangles -/

/-- Fed the bytes of a rectangle, the decoder takes exactly those and fills the rectangle with what
they describe, or it raises a `DecodeError`, where there are more subrectangles than pixels or one of
them leaves the rectangle. After the header it waits for no more than as many subrectangles as there
are pixels. -/
theorem rre_decodes (form : SubrectForm) {width height bypp : ℕ} {backing : Bytes}
    {target : RectBuffer} (hcreate : RectBuffer.create width height bypp backing = .ok target)
    {d : RREDescription} (hd : d.Encodable form bypp) (pixelFormat : PixelFormat)
    (a : DAttrs codecs S) :
    (d.Fits width height → ∃ target',
      Decodes (rreDecodePixels form.toCoords target pixelFormat) a (d.serialise form) target' a ∧
      target'.tobytes = render width height d.paint) ∧
    (¬d.Fits width height →
      Refuses (rreDecodePixels form.toCoords target pixelFormat) a (d.serialise form)) ∧
    ∃ resume, (rreDecodePixels form.toCoords target pixelFormat).run a =
        .yielded a (.bytes (4 + bypp : ℕ)) resume ∧
      ∀ header s, TakesAtMost (width * height * (bypp + 8)) (resume header s) := by
  have hroom : width * height * bypp ≤ backing.length := by
    by_contra hsmall
    unfold RectBuffer.create at hcreate
    rw [if_pos (Nat.not_le.mp hsmall)] at hcreate
    exact absurd hcreate (by simp)
  obtain ⟨hcreated, hblank⟩ := RectBuffer.shows_create hroom
  obtain rfl := Except.ok.inj (hcreated.symm.trans hcreate)
  -- the background
  have hinside : ({ width, height, bypp, backing } : RectBuffer).Inside 0 0 width height := by
    unfold RectBuffer.Inside
    dsimp only
    omega
  obtain ⟨filled, hfill⟩ := (RectBuffer.fill_succeeds_iff { width, height, bypp, backing } 0 0 width
    height d.background).1 ⟨hinside, hd.background⟩
  obtain ⟨hshown, hcovered, hwrites⟩ := RectBuffer.shows_fill hblank hfill
  have hbypp : filled.bypp = bypp := hwrites.bypp
  have hwidth : filled.width = width := hwrites.width
  have hheight : filled.height = height := hwrites.height
  obtain ⟨hpaints, hfails⟩ := decodes_entries form hshown
    (fun entry hentry => (hd.colours entry hentry).trans hbypp.symm) hd.numbers a
  rw [hwidth, hheight] at hpaints hfails
  obtain ⟨hlength, hloop⟩ := foldlM_entries codecs S form filled hd.colours
  have hheader : (be32 d.subrects.length ++ d.background).length = 4 + bypp := by
    rw [List.length_append, length_be32, hd.background]
  have hcount : u32At (be32 d.subrects.length ++ d.background) 0 = d.subrects.length :=
    u32At_be32 hd.count _
  have hdrop : (be32 d.subrects.length ++ d.background).drop 4 = d.background := rfl
  have hfilled := decodes_ofExcept (S := S) hfill a
  refine ⟨fun hfits => ?_, fun hnot => ?_,
    takesAtMost_rreDecodePixels form hblank pixelFormat a⟩
  · obtain ⟨hcounted, hlies⟩ := hfits
    obtain ⟨target', hdecodes, hshown', hwrites', hcovered'⟩ := hpaints hlies
    refine ⟨target', ?_, ?_⟩
    · unfold rreDecodePixels serialise
      refine decodes_read_bind hheader ?_
      dsimp only
      rw [Block.bytes_of, hcount, hdrop]
      refine hfilled.bind_nil ?_
      rw [hwidth, hheight]
      split_ifs with hzero hmany
      · -- the background alone
        rw [List.length_eq_zero_iff.mp hzero] at hdecodes ⊢
        exact hdecodes
      · exact absurd hcounted (Nat.not_le.mpr hmany)
      · refine (decodes_read hlength a).bind_pure ?_
        rw [Block.bytes_of, hloop]
        exact hdecodes
    · rw [hshown'.tobytes (hcovered' hcovered), hwrites'.width, hwrites'.height, hwidth, hheight]
      refine Raster.render_congr fun x hx y hy => paintEntries_congr ?_
      exact Raster.overlay_inside (by omega) (by omega)
  · unfold rreDecodePixels serialise
    refine refuses_read_bind hheader ?_
    dsimp only
    rw [Block.bytes_of, hcount, hdrop]
    refine Rejects.bind_nil hfilled ?_
    rw [hwidth, hheight]
    split_ifs with hzero hmany
    · -- there is nothing that may not fit
      refine absurd ⟨by omega, ?_⟩ hnot
      rw [List.length_eq_zero_iff.mp hzero]
      exact fun entry hentry => absurd hentry List.not_mem_nil
    · exact refuses_raise _ a _
    · have hleaves : ¬∀ entry ∈ d.subrects, Lies width height entry.2 := fun hall =>
        hnot ⟨Nat.not_lt.mp hmany, hall⟩
      rw [← List.append_nil (d.subrects.flatMap (entryWire form))]
      refine refuses_read_bind hlength ?_
      rw [Block.bytes_of, hloop]
      exact hfails hleaves

/-- Two subrectangles, the second over the first; and one that leaves the rectangle. -/
theorem rre_decodes_overlap :
    let a : DAttrs sampleCodecs Unit := { factory := {}, decoding := {}, own := () }
    let target : RectBuffer := { width := 2, height := 2, bypp := 1, backing := [8, 8, 8, 8, 8] }
    (∃ target', Decodes (rreDecodePixels corReCoords target PixelFormat.bgrx8888) a
        [0, 0, 0, 2, 1, 2, 0, 0, 2, 1, 3, 1, 0, 1, 2] target' a ∧
      target'.tobytes = [2, 3, 1, 3]) ∧
    Refuses (rreDecodePixels corReCoords target PixelFormat.bgrx8888) a
      [0, 0, 0, 1, 1, 2, 1, 0, 2, 1] := by
  have hcreate : RectBuffer.create 2 2 1 [8, 8, 8, 8, 8] =
      .ok { width := 2, height := 2, bypp := 1, backing := [8, 8, 8, 8, 8] } := rfl
  have hover : RREDescription.Encodable corReForm 1
      ⟨[1], [([2], ⟨0, 0, 2, 1⟩), ([3], ⟨1, 0, 1, 2⟩)]⟩ := ⟨rfl, by decide, by decide, by decide⟩
  have hout : RREDescription.Encodable corReForm 1 ⟨[1], [([2], ⟨1, 0, 2, 1⟩)]⟩ :=
    ⟨rfl, by decide, by decide, by decide⟩
  constructor
  · exact (rre_decodes corReForm hcreate hover _ _).1 ⟨by decide, by decide⟩
  · refine (rre_decodes corReForm hcreate hout _ _).2.1 ?_
    exact fun hfits => absurd (hfits.2 _ List.mem_cons_self) (by decide)

end Decoders

end VncDoTool
