import VncDoTool.Decoders.CheckedZRLE

/-!
# ZRLE stays in bounds

Whatever bytes come out of zlib, the tile loop of ZRLE reads and writes inside of its data, its
tables and its buffer, and ends with every pixel written or with a `DecodeError`.

* `RectBuffer.checkedBlit_eq`, `RectBuffer.checkedFill_eq`: the writes of a valid buffer are never
  trapped.
* `Decoders.agrees_tile`, `Decoders.agrees_tiles`: the checked tile loop does as the plain one.
* `Decoders.zrle_total`: what it ends with.
-/

namespace VncDoTool

open Checked

/-! ## Writes -/

/-- A slice of the backing that is replaced by as many bytes. -/
theorem checkedSetSlice_eq {buf new : Bytes} {start n : ℕ} (hlength : new.length = n)
    (h : start + n ≤ buf.length) :
    checkedSetSlice buf start (start + n) new = .ok (setSlice buf start (start + n) new) := by
  unfold checkedSetSlice
  rw [if_pos ⟨Nat.le_add_right _ _, h, by omega⟩]

namespace RectBuffer

variable {b : RectBuffer}

theorem checkedClear_eq (hb : b.Valid) : b.checkedClear = .ok b.clear := by
  unfold checkedClear clear
  split_ifs
  · rfl
  · have hroom : 0 + b.nbytes ≤ b.backing.length := by
      rw [Nat.zero_add]
      exact hb.room
    have hset := checkedSetSlice_eq (List.length_replicate (a := (0 : UInt8))) hroom
    rw [Nat.zero_add] at hset
    rw [hset]
    rfl

theorem checkedMaterialize_eq (hb : b.Valid) : b.checkedMaterialize = .ok b.materialize := by
  unfold checkedMaterialize materialize
  cases hwhole : b.whole with
  | none => rfl
  | some whole =>
    have hroom : 0 + b.nbytes ≤ b.backing.length := by
      rw [Nat.zero_add]
      exact hb.room
    have hset := checkedSetSlice_eq (hb.whole whole hwhole) hroom
    rw [Nat.zero_add] at hset
    simp only [hset]
    rfl

theorem checkedBase_eq (hb : b.Valid) (x y w h : ℤ) :
    b.checkedBase x y w h = .ok (b.base x y w h) := by
  unfold checkedBase base
  refine Fallible.bind_eq_ok.mpr ⟨_, checkedMaterialize_eq hb, ?_⟩
  split_ifs
  · rfl
  · exact checkedClear_eq (valid_materialize hb)

/-- The loop over rows inside the buffer. -/
theorem checkedRows_eq {x y h rowBytes : ℕ} {row : ℕ → Bytes} {checkedRow : ℕ → Checked PyErr Bytes}
    (hroom : b.nbytes ≤ b.backing.length) (hrow : ∀ i, i < h → (row i).length = rowBytes)
    (hread : ∀ i, i < h → checkedRow i = .ok (row i))
    (hx : x * b.bypp + rowBytes ≤ b.width * b.bypp) (hy : y + h ≤ b.height) :
    b.checkedRows x y h rowBytes checkedRow = .ok (b.writeRows x y h rowBytes row) := by
  unfold checkedRows
  refine Fallible.bind_eq_ok.mpr ⟨(b.writeRows x y h rowBytes row).backing, ?_, rfl⟩
  induction h with
  | zero => rfl
  | succ h ih =>
    have hbefore := ih (fun i hi => hrow i (by omega)) (fun i hi => hread i (by omega)) (by omega)
    have hlength := length_backing_writeRows (b := b) (x := x) (y := y) hroom
      (fun i (hi : i < h) => hrow i (by omega)) hx (by omega)
    rw [List.range_succ, List.foldlM_append, hbefore]
    refine Fallible.bind_eq_ok.mpr ⟨_, rfl, ?_⟩
    rw [List.foldlM_cons, hread h (Nat.lt_succ_self h)]
    refine Fallible.bind_eq_ok.mpr ⟨_, ?_, rfl⟩
    rw [backing_writeRows_succ]
    refine checkedSetSlice_eq (hrow h (Nat.lt_succ_self h)) ?_
    -- the row ends with its line, and the buffer has room for all its lines
    have hline : (y + h + 1) * (b.width * b.bypp) ≤ b.nbytes := by
      calc (y + h + 1) * (b.width * b.bypp) ≤ b.height * (b.width * b.bypp) :=
            Nat.mul_le_mul_right _ (by omega)
        _ = b.nbytes := by
            unfold nbytes
            ring
    rw [Nat.succ_mul] at hline
    rw [hlength]
    omega

theorem checkedBounds_eq (x y w h : ℤ) : b.checkedBounds x y w h = lift (b.checkBounds x y w h) := by
  unfold checkedBounds
  cases b.checkBounds x y w h with
  | ok u => rfl
  | error e => rfl

/-- Whole lines inside the buffer end inside its backing. -/
theorem lines_le_backing {y h : ℕ} (hroom : b.nbytes ≤ b.backing.length) (hy : y + h ≤ b.height) :
    y * (b.width * b.bypp) + h * (b.width * b.bypp) ≤ b.backing.length := by
  refine Nat.le_trans ?_ hroom
  calc y * (b.width * b.bypp) + h * (b.width * b.bypp) = (y + h) * (b.width * b.bypp) :=
        (Nat.add_mul _ _ _).symm
    _ ≤ b.height * (b.width * b.bypp) := Nat.mul_le_mul_right _ hy
    _ = b.nbytes := by
        unfold nbytes
        ring

/-- A blit on a valid buffer is never trapped. -/
theorem checkedBlit_eq (hb : b.Valid) (x y w h : ℤ) (pixels : Bytes) :
    b.checkedBlit x y w h pixels = lift (b.blit x y w h pixels) := by
  unfold checkedBlit blit
  by_cases hcovers : b.covers x y w h = true
  · rw [if_pos hcovers, if_pos hcovers]
    split_ifs <;> rfl
  · rw [if_neg hcovers, if_neg hcovers, checkedBounds_eq]
    cases hbounds : b.checkBounds x y w h with
    | error e => rfl
    | ok u =>
      obtain ⟨hx, hy, hw, hh, hright, hbottom⟩ := inside_of_checkBounds hbounds
      have hvalid := valid_materialize_clear hb
      have hfits : y.toNat + h.toNat ≤ b.height := by omega
      have hclear := checkedClear_eq (valid_materialize hb)
      simp only [lift, bind, Except.bind, checkedMaterialize_eq hb, hclear, width_clear,
        width_materialize, bypp_clear, bypp_materialize]
      split_ifs with hlength hlines
      · rfl
      · -- whole lines
        have hwidth : w.toNat = b.width := by omega
        have hexpected : pixels.length = h.toNat * (b.width * b.bypp) := by
          rw [Decidable.not_not.mp hlength, hwidth]
          ring
        have hroom := lines_le_backing (b := b.materialize.clear) (y := y.toNat) (h := h.toNat)
          hvalid.room (by simpa using hfits)
        simp only [width_clear, width_materialize, bypp_clear, bypp_materialize] at hroom
        rw [← Decidable.not_not.mp hlength, checkedSetSlice_eq rfl (by rw [hexpected]; exact hroom)]
      · -- row by row
        have htotal : pixels.length = h.toNat * (w.toNat * b.bypp) := by
          rw [Decidable.not_not.mp hlength]
          ring
        have hend : ∀ i, i < h.toNat → i * (w.toNat * b.bypp) + w.toNat * b.bypp ≤ pixels.length := by
          intro i hi
          have hnext : (i + 1) * (w.toNat * b.bypp) ≤ h.toNat * (w.toNat * b.bypp) :=
            Nat.mul_le_mul_right _ hi
          rw [Nat.succ_mul] at hnext
          omega
        refine checkedRows_eq hvalid.room (fun i hi => ?_) (fun i hi => ?_)
          (by simpa using row_le_line hx hw hright) (by simpa using hfits)
        · have hle := hend i hi
          rw [List.length_take, List.length_drop]
          omega
        · exact slice_eq (hend i hi)

/-- A fill on a valid buffer is never trapped. -/
theorem checkedFill_eq (hb : b.Valid) (x y w h : ℤ) (color : Bytes) :
    b.checkedFill x y w h color = lift (b.fill x y w h color) := by
  unfold checkedFill fill
  rw [checkedBounds_eq]
  cases hbounds : b.checkBounds x y w h with
  | error e => rfl
  | ok u =>
    obtain ⟨hx, hy, hw, hh, hright, hbottom⟩ := inside_of_checkBounds hbounds
    have hfits : y.toNat + h.toNat ≤ b.height := by omega
    have hvalid : ({ b.base x y w h with covered := true } : RectBuffer).Valid :=
      ⟨(valid_base hb x y w h).room, (valid_base hb x y w h).whole⟩
    simp only [lift, bind, Except.bind, checkedBase_eq hb, width_base, bypp_base]
    split_ifs with hcolor hlines
    · rfl
    · have hrow : (repeated color w.toNat).length = w.toNat * b.bypp := by
        rw [length_repeated, Decidable.not_not.mp hcolor]
      have hwidth : w.toNat = b.width := by omega
      have hroom := lines_le_backing (b := { b.base x y w h with covered := true }) (y := y.toNat)
        (h := h.toNat) hvalid.room (by simpa using hfits)
      simp only [width_base, bypp_base] at hroom
      rw [checkedSetSlice_eq (by rw [length_repeated, hrow, hwidth]) hroom]
    · have hrow : (repeated color w.toNat).length = w.toNat * b.bypp := by
        rw [length_repeated, Decidable.not_not.mp hcolor]
      have hrows : RectBuffer.checkedRows { b.base x y w h with covered := true } x.toNat y.toNat
          h.toNat (w.toNat * b.bypp) (fun _ => .ok (repeated color w.toNat)) =
            .ok (RectBuffer.writeRows { b.base x y w h with covered := true } x.toNat y.toNat h.toNat
              (w.toNat * b.bypp) fun _ => repeated color w.toNat) :=
        checkedRows_eq hvalid.room (fun _ _ => hrow) (fun _ _ => rfl)
          (by simpa using row_le_line hx hw hright) (by simpa using hfits)
      simpa only [width_base, bypp_base] using hrows

end RectBuffer

namespace Decoders

variable {widths : ZRLEWidths} {tile : Rect} {data : Bytes} {pos : ℕ}

/-- The error a decoder may raise on what the server sends. -/
def IsDecodeError (e : PyErr) : Prop := e.cls = .decodeError

/-- What is left of the data has `need` bytes, or the checked code raises what the plain code does. -/
theorem agrees_takeData {α β : Type} {R : α → β → Prop} {need : ℕ} {f : Bytes → Checked PyErr α}
    {g : Bytes × Bytes → Except PyErr β} (hpos : pos ≤ data.length)
    (hnext : ∀ raw, raw.length = need → pos + need ≤ data.length →
      Agrees IsDecodeError R (f raw) (g (raw, data.drop (pos + need)))) :
    Agrees IsDecodeError R
      (if pos + need > data.length then raise (short tile)
        else (slice data pos (pos + need) >>= f))
      (takeData tile need (data.drop pos) >>= g) := by
  unfold takeData
  rw [List.length_drop]
  by_cases hshort : pos + need > data.length
  · rw [if_pos hshort, if_pos (by omega)]
    exact .raised rfl
  · rw [if_neg hshort, if_neg (by omega), List.drop_drop]
    refine Agrees.bind_ok (slice_eq (by omega)) ?_
    refine hnext _ ?_ (by omega)
    rw [List.length_take, List.length_drop]
    omega

/-- The next byte, or the checked code raises what the plain code does. -/
theorem agrees_takeByte {α β : Type} {R : α → β → Prop} {f : UInt8 → Checked PyErr α}
    {g : ℕ × Bytes → Except PyErr β}
    (hnext : ∀ b : UInt8, pos + 1 ≤ data.length →
      Agrees IsDecodeError R (f b) (g (b.toNat, data.drop (pos + 1)))) :
    Agrees IsDecodeError R
      (if pos ≥ data.length then raise (short tile) else (item data pos >>= f))
      (takeByte tile (data.drop pos) >>= g) := by
  by_cases hshort : pos ≥ data.length
  · rw [if_pos hshort, List.drop_eq_nil_of_le hshort]
    exact .raised rfl
  · have hlt : pos < data.length := Nat.lt_of_not_le hshort
    rw [if_neg hshort, List.drop_eq_getElem_cons hlt]
    exact Agrees.bind_ok (item_eq (List.getElem?_eq_getElem hlt)) (hnext _ hlt)

/-! ## Compressed pixels -/

theorem length_setEveryNth {buf out values : Bytes} {start step : ℕ}
    (h : setEveryNth buf start step values = .ok out) : out.length = buf.length := by
  unfold setEveryNth at h
  split_ifs at h
  obtain rfl := Except.ok.inj h
  exact List.length_mapIdx

/-- Pixels are widened in bounds, and each slice takes as many values as there are. -/
theorem agrees_expand {raw : Bytes} {count cbytes bypp coffset : ℕ}
    (hraw : raw.length = count * cbytes) (hfits : coffset + cbytes ≤ bypp) (hcount : 1 ≤ count) :
    Agrees IsDecodeError (fun out out' => out = out' ∧ out.length = count * bypp)
      (checkedExpand raw count cbytes bypp coffset) (expandCpixels raw count cbytes bypp coffset) := by
  unfold checkedExpand expandCpixels
  split_ifs with hwhole
  · subst hwhole
    exact .ok ⟨rfl, hraw⟩
  · refine Agrees.foldlM ?_ ⟨rfl, List.length_replicate⟩
    rintro out _ i hi ⟨rfl, hlength⟩
    have hlt : i < cbytes := List.mem_range.mp hi
    have hread : i < raw.length := by
      rw [hraw]
      exact lt_of_lt_of_le hlt (Nat.le_mul_of_pos_left cbytes hcount)
    have hwrite : coffset + i < out.length := by
      rw [hlength]
      exact lt_of_lt_of_le (by omega) (Nat.le_mul_of_pos_left bypp hcount)
    have hvalues : (everyNth raw i cbytes).length = strideCount out.length (coffset + i) bypp := by
      rw [hlength, strideCount_eq (by omega), everyNth_eq hraw hlt, List.length_map,
        List.length_range]
    refine Agrees.bind_ok (if_pos hread) ?_
    unfold checkedSetEveryNth
    rw [if_pos ⟨hwrite, hvalues⟩]
    have hok : ∃ out', setEveryNth out (coffset + i) bypp (everyNth raw i cbytes) = .ok out' := by
      unfold setEveryNth
      rw [if_neg (not_not_intro hvalues)]
      exact ⟨_, rfl⟩
    obtain ⟨out', hout⟩ := hok
    rw [hout]
    exact .ok ⟨rfl, (length_setEveryNth hout).trans hlength⟩

/-- The widths of a pixel format: a CPIXEL lies within a pixel. -/
def Fitting (widths : ZRLEWidths) : Prop := widths.coffset + widths.cbytes ≤ widths.bypp

/-- The palette of a tile is cut out of its pixels. -/
theorem agrees_palette (hwidths : Fitting widths) (size : ℕ) (hpos : pos ≤ data.length) :
    Agrees IsDecodeError (Stands data fun palette : List Bytes => palette.length = size)
      (checkedPalette widths tile data pos size)
      (if size = 0 then .ok ([], data.drop pos) else zrlePalette widths tile size (data.drop pos)) := by
  unfold checkedPalette zrlePalette
  split_ifs with hsize
  · subst hsize
    exact .read rfl hpos rfl
  · refine agrees_takeData hpos fun raw hraw hend => ?_
    refine (agrees_expand hraw hwidths (Nat.pos_of_ne_zero hsize)).bind ?_
    rintro flat _ ⟨rfl, hflat⟩
    have hentries : ∀ i ∈ List.range size,
        (slice flat (i * widths.bypp) (i * widths.bypp + widths.bypp) : Checked PyErr Bytes) =
          .ok ((flat.drop (i * widths.bypp)).take widths.bypp) := by
      intro i hi
      refine slice_eq ?_
      have hnext : (i + 1) * widths.bypp ≤ size * widths.bypp :=
        Nat.mul_le_mul_right _ (List.mem_range.mp hi)
      rw [Nat.succ_mul] at hnext
      omega
    refine Agrees.bind_ok (Fallible.mapM_eq_ok hentries) ?_
    refine .read rfl hend ?_
    rw [List.length_map, List.length_range]

/-! ## Packed palettes -/

/-- A byte is an index of a table of 256 entries. -/
theorem item_table {α : Type} (f : ℕ → α) (b : UInt8) :
    (item ((List.range 256).map f) b.toNat : Checked PyErr α) = .ok (f b.toNat) := by
  refine item_eq ?_
  rw [List.getElem?_map, List.getElem?_range b.toNat_lt]
  rfl

/-- A row of packed indices, by the tables. -/
theorem checkedRow_eq (palette : List Bytes) (width bypp : ℕ) (packed : Bytes) :
    checkedRow palette width bypp packed = lift (packedRow palette width bypp packed) := by
  have hlookup {α : Type} (f : ℕ → α) :
      (packed.mapM fun b => (item ((List.range 256).map f) b.toNat : Checked PyErr α)) =
        .ok (packed.map fun b => f b.toNat) := Fallible.mapM_eq_ok fun b _ => item_table f b
  unfold checkedRow packedRow indexTables
  dsimp only
  by_cases hfull : palette.length = 1 <<< indexBits palette.length
  · rw [if_pos hfull, if_neg (fun h => h.1 hfull)]
    refine Fallible.bind_eq_ok.mpr ⟨false, rfl, ?_⟩
    refine Fallible.bind_eq_ok.mpr ⟨_, hlookup _, ?_⟩
    rw [← List.flatMap_def]
  · rw [if_neg hfull]
    simp only [hlookup, bind, Except.bind, ← List.flatMap_def]
    by_cases hbad : ((packed.flatMap fun b =>
        undefinedByte palette (indexBits palette.length) b.toNat).take width).any id = true
    · rw [if_pos hbad, if_pos ⟨hfull, hbad⟩]
      rfl
    · rw [if_neg hbad, if_neg (fun h => hbad h.2)]
      rfl

/-- Rows that are refused are refused for their indices. -/
theorem packedRow_error {palette : List Bytes} {width bypp : ℕ} {packed : Bytes} {e : PyErr}
    (h : packedRow palette width bypp packed = .error e) : IsDecodeError e := by
  unfold packedRow at h
  dsimp only at h
  split_ifs at h
  obtain rfl := Except.error.inj h
  rfl

/-- The rows of a packed-palette tile, up to some of them. -/
theorem agrees_rows {palette : List Bytes} {width bypp rowSize n : ℕ} {packed : Bytes}
    (hend : pos + n * rowSize ≤ data.length)
    (hpacked : ∀ i, i < n → (packed.drop (i * rowSize)).take rowSize =
      (data.drop (pos + i * rowSize)).take rowSize) :
    Agrees IsDecodeError
      (fun p rows => p.1 = rows ∧ p.2 = pos + n * rowSize)
      ((List.range n).foldlM (m := Checked PyErr)
        (fun st _ => checkedNextRow palette width bypp rowSize data st) ([], pos))
      ((List.range n).mapM fun i =>
        packedRow palette width bypp ((packed.drop (i * rowSize)).take rowSize)) := by
  induction n with
  | zero =>
    refine .ok ⟨rfl, ?_⟩
    rw [Nat.zero_mul]
    rfl
  | succ n ih =>
    rw [Nat.succ_mul] at hend
    rw [List.range_succ, List.foldlM_append, List.mapM_append]
    refine (ih (by omega) fun i hi => hpacked i (by omega)).bind ?_
    rintro ⟨rows, _⟩ _ ⟨rfl, rfl⟩
    -- The next row is in the data: `hend` leaves room for it.
    have hslice : (slice data (pos + n * rowSize) (pos + n * rowSize + rowSize) :
        Checked PyErr Bytes) = .ok ((packed.drop (n * rowSize)).take rowSize) := by
      rw [slice_eq (by omega), hpacked n (Nat.lt_succ_self n)]
    have hrow := checkedRow_eq palette width bypp ((packed.drop (n * rowSize)).take rowSize)
    rw [List.foldlM_cons, List.mapM_cons]
    unfold checkedNextRow
    cases hplain : packedRow palette width bypp ((packed.drop (n * rowSize)).take rowSize) with
    | ok row =>
      rw [hplain] at hrow
      simp only [hslice, hrow, lift, bind, Except.bind]
      refine .ok ⟨rfl, ?_⟩
      rw [Nat.succ_mul, Nat.add_assoc]
    | error e =>
      rw [hplain] at hrow
      simp only [hslice, hrow, lift, bind, Except.bind]
      exact .raised (packedRow_error hplain)

/-- The pixels of a packed-palette tile. -/
theorem agrees_packed {palette : List Bytes} {bypp : ℕ} (hpos : pos ≤ data.length) :
    Agrees IsDecodeError (Stands data fun _ : Bytes => True)
      (checkedPacked palette tile bypp data pos) (packedPixels palette tile bypp (data.drop pos)) := by
  unfold checkedPacked packedPixels takeData
  dsimp only
  generalize (tile.width + 8 / indexBits palette.length - 1) / (8 / indexBits palette.length) = rowSize
  rw [List.length_drop]
  by_cases hshort : pos + rowSize * tile.height > data.length
  · rw [if_pos hshort, if_pos (by omega)]
    exact .raised rfl
  · rw [if_neg hshort, if_neg (by omega)]
    rw [Nat.mul_comm rowSize] at hshort ⊢
    have hend : pos + tile.height * rowSize ≤ data.length := Nat.le_of_not_lt hshort
    show Agrees _ _ (_ >>= _) (List.mapM _ (List.range tile.height) >>= _)
    refine Agrees.bind (agrees_rows hend fun i hi => ?_) ?_
    · -- the row lies in what was taken
      have hnext : (i + 1) * rowSize ≤ tile.height * rowSize := Nat.mul_le_mul_right _ hi
      rw [Nat.succ_mul] at hnext
      rw [List.drop_take, List.take_take, List.drop_drop, Nat.min_eq_left (by omega)]
    · rintro ⟨rows, _⟩ _ ⟨rfl, rfl⟩
      refine .read ?_ hend trivial
      rw [List.drop_drop]

/-! ## Runs -/

/-- The length of a run, as far as its bytes go. -/
theorem agrees_length (tile : Rect) (acc : ℕ) (hpos : pos ≤ data.length) :
    Agrees IsDecodeError
      (fun p q => p.1 = acc + q.1 ∧ q.2 = data.drop p.2 ∧ p.2 ≤ data.length)
      (checkedLength tile data pos acc) (runMinusOne tile (data.drop pos)) := by
  induction hleft : data.length - pos generalizing pos acc with
  | zero =>
    have hend : pos ≥ data.length := by omega
    rw [checkedLength, if_pos hend, List.drop_eq_nil_of_le hend]
    exact .raised rfl
  | succ left ih =>
    have hlt : pos < data.length := by omega
    rw [checkedLength, if_neg (by omega), List.drop_eq_getElem_cons hlt,
      item_eq (List.getElem?_eq_getElem hlt), runMinusOne]
    dsimp only
    by_cases hmore : data[pos] = 255
    · rw [if_pos hmore, if_pos hmore, hmore]
      refine (ih _ (by omega) (by omega)).map ?_
      rintro ⟨m, pos'⟩ ⟨n, rest⟩ ⟨hvalue, hdrop, hinside⟩
      exact ⟨(hvalue.trans (Nat.add_assoc _ _ _)), hdrop, hinside⟩
    · rw [if_neg hmore, if_neg hmore]
      exact .ok ⟨rfl, rfl, hlt⟩

/-- The pixel of a run and its length. -/
structure SameRun (data : Bytes) (p : (Bytes × ℕ) × ℕ) (q : (Bytes × ℕ) × Bytes) : Prop where
  pixel : p.1.1 = q.1.1
  run : q.1.2 = p.1.2 + 1
  rest : q.2 = data.drop p.2
  inside : p.2 ≤ data.length

theorem agrees_run (hwidths : Fitting widths) (palette : List Bytes) (hpos : pos ≤ data.length) :
    Agrees IsDecodeError (SameRun data) (checkedRun widths tile palette data pos)
      (zrleRun widths tile palette (data.drop pos)) := by
  unfold checkedRun zrleRun
  by_cases hnone : palette.length = 0
  · rw [if_pos hnone, if_pos hnone]
    refine agrees_takeData hpos fun raw hraw hend => ?_
    have hone : raw.length = 1 * widths.cbytes := by rw [hraw, Nat.one_mul]
    refine (agrees_expand hone hwidths le_rfl).bind ?_
    rintro pixel _ ⟨rfl, -⟩
    refine (agrees_length tile 0 hend).bind ?_
    rintro ⟨runMinusOne, pos'⟩ ⟨n, rest⟩ ⟨hrun, hrest, hinside⟩
    exact .ok ⟨rfl, by rw [show runMinusOne = n from hrun.trans (Nat.zero_add n)], hrest, hinside⟩
  · rw [if_neg hnone, if_neg hnone]
    refine agrees_takeByte fun index hend => ?_
    dsimp only
    by_cases hentry : index.toNat &&& 0x7F ≥ palette.length
    · rw [if_pos hentry, List.getElem?_eq_none hentry]
      exact .raised rfl
    · have hlt : index.toNat &&& 0x7F < palette.length := Nat.lt_of_not_le hentry
      rw [if_neg hentry, List.getElem?_eq_getElem hlt]
      refine Agrees.bind_ok (item_eq (List.getElem?_eq_getElem hlt)) ?_
      dsimp only
      by_cases hsingle : index.toNat &&& 0x80 = 0
      · rw [if_pos hsingle, if_pos hsingle]
        exact .ok ⟨rfl, rfl, rfl, hend⟩
      · rw [if_neg hsingle, if_neg hsingle]
        refine (agrees_length tile 0 hend).bind ?_
        rintro ⟨runMinusOne, pos'⟩ ⟨n, rest⟩ ⟨hrun, hrest, hinside⟩
        exact .ok ⟨rfl, by rw [show runMinusOne = n from hrun.trans (Nat.zero_add n)], hrest, hinside⟩

/-- The runs of a tile, where the plain code has fuel for the pixels that are missing. -/
theorem agrees_runs (hwidths : Fitting widths) (palette : List Bytes) {fuel numPixels : ℕ}
    (pixelData : Bytes) (hfuel : tile.width * tile.height ≤ numPixels + fuel)
    (hpos : pos ≤ data.length) :
    Agrees IsDecodeError (Stands data fun _ : Bytes × ℕ => True)
      (checkedRuns widths tile palette data numPixels pixelData pos)
      (zrleRuns widths tile palette fuel numPixels pixelData (data.drop pos)) := by
  induction fuel generalizing numPixels pixelData pos with
  | zero =>
    rw [checkedRuns, if_neg (by omega)]
    exact .read rfl hpos trivial
  | succ fuel ih =>
    rw [checkedRuns, zrleRuns]
    by_cases hmissing : numPixels < tile.width * tile.height
    · rw [if_pos hmissing, if_pos hmissing]
      have hrun : Agrees IsDecodeError (SameRun data) (checkedRun widths tile palette data pos)
          (zrleRun widths tile palette (data.drop pos)) := agrees_run hwidths palette hpos
      generalize checkedRun widths tile palette data pos = c at hrun
      generalize zrleRun widths tile palette (data.drop pos) = x at hrun
      cases hrun with
      | raised hgood => exact .raised hgood
      | @ok a b related =>
        rcases a with ⟨⟨pixel, runMinusOne⟩, pos'⟩
        rcases b with ⟨⟨pixel', run⟩, rest⟩
        obtain ⟨hpixel, hlength, hrest, hinside⟩ := related
        dsimp only at hpixel hlength hrest hinside
        subst hpixel hlength hrest
        exact ih _ (by omega) hinside
    · rw [if_neg hmissing, if_neg hmissing]
      exact .read rfl hpos trivial

/-! ## Tiles -/

/-- What a tile does behind its palette. -/
def tileBody (widths : ZRLEWidths) (target : RectBuffer) (tile : Rect) (rle : Prop) [Decidable rle]
    (st : List Bytes × Bytes) : Except PyErr (RectBuffer × Bytes) :=
  if rle then do
    let (pixels, rest) ← rlePixels widths tile st.1 st.2
    let target ← pasteTile target tile pixels
    .ok (target, rest)
  else
    match st.1 with
    | [] => do
      let (raw, rest) ← takeData tile (tile.width * tile.height * widths.cbytes) st.2
      let pixels ← expandCpixels raw (tile.width * tile.height) widths.cbytes widths.bypp
        widths.coffset
      let target ← pasteTile target tile pixels
      .ok (target, rest)
    | [colour] => do
      let target ← target.fill tile.x tile.y tile.width tile.height colour
      .ok (target, st.2)
    | palette => do
      let (pixels, rest) ← packedPixels palette tile widths.bypp st.2
      let target ← pasteTile target tile pixels
      .ok (target, rest)

/-- A tile is its subencoding, its palette and the rest. -/
theorem zrleTile_eq (target : RectBuffer) (rest : Bytes) :
    zrleTile widths (target, rest) tile = takeByte tile rest >>= fun (subencoding, rest) =>
      if ¬subencoding &&& 0x80 ≠ 0 ∧ subencoding &&& 127 > 16 then
        .error ⟨.decodeError, s!"ZRLE palette of size {subencoding &&& 127} is not allowed"⟩
      else
        (if subencoding &&& 127 = 0 then .ok ([], rest)
          else zrlePalette widths tile (subencoding &&& 127) rest) >>=
            tileBody widths target tile (subencoding &&& 0x80 ≠ 0) := by
  unfold zrleTile
  refine congrArg (takeByte tile rest >>= ·) (funext fun taken => ?_)
  dsimp only
  by_cases hsize : ¬taken.1 &&& 0x80 ≠ 0 ∧ taken.1 &&& 127 > 16
  · rw [if_pos hsize, if_pos hsize]
  · rw [if_neg hsize, if_neg hsize]
    by_cases hnone : taken.1 &&& 127 = 0
    · rw [if_pos hnone, if_pos hnone]
      rfl
    · rw [if_neg hnone, if_neg hnone]
      rfl

theorem blit_error {b : RectBuffer} {x y w h' : ℤ} {pixels : Bytes} {e : PyErr}
    (h : b.blit x y w h' pixels = .error e) : IsDecodeError e := by
  by_cases hallowed : (BufferCall.blit x y w h' pixels).Allowed b
  · obtain ⟨b', hok⟩ := (RectBuffer.blit_succeeds_iff b x y w h' pixels).1 hallowed
    rw [hok] at h
    cases h
  · obtain ⟨text, herror⟩ := (RectBuffer.blit_succeeds_iff b x y w h' pixels).2 hallowed
    rw [herror] at h
    obtain rfl := Except.error.inj h
    rfl

theorem fill_error {b : RectBuffer} {x y w h' : ℤ} {color : Bytes} {e : PyErr}
    (h : b.fill x y w h' color = .error e) : IsDecodeError e := by
  by_cases hallowed : (BufferCall.fill x y w h' color).Allowed b
  · obtain ⟨b', hok⟩ := (RectBuffer.fill_succeeds_iff b x y w h' color).1 hallowed
    rw [hok] at h
    cases h
  · obtain ⟨text, herror⟩ := (RectBuffer.fill_succeeds_iff b x y w h' color).2 hallowed
    rw [herror] at h
    obtain rfl := Except.error.inj h
    rfl

/-- The pixels of a tile are pasted. -/
theorem agrees_paste {target : RectBuffer} (hvalid : target.Valid) (pixels : Bytes)
    (hpos : pos ≤ data.length) :
    Agrees IsDecodeError (Stands data RectBuffer.Valid)
      (target.checkedBlit tile.x tile.y tile.width tile.height pixels >>= fun target =>
        .ok (target, pos))
      (pasteTile target tile pixels >>= fun target => .ok (target, data.drop pos)) := by
  unfold pasteTile
  rw [RectBuffer.checkedBlit_eq hvalid]
  have hlift : Agrees IsDecodeError (fun b b' => b = b' ∧ b.Valid)
      (lift (target.blit tile.x tile.y tile.width tile.height pixels))
      (target.blit tile.x tile.y tile.width tile.height pixels) :=
    agrees_lift (fun _ hok => ⟨rfl, RectBuffer.valid_blit hvalid hok⟩) fun _ => blit_error
  refine hlift.bind ?_
  rintro target' _ ⟨rfl, hvalid'⟩
  exact .read rfl hpos hvalid'

/-- What a tile does behind its palette. -/
theorem agrees_body {target : RectBuffer} {palette : List Bytes} {size : ℕ} (rle : Prop)
    [Decidable rle] (hwidths : Fitting widths) (htile : 1 ≤ tile.width * tile.height)
    (hvalid : target.Valid) (hsize : palette.length = size) (hpos : pos ≤ data.length) :
    Agrees IsDecodeError (Stands data RectBuffer.Valid)
      (if rle then do
        let ((pixelData, numPixels), pos) ← checkedRuns widths tile palette data 0 [] pos
        if numPixels ≠ tile.width * tile.height then
          raise ⟨.decodeError, s!"ZRLE RLE tile at ({tile.x},{tile.y}) decoded {numPixels} " ++
            s!"pixels, wanted {tile.width * tile.height}"⟩
        else do
          let target ← target.checkedBlit tile.x tile.y tile.width tile.height pixelData
          .ok (target, pos)
      else if size = 0 then
        if pos + tile.width * tile.height * widths.cbytes > data.length then raise (short tile)
        else do
          let raw ← slice data pos (pos + tile.width * tile.height * widths.cbytes)
          let pixels ← checkedExpand raw (tile.width * tile.height) widths.cbytes widths.bypp
            widths.coffset
          let target ← target.checkedBlit tile.x tile.y tile.width tile.height pixels
          .ok (target, pos + tile.width * tile.height * widths.cbytes)
      else if size = 1 then do
        let colour ← item palette 0
        let target ← target.checkedFill tile.x tile.y tile.width tile.height colour
        .ok (target, pos)
      else do
        let (pixels, pos) ← checkedPacked palette tile widths.bypp data pos
        let target ← target.checkedBlit tile.x tile.y tile.width tile.height pixels
        .ok (target, pos))
      (tileBody widths target tile rle (palette, data.drop pos)) := by
  unfold tileBody
  by_cases hrle : rle
  · rw [if_pos hrle, if_pos hrle]
    unfold rlePixels
    rw [bind_assoc]
    refine (agrees_runs hwidths palette [] (by omega) hpos).bind ?_
    rintro ⟨⟨pixelData, numPixels⟩, pos'⟩ ⟨_, _⟩ ⟨rfl, hrest, hinside, -⟩
    dsimp only at hrest hinside ⊢
    subst hrest
    -- Runs of another number of pixels are refused before anything is pasted.
    by_cases hcount : numPixels ≠ tile.width * tile.height
    · rw [if_pos hcount, if_pos hcount]
      exact .raised rfl
    · rw [if_neg hcount, if_neg hcount]
      exact agrees_paste hvalid pixelData hinside
  · rw [if_neg hrle, if_neg hrle]
    -- Without a palette the tile is raw, with one colour solid, else its indices are packed.
    match palette, hsize with
    | [], hsize =>
      obtain rfl : 0 = size := hsize
      rw [if_pos rfl]
      refine agrees_takeData hpos fun raw hraw hend => ?_
      refine (agrees_expand hraw hwidths htile).bind ?_
      rintro pixels _ ⟨rfl, -⟩
      exact agrees_paste hvalid pixels hend
    | [colour], hsize =>
      obtain rfl : 1 = size := hsize
      rw [if_neg (by decide), if_pos rfl]
      refine Agrees.bind_ok (item_eq rfl) ?_
      rw [RectBuffer.checkedFill_eq hvalid]
      have hlift : Agrees IsDecodeError (fun b b' => b = b' ∧ b.Valid)
          (lift (target.fill tile.x tile.y tile.width tile.height colour))
          (target.fill tile.x tile.y tile.width tile.height colour) :=
        agrees_lift (fun _ hok => ⟨rfl, RectBuffer.valid_fill hvalid hok⟩) fun _ => fill_error
      refine hlift.bind ?_
      rintro target' _ ⟨rfl, hvalid'⟩
      exact .read rfl hpos hvalid'
    | colour :: colour' :: more, hsize =>
      have hmany : size ≠ 0 ∧ size ≠ 1 := by
        rw [← hsize, List.length_cons, List.length_cons]
        omega
      rw [if_neg hmany.1, if_neg hmany.2]
      refine (agrees_packed hpos).bind ?_
      rintro ⟨pixels, pos'⟩ ⟨_, _⟩ ⟨rfl, hrest, hinside, -⟩
      dsimp only at hrest hinside ⊢
      subst hrest
      exact agrees_paste hvalid pixels hinside

/-- One tile of the checked loop does as that of the plain one. -/
theorem agrees_tile (hwidths : Fitting widths) (htile : 1 ≤ tile.width * tile.height)
    {p : RectBuffer × ℕ} {q : RectBuffer × Bytes} (h : Stands data RectBuffer.Valid p q) :
    Agrees IsDecodeError (Stands data RectBuffer.Valid) (checkedTile widths data p tile)
      (zrleTile widths q tile) := by
  rcases p with ⟨target, pos⟩
  rcases q with ⟨_, _⟩
  obtain ⟨rfl, rfl, hpos, hvalid⟩ := h
  rw [zrleTile_eq]
  unfold checkedTile
  refine agrees_takeByte fun subencoding hend => ?_
  dsimp only
  by_cases hsize : ¬subencoding.toNat &&& 0x80 ≠ 0 ∧ subencoding.toNat &&& 127 > 16
  · rw [if_pos hsize, if_pos hsize]
    exact .raised rfl
  · rw [if_neg hsize, if_neg hsize]
    refine (agrees_palette hwidths _ hend).bind ?_
    rintro ⟨palette, pos'⟩ ⟨_, _⟩ ⟨rfl, hrest, hinside, hlength⟩
    dsimp only at hrest hinside hlength ⊢
    subst hrest
    exact agrees_body _ hwidths htile hvalid hlength hinside

/-- Tiles have pixels. -/
theorem tile_pixels {size width height : ℕ} (hsize : 0 < size) {tile : Rect}
    (h : tile ∈ tiles size width height) : 1 ≤ tile.width * tile.height := by
  have hstep : ∀ limit t, t ∈ steps size limit → 1 ≤ min size (limit - t) := by
    intro limit t ht
    obtain ⟨i, hi, rfl⟩ := List.mem_map.mp ht
    have hlt : i < (limit + size - 1) / size := List.mem_range.mp hi
    have hle : (i + 1) * size ≤ limit + size - 1 := (Nat.le_div_iff_mul_le hsize).mp hlt
    rw [Nat.succ_mul, Nat.mul_comm] at hle
    omega
  obtain ⟨ty, hty, hrow⟩ := List.mem_flatMap.mp h
  obtain ⟨tx, htx, rfl⟩ := List.mem_map.mp hrow
  exact Nat.mul_pos (hstep width tx htx) (hstep height ty hty)

/-- Every pixel of a rectangle lies in a tile. -/
theorem exists_tile {size width height x y : ℕ} (hsize : 0 < size) (hx : x < width)
    (hy : y < height) :
    ∃ tile ∈ tiles size width height,
      (tile.x ≤ x ∧ x < tile.x + tile.width) ∧ tile.y ≤ y ∧ y < tile.y + tile.height := by
  -- the tile whose corner is the last multiple of the size on either axis
  have hstep : ∀ limit t, t < limit → size * (t / size) ∈ steps size limit ∧
      size * (t / size) ≤ t ∧ t < size * (t / size) + min size (limit - size * (t / size)) := by
    intro limit t ht
    have hsplit := Nat.div_add_mod t size
    have hmod := Nat.mod_lt t hsize
    refine ⟨List.mem_map.mpr ⟨t / size, List.mem_range.mpr ?_, rfl⟩, by omega, by omega⟩
    refine (Nat.le_div_iff_mul_le hsize).mpr ?_
    rw [Nat.succ_mul, Nat.mul_comm]
    omega
  obtain ⟨hmemx, hlex, hltx⟩ := hstep width x hx
  obtain ⟨hmemy, hley, hlty⟩ := hstep height y hy
  refine ⟨_, List.mem_flatMap.mpr ⟨_, hmemy, List.mem_map.mpr ⟨_, hmemx, rfl⟩⟩, ⟨hlex, hltx⟩, hley, hlty⟩

/-- A CPIXEL lies within a pixel. -/
theorem fitting_widths (pf : PixelFormat) :
    Fitting ⟨pf.cpixelBytes, pf.cpixelOffset, pf.bypp⟩ := by
  unfold Fitting
  dsimp only
  have hcpixel := PixelFormat.cpixelBytes_le pf
  unfold PixelFormat.cpixelOffset
  dsimp only
  split_ifs <;> omega

/-- The checked tile loop does as the plain one, and stands at the end of the data. -/
theorem agrees_tiles {pf : PixelFormat} {target : RectBuffer} (hvalid : target.Valid)
    (hbypp : target.bypp = pf.bypp) (data : Bytes) :
    Agrees IsDecodeError (fun p target' => p = (target', data.length))
      (checkedTiles pf target data) (zrleTiles pf target data) := by
  have hwidths := fitting_widths pf
  unfold checkedTiles zrleTiles
  rw [hbypp]
  have hloop : Agrees IsDecodeError (Stands data RectBuffer.Valid)
      ((tiles zrleTileSize target.width target.height).foldlM (m := Checked PyErr)
        (checkedTile ⟨pf.cpixelBytes, pf.cpixelOffset, pf.bypp⟩ data) (target, 0))
      ((tiles zrleTileSize target.width target.height).foldlM
        (zrleTile ⟨pf.cpixelBytes, pf.cpixelOffset, pf.bypp⟩) (target, data)) := by
    refine Agrees.foldlM (fun p q tile htile h => ?_) ⟨rfl, rfl, Nat.zero_le _, hvalid⟩
    exact agrees_tile hwidths (tile_pixels (by decide) htile) h
  refine hloop.bind ?_
  rintro ⟨target', pos⟩ ⟨_, _⟩ ⟨rfl, hrest, hinside, -⟩
  dsimp only at hrest hinside ⊢
  subst hrest
  by_cases hend : pos = data.length
  · rw [if_neg (not_not_intro hend), if_neg (by rw [hend, List.drop_length]; exact fun h => h rfl)]
    exact .ok (by rw [hend])
  · rw [if_pos hend, if_pos (by rw [ne_eq, List.drop_eq_nil_iff]; omega), List.length_drop]
    exact .raised rfl

/-! ## What the tiles write -/

end Decoders

/-- The pixel lies in the rectangle that a call writes. -/
def BufferCall.Covers (x y : ℕ) : BufferCall → Prop
  | .blit x' y' w h _ => (x' ≤ x ∧ x < x' + w) ∧ y' ≤ y ∧ y < y' + h
  | .fill x' y' w h _ => (x' ≤ x ∧ x < x' + w) ∧ y' ≤ y ∧ y < y' + h

namespace Decoders

/-- A call writes all of a tile. -/
def WritesTile (tile : Rect) (call : BufferCall) : Prop :=
  ∀ x y : ℕ, (tile.x ≤ x ∧ x < tile.x + tile.width) ∧ tile.y ≤ y ∧ y < tile.y + tile.height →
    call.Covers x y

/-- What a tile does behind its palette is to write it, all at once. -/
theorem tileBody_writes {target target' : RectBuffer} {rle : Prop} [Decidable rle]
    {st : List Bytes × Bytes} {rest' : Bytes}
    (h : tileBody widths target tile rle st = .ok (target', rest')) :
    ∃ call : BufferCall, call.perform target = .ok target' ∧ WritesTile tile call := by
  have hpaste {pixels rest : Bytes} (h : (pasteTile target tile pixels >>= fun target =>
        (.ok (target, rest) : Except PyErr (RectBuffer × Bytes))) = .ok (target', rest')) :
      ∃ call : BufferCall, call.perform target = .ok target' ∧ WritesTile tile call := by
    obtain ⟨pasted, hblit, hsame⟩ := Fallible.bind_eq_ok.mp h
    obtain ⟨rfl, -⟩ := Prod.mk.inj (Except.ok.inj hsame)
    refine ⟨.blit tile.x tile.y tile.width tile.height pixels, hblit, fun x y hinside => ?_⟩
    unfold BufferCall.Covers
    omega
  rcases st with ⟨palette, rest⟩
  unfold tileBody at h
  by_cases hrle : rle
  · rw [if_pos hrle] at h
    obtain ⟨⟨pixels, rest₁⟩, -, h⟩ := Fallible.bind_eq_ok.mp h
    exact hpaste h
  · rw [if_neg hrle] at h
    match palette with
    | [] =>
      obtain ⟨⟨raw, rest₁⟩, -, h⟩ := Fallible.bind_eq_ok.mp h
      obtain ⟨pixels, -, h⟩ := Fallible.bind_eq_ok.mp h
      exact hpaste h
    | [colour] =>
      obtain ⟨filled, hfill, hsame⟩ := Fallible.bind_eq_ok.mp h
      obtain ⟨rfl, -⟩ := Prod.mk.inj (Except.ok.inj hsame)
      refine ⟨.fill tile.x tile.y tile.width tile.height colour, hfill, fun x y hinside => ?_⟩
      unfold BufferCall.Covers
      omega
    | colour :: colour' :: more =>
      obtain ⟨⟨pixels, rest₁⟩, -, h⟩ := Fallible.bind_eq_ok.mp h
      exact hpaste h

/-- A tile that is decoded is written. -/
theorem zrleTile_writes {target target' : RectBuffer} {rest rest' : Bytes}
    (h : zrleTile widths (target, rest) tile = .ok (target', rest')) :
    ∃ call : BufferCall, call.perform target = .ok target' ∧ WritesTile tile call := by
  rw [zrleTile_eq] at h
  obtain ⟨⟨subencoding, rest₁⟩, -, h⟩ := Fallible.bind_eq_ok.mp h
  dsimp only at h
  by_cases hsize : ¬subencoding &&& 0x80 ≠ 0 ∧ subencoding &&& 127 > 16
  · rw [if_pos hsize] at h
    cases h
  · rw [if_neg hsize] at h
    obtain ⟨st, -, h⟩ := Fallible.bind_eq_ok.mp h
    exact tileBody_writes h

/-- Tiles that are decoded are written one after the other, by calls that the buffer allows. -/
theorem zrleTiles_write {target target' : RectBuffer} {p : Raster.Picture UInt8} {rest rest' : Bytes}
    {places : List Rect} (hshows : target.Shows p)
    (h : places.foldlM (zrleTile widths) (target, rest) = .ok (target', rest')) :
    ∃ calls : List BufferCall, target' = calls.foldl BufferCall.after target ∧
      (∀ call ∈ calls, call.Allowed target) ∧ ∀ tile ∈ places, ∃ call ∈ calls, WritesTile tile call := by
  induction places generalizing target p rest with
  | nil =>
    obtain ⟨rfl, -⟩ := Prod.mk.inj (Except.ok.inj h)
    exact ⟨[], rfl, fun _ hcall => absurd hcall List.not_mem_nil,
      fun _ htile => absurd htile List.not_mem_nil⟩
  | cons tile places ih =>
    rw [List.foldlM_cons] at h
    obtain ⟨⟨target₁, rest₁⟩, hfirst, h⟩ := Fallible.bind_eq_ok.mp h
    obtain ⟨call, hperform, hwrites⟩ := zrleTile_writes hfirst
    obtain ⟨hshows₁, -, hsame⟩ := BufferCall.shows_perform hshows hperform
    obtain ⟨calls, rfl, hallowed, hcovered⟩ := ih hshows₁ h
    have hafter : call.after target = target₁ := by
      unfold BufferCall.after
      rw [hperform]
    refine ⟨call :: calls, ?_, fun call' hcall => ?_, fun tile' htile => ?_⟩
    · rw [List.foldl_cons, hafter]
    · rcases List.mem_cons.mp hcall with rfl | hcall
      · -- it was performed, so it was allowed
        by_contra hnot
        obtain ⟨text, herror⟩ := (BufferCall.perform_succeeds_iff target call').2 hnot
        rw [hperform] at herror
        cases herror
      · exact (BufferCall.allowed_iff_of_writes call' hsame).mp (hallowed call' hcall)
    · rcases List.mem_cons.mp htile with rfl | htile
      · exact ⟨call, List.mem_cons_self, hwrites⟩
      · obtain ⟨call', hcall, hwrites'⟩ := hcovered tile' htile
        exact ⟨call', List.mem_cons_of_mem _ hcall, hwrites'⟩

/-- The tile loop of ZRLE on any data: every access is in bounds, and it ends at the end of the data
with every pixel of the rectangle written, as the decoder does, or raises the `DecodeError` that the
decoder raises. -/
theorem zrle_total {pf : PixelFormat} {width height : ℕ} {backing : Bytes} {target : RectBuffer}
    (hcreate : RectBuffer.create width height pf.bypp backing = .ok target) (data : Bytes) :
    (∃ calls : List BufferCall,
      checkedTiles pf target data = .ok (calls.foldl BufferCall.after target, data.length) ∧
      zrleTiles pf target data = .ok (calls.foldl BufferCall.after target) ∧
      (∀ call ∈ calls, call.Allowed target) ∧
      ∀ x < width, ∀ y < height, ∃ call ∈ calls, call.Covers x y) ∨
    ∃ e, IsDecodeError e ∧ checkedTiles pf target data = raise e ∧
      zrleTiles pf target data = .error e := by
  have hroom : width * height * pf.bypp ≤ backing.length := by
    by_contra hsmall
    unfold RectBuffer.create at hcreate
    rw [if_pos (Nat.not_le.mp hsmall)] at hcreate
    cases hcreate
  obtain ⟨hcreated, hblank⟩ := RectBuffer.shows_create hroom
  obtain rfl := Except.ok.inj (hcreated.symm.trans hcreate)
  -- The checked loop and the decoder go the same way; what it wrote is read off the decoder.
  have hagrees : Agrees IsDecodeError (fun p target' => p = (target', data.length))
      (checkedTiles pf { width, height, bypp := pf.bypp, backing } data)
      (zrleTiles pf { width, height, bypp := pf.bypp, backing } data) :=
    agrees_tiles hblank.valid rfl data
  cases hplain : zrleTiles pf { width, height, bypp := pf.bypp, backing } data with
  | error e =>
    rw [hplain] at hagrees
    refine .inr ⟨e, ?_⟩
    generalize checkedTiles pf { width, height, bypp := pf.bypp, backing } data = c at hagrees ⊢
    cases hagrees with
    | raised hgood => exact ⟨hgood, rfl, rfl⟩
  | ok target' =>
    rw [hplain] at hagrees
    have hwritten := hplain
    unfold zrleTiles at hwritten
    obtain ⟨⟨last, rest⟩, hloop, hend⟩ := Fallible.bind_eq_ok.mp hwritten
    obtain ⟨calls, rfl, hallowed, hcovered⟩ := zrleTiles_write hblank hloop
    obtain rfl : target' = calls.foldl BufferCall.after _ := by
      dsimp only at hend
      split_ifs at hend
      exact (Except.ok.inj hend).symm
    refine .inl ⟨calls, ?_, rfl, hallowed, fun x hx y hy => ?_⟩
    · generalize checkedTiles pf { width, height, bypp := pf.bypp, backing } data = c at hagrees ⊢
      cases hagrees with
      | ok hsame => rw [hsame]
    · obtain ⟨tile, htile, hinside⟩ := exists_tile (by decide : 0 < zrleTileSize) hx hy
      obtain ⟨call, hcall, hwrites⟩ := hcovered tile htile
      exact ⟨call, hcall, hwrites x y hinside⟩

/-- A rectangle of one pixel, and data that is too short for it. -/
theorem zrle_total_short :
    let target : RectBuffer := { width := 1, height := 1, bypp := 4, backing := [0, 0, 0, 0] }
    (∃ calls : List BufferCall,
      checkedTiles {} target [1, 7] = .ok (calls.foldl BufferCall.after target, 2) ∧
      zrleTiles {} target [1, 7] = .ok (calls.foldl BufferCall.after target) ∧
      (∀ call ∈ calls, call.Allowed target) ∧
      ∀ x < 1, ∀ y < 1, ∃ call ∈ calls, call.Covers x y) ∨
    ∃ e, IsDecodeError e ∧ checkedTiles {} target [1, 7] = raise e ∧
      zrleTiles {} target [1, 7] = .error e :=
  zrle_total (show RectBuffer.create 1 1 4 [0, 0, 0, 0] = .ok _ from rfl) [1, 7]

end Decoders

end VncDoTool
