import Mathlib.Data.Finset.Prod
import Mathlib.Data.Finset.SymmDiff
import Mathlib.Data.Nat.Count
import Chip8.Proofs.Screen.Flip

/-! # Bitmaps as sets of cells

    A bitmap is known from its cells (**`Bitmap.pixels_eq`**), and as many pixels are lit as
    cells are (**`Bitmap.litCount_eq`**).

    Points no two of which name the same cell flip a set of cells, each of them once
    (**`Bitmap.flipAll_eq`**).  They erase something exactly if one of the cells was lit
    (**`Bitmap.erases_iff`**), and leave lit what was lit or flipped but not both
    (**`Bitmap.litCells_flipCells`**).  Sets flipped one after the other may come in any order
    (**`Bitmap.flipEach_perm`**). -/

namespace Chip8.Screen

/-- The cell, counted from the top left corner, that coordinates name when they wrap around the
    sides. -/
def wrap (s : Screen) (p : Int × Int) : Nat × Nat :=
  ((p.1 % s.columns).toNat, (p.2 % s.rows).toNat)

def cells (s : Screen) : Finset (Nat × Nat) := Finset.range s.columns ×ˢ Finset.range s.rows

def litCells (s : Screen) : Finset (Nat × Nat) :=
  s.cells.filter fun c => s.cell c.1 c.2 ≠ 0

/-- The screen with every cell of a set flipped. -/
def flipCells (s : Screen) (flipped : Finset (Nat × Nat)) : Screen :=
  { s with
    pixels := s.pixels.mapIdx fun i byte =>
      if (i % s.columns, i / s.columns) ∈ flipped then byte ^^^ 1 else byte
    stale := s.stale || decide flipped.Nonempty }

variable {s s' : Screen} {points : List (Int × Int)} {flipped : Finset (Nat × Nat)}

/-! ## Places and cells -/

theorem cell_of_place {columns x : Nat} (hx : x < columns) (y : Nat) :
    (y * columns + x) % columns = x ∧ (y * columns + x) / columns = y := by
  have hpos : 0 < columns := Nat.lt_of_le_of_lt (Nat.zero_le x) hx
  refine ⟨Nat.mul_add_mod_of_lt hx, ?_⟩
  rw [Nat.add_comm, Nat.add_mul_div_right _ _ hpos, Nat.div_eq_of_lt hx, Nat.zero_add]

/-- A pixel is the one at its own column and row. -/
theorem getElem_eq_cell (i : Nat) (hi : i < s.pixels.size) (w : s.Bitmap) :
    s.pixels[i] = s.cell (i % s.columns : Nat) (i / s.columns : Nat) := by
  have hsize : s.pixels.size = s.rows * s.columns := w.complete
  have hpos : 0 < s.columns := Nat.pos_of_ne_zero w.columns_ne_zero
  have hrow : i / s.columns < s.rows := Nat.div_lt_of_lt_mul (by rw [Nat.mul_comm]; omega)
  have hplace : s.place (i % s.columns : Nat) (i / s.columns : Nat) = i := by
    rw [place, ← Int.natCast_mod, ← Int.natCast_mod, Int.toNat_natCast, Int.toNat_natCast,
      Nat.mod_mod, Nat.mod_eq_of_lt hrow, Nat.div_add_mod']
  rw [cell, hplace, Array.getD_eq_getD_getElem?, Array.getElem?_eq_getElem hi, Option.getD_some]

/-- Bitmaps with the same sides and the same cells have the same pixels. -/
theorem Bitmap.pixels_eq (w : s.Bitmap) (w' : s'.Bitmap) (hcolumns : s'.columns = s.columns)
    (hrows : s'.rows = s.rows) (hcell : ∀ x y : Int, s'.cell x y = s.cell x y) :
    s'.pixels = s.pixels := by
  have hsize : s'.pixels.size = s.pixels.size := by
    rw [show s'.pixels.size = _ from w'.complete, hrows, hcolumns]
    exact w.complete.symm
  refine Array.ext hsize ?_
  intro i hi' hi
  rw [getElem_eq_cell i hi' w', getElem_eq_cell i hi w, hcolumns, hcell]

theorem Bitmap.wrap_mem_cells (w : s.Bitmap) (p : Int × Int) : s.wrap p ∈ s.cells := by
  have hc : (0 : Int) < s.columns := Int.natCast_pos.2 (Nat.pos_of_ne_zero w.columns_ne_zero)
  have hr : (0 : Int) < s.rows := Int.natCast_pos.2 (Nat.pos_of_ne_zero w.rows_ne_zero)
  refine Finset.mem_product.2 ⟨Finset.mem_range.2 ?_, Finset.mem_range.2 ?_⟩
  · exact (Int.toNat_lt (Int.emod_nonneg _ (Int.ne_of_gt hc))).2 (Int.emod_lt_of_pos _ hc)
  · exact (Int.toNat_lt (Int.emod_nonneg _ (Int.ne_of_gt hr))).2 (Int.emod_lt_of_pos _ hr)

/-- Coordinates name one cell exactly if they are congruent. -/
theorem Bitmap.wrap_eq_wrap_iff (w : s.Bitmap) (p q : Int × Int) :
    s.wrap p = s.wrap q ↔ p.1 % s.columns = q.1 % s.columns ∧ p.2 % s.rows = q.2 % s.rows := by
  have hc : (s.columns : Int) ≠ 0 := Int.natCast_ne_zero.2 w.columns_ne_zero
  have hr : (s.rows : Int) ≠ 0 := Int.natCast_ne_zero.2 w.rows_ne_zero
  have h₁ := Int.emod_nonneg p.1 hc
  have h₂ := Int.emod_nonneg q.1 hc
  have h₃ := Int.emod_nonneg p.2 hr
  have h₄ := Int.emod_nonneg q.2 hr
  rw [wrap, wrap, Prod.mk.injEq]
  omega

theorem Bitmap.cell_wrap (w : s.Bitmap) (p : Int × Int) :
    s.cell (s.wrap p).1 (s.wrap p).2 = s.cell p.1 p.2 := by
  have hc : (s.columns : Int) ≠ 0 := Int.natCast_ne_zero.2 w.columns_ne_zero
  have hr : (s.rows : Int) ≠ 0 := Int.natCast_ne_zero.2 w.rows_ne_zero
  have hplace : s.place (s.wrap p).1 (s.wrap p).2 = s.place p.1 p.2 := by
    refine (w.place_eq_place_iff _ _ _ _).2 ⟨?_, ?_⟩
    · rw [wrap, Int.toNat_of_nonneg (Int.emod_nonneg _ hc), Int.emod_emod_of_dvd _ (dvd_refl _)]
    · rw [wrap, Int.toNat_of_nonneg (Int.emod_nonneg _ hr), Int.emod_emod_of_dvd _ (dvd_refl _)]
  rw [cell, cell, hplace]

theorem Bitmap.wrap_mem_litCells (w : s.Bitmap) (p : Int × Int) :
    s.wrap p ∈ s.litCells ↔ s.cell p.1 p.2 ≠ 0 := by
  rw [litCells, Finset.mem_filter, w.cell_wrap p]
  exact and_iff_right (w.wrap_mem_cells p)

/-- A cell of the screen is the one that its own column and row name. -/
theorem wrap_of_mem_cells {c : Nat × Nat} (hc : c ∈ s.cells) : s.wrap (c.1, c.2) = c := by
  obtain ⟨hx, hy⟩ := Finset.mem_product.1 hc
  have hx : c.1 < s.columns := Finset.mem_range.1 hx
  have hy : c.2 < s.rows := Finset.mem_range.1 hy
  refine Prod.ext ?_ ?_
  · show ((c.1 : Int) % s.columns).toNat = c.1
    rw [← Int.natCast_mod, Int.toNat_natCast, Nat.mod_eq_of_lt hx]
  · show ((c.2 : Int) % s.rows).toNat = c.2
    rw [← Int.natCast_mod, Int.toNat_natCast, Nat.mod_eq_of_lt hy]

theorem Standard.cells_eq (w : s.Standard) :
    s.cells = Finset.range 64 ×ˢ Finset.range 32 := by
  rw [cells, w.columns_eq, w.rows_eq]
  rfl

theorem mem_litCells {c : Nat × Nat} (hc : c ∈ s.cells) :
    c ∈ s.litCells ↔ s.cell c.1 c.2 ≠ 0 :=
  Finset.mem_filter.trans (and_iff_right hc)

theorem litCells_dark (columns rows : Nat) : (dark columns rows).litCells = ∅ := by
  refine Finset.filter_eq_empty_iff.2 fun c _ => not_not.2 ?_
  rw [cell, Array.getD_eq_getD_getElem?, dark, Array.getElem?_replicate]
  split <;> rfl

theorem Bitmap.lit_eq_decide (w : s.Bitmap) {c : Nat × Nat} (hc : c ∈ s.cells) :
    s.lit c.1 c.2 = .ok (decide (c ∈ s.litCells)) := by
  rw [w.lit_eq, Except.ok.injEq, Bool.eq_iff_iff, bne_iff_ne, decide_eq_true_iff]
  exact (mem_litCells hc).symm

/-- Bitmaps on which the same cells are lit have the same pixels. -/
theorem Bitmap.pixels_eq_of_litCells (w : s.Bitmap) (w' : s'.Bitmap)
    (hcolumns : s'.columns = s.columns) (hrows : s'.rows = s.rows)
    (hlit : s'.litCells = s.litCells) : s'.pixels = s.pixels := by
  refine w.pixels_eq w' hcolumns hrows fun x y => ?_
  have hwrap : s'.wrap (x, y) = s.wrap (x, y) := by
    rw [wrap, wrap, hcolumns, hrows]
  have hiff : s'.cell x y ≠ 0 ↔ s.cell x y ≠ 0 := by
    rw [← w'.wrap_mem_litCells (x, y), ← w.wrap_mem_litCells (x, y), hlit, hwrap]
  rcases w.cell_binary x y with hdark | hlit
  · rw [hdark]
    exact not_not.1 (mt hiff.1 (not_not.2 hdark))
  · have hne : s'.cell x y ≠ 0 := hiff.2 (by rw [hlit]; decide)
    rw [hlit]
    exact (w'.cell_binary x y).resolve_left hne

/-! ## Counting -/

theorem countP_eq_card (s : Screen) (p : UInt8 → Bool) :
    s.pixels.countP p
      = ((Finset.range s.pixels.size).filter fun i => p (s.pixels.getD i 0) = true).card := by
  have hlist : s.pixels.toList = (List.range s.pixels.size).map (s.pixels.getD · 0) := by
    refine List.ext_getElem (by simp only [Array.length_toList, List.length_map,
      List.length_range]) ?_
    intro i hi _
    have hsize : i < s.pixels.size := by
      rw [← Array.length_toList]
      exact hi
    rw [Array.getElem_toList, List.getElem_map, List.getElem_range,
      Array.getD_eq_getD_getElem?, Array.getElem?_eq_getElem hsize, Option.getD_some]
  rw [← Array.countP_toList, hlist, List.countP_map, ← Nat.count_eq_card_filter_range, Nat.count]
  refine List.countP_congr ?_
  intro i _
  simp only [Function.comp_apply, decide_eq_true_eq]

/-- **THE LIT PIXELS** are as many as the lit cells. -/
theorem Bitmap.litCount_eq (w : s.Bitmap) : s.litCount = s.litCells.card := by
  have hsize : s.pixels.size = s.rows * s.columns := w.complete
  have hpos : 0 < s.columns := Nat.pos_of_ne_zero w.columns_ne_zero
  have hlit (i : Nat) (hi : i < s.pixels.size) : (s.pixels.getD i 0 != 0) = true ↔
      s.cell (i % s.columns : Nat) (i / s.columns : Nat) ≠ 0 := by
    rw [Array.getD_eq_getD_getElem?, Array.getElem?_eq_getElem hi, Option.getD_some,
      getElem_eq_cell i hi w, bne_iff_ne]
  rw [litCount, countP_eq_card]
  -- places and cells answer to each other by division
  refine Finset.card_nbij' (fun i => (i % s.columns, i / s.columns))
    (fun c => c.2 * s.columns + c.1) ?_ ?_ ?_ ?_
  · intro i hi
    obtain ⟨hrange, hone⟩ := Finset.mem_filter.1 hi
    have hplace : i < s.pixels.size := Finset.mem_range.1 hrange
    have hrow : i / s.columns < s.rows := Nat.div_lt_of_lt_mul (by rw [Nat.mul_comm]; omega)
    refine Finset.mem_filter.2 ⟨Finset.mem_product.2 ⟨?_, ?_⟩, (hlit i hplace).1 hone⟩
    · exact Finset.mem_range.2 (Nat.mod_lt i hpos)
    · exact Finset.mem_range.2 hrow
  · rintro ⟨x, y⟩ hcell
    obtain ⟨hrange, hone⟩ := Finset.mem_filter.1 hcell
    obtain ⟨hx, hy⟩ := Finset.mem_product.1 hrange
    have hx : x < s.columns := Finset.mem_range.1 hx
    have hy : y < s.rows := Finset.mem_range.1 hy
    have hplace : y * s.columns + x < s.pixels.size := by
      rw [hsize]
      calc y * s.columns + x < y * s.columns + s.columns := Nat.add_lt_add_left hx _
        _ = (y + 1) * s.columns := (Nat.succ_mul _ _).symm
        _ ≤ s.rows * s.columns := Nat.mul_le_mul_right _ hy
    refine Finset.mem_filter.2 ⟨Finset.mem_range.2 hplace, (hlit _ hplace).2 ?_⟩
    rw [(cell_of_place hx y).1, (cell_of_place hx y).2]
    exact hone
  · intro i _
    exact Nat.div_add_mod' ..
  · rintro ⟨x, y⟩ hcell
    have hx : x < s.columns :=
      Finset.mem_range.1 (Finset.mem_product.1 (Finset.mem_filter.1 hcell).1).1
    exact congrArg₂ Prod.mk (cell_of_place hx y).1 (cell_of_place hx y).2

/-! ## Flipping a set of cells -/

theorem Bitmap.flipped_ne_zero_iff (w : s.Bitmap) (x y : Int) :
    s.cell x y ^^^ 1 ≠ 0 ↔ s.cell x y = 0 := by
  rcases w.cell_binary x y with h0 | h1
  · rw [h0]
    decide
  · rw [h1]
    decide

theorem Bitmap.cell_flipCells (w : s.Bitmap) (flipped : Finset (Nat × Nat)) (x y : Int) :
    (s.flipCells flipped).cell x y
      = if s.wrap (x, y) ∈ flipped then s.cell x y ^^^ 1 else s.cell x y := by
  have hcolumn := (Finset.mem_product.1 (w.wrap_mem_cells (x, y))).1
  obtain ⟨hmod, hdiv⟩ := cell_of_place (Finset.mem_range.1 hcolumn) (s.wrap (x, y)).2
  have hplace : s.place x y = (s.wrap (x, y)).2 * s.columns + (s.wrap (x, y)).1 := rfl
  have hpixel : (s.flipCells flipped).cell x y
      = ((s.flipCells flipped).pixels[s.place x y]?).getD 0 := Array.getD_eq_getD_getElem? ..
  rw [hpixel, flipCells, Array.getElem?_mapIdx, w.getElem?_place, Option.map_some,
    Option.getD_some, hplace, hmod, hdiv]

theorem Bitmap.flipCells (w : s.Bitmap) (flipped : Finset (Nat × Nat)) :
    (s.flipCells flipped).Bitmap where
  columns_ne_zero := w.columns_ne_zero
  rows_ne_zero := w.rows_ne_zero
  complete := by
    show (s.pixels.mapIdx _).size = s.rows * s.columns
    rw [Array.size_mapIdx]
    exact w.complete
  binary := by
    intro byte h
    obtain ⟨i, hi, rfl⟩ := Array.mem_mapIdx.1 h
    split
    · rcases w.binary _ (Array.getElem_mem hi) with h0 | h1
      · exact Or.inr (by rw [h0]; rfl)
      · exact Or.inl (by rw [h1]; rfl)
    · exact w.binary _ (Array.getElem_mem hi)

theorem Bitmap.flipCells_empty (w : s.Bitmap) : s.flipCells ∅ = s := by
  have hpixels : (s.flipCells ∅).pixels = s.pixels := by
    refine w.pixels_eq (w.flipCells ∅) rfl rfl fun x y => ?_
    rw [w.cell_flipCells, if_neg (Finset.notMem_empty _)]
  show { s with
    pixels := (s.flipCells ∅).pixels
    stale := s.stale || false } = s
  rw [hpixels, Bool.or_false]

/-- A pixel whose cell is not in a set may be flipped along with it. -/
theorem Bitmap.flip_flipCells (w : s.Bitmap) {p : Int × Int} (hnew : s.wrap p ∉ flipped) :
    (s.flip p.1 p.2).flipCells flipped = s.flipCells (insert (s.wrap p) flipped) := by
  have wflip := w.flip p.1 p.2
  have hpixels : ((s.flip p.1 p.2).flipCells flipped).pixels
      = (s.flipCells (insert (s.wrap p) flipped)).pixels := by
    refine (w.flipCells _).pixels_eq (wflip.flipCells flipped) rfl rfl fun x y => ?_
    have hwrap : (s.flip p.1 p.2).wrap (x, y) = s.wrap (x, y) := rfl
    have hsame := w.wrap_eq_wrap_iff p (x, y)
    rw [wflip.cell_flipCells, w.cell_flipCells, hwrap, w.cell_flip]
    by_cases hp : s.wrap p = s.wrap (x, y)
    · rw [if_pos (hsame.1 hp), ← hp, if_neg hnew, if_pos (Finset.mem_insert_self _ _)]
    · have hmem : s.wrap (x, y) ∈ insert (s.wrap p) flipped ↔ s.wrap (x, y) ∈ flipped :=
        Finset.mem_insert.trans (or_iff_right (Ne.symm hp))
      simp only [if_neg (mt hsame.2 hp), hmem]
  have hstale : decide (insert (s.wrap p) flipped).Nonempty = true :=
    decide_eq_true (Finset.insert_nonempty _ _)
  show { s with
    pixels := ((s.flip p.1 p.2).flipCells flipped).pixels
    stale := true || decide flipped.Nonempty } = { s with
    pixels := (s.flipCells (insert (s.wrap p) flipped)).pixels
    stale := s.stale || decide (insert (s.wrap p) flipped).Nonempty }
  rw [hpixels, hstale, Bool.true_or, Bool.or_true]

/-- **POINTS THAT NAME DIFFERENT CELLS** flip the set of these, each once. -/
theorem Bitmap.flipAll_eq (w : s.Bitmap) (hdistinct : (points.map s.wrap).Nodup) :
    s.flipAll points = s.flipCells (points.map s.wrap).toFinset := by
  induction points generalizing s with
  | nil => exact w.flipCells_empty.symm
  | cons p rest ih =>
      obtain ⟨hfirst, hrest⟩ := List.nodup_cons.1 hdistinct
      have hnew : s.wrap p ∉ (rest.map s.wrap).toFinset := mt List.mem_toFinset.1 hfirst
      rw [List.map_cons, List.toFinset_cons, ← w.flip_flipCells hnew]
      exact ih (w.flip p.1 p.2) hrest

/-- **WHAT IS ERASED**: something is exactly if one of the points names a lit cell. -/
theorem Bitmap.erases_iff (w : s.Bitmap) (hdistinct : (points.map s.wrap).Nodup) :
    s.erases points = true ↔ ∃ p ∈ points, s.wrap p ∈ s.litCells := by
  induction points generalizing s with
  | nil => simp [erases]
  | cons p rest ih =>
      obtain ⟨hfirst, hrest⟩ := List.nodup_cons.1 hdistinct
      have hlit : (s.cell p.1 p.2 ^^^ 1 == 0) = true ↔ s.wrap p ∈ s.litCells := by
        rw [beq_iff_eq, w.wrap_mem_litCells]
        exact (not_iff_comm.1 (w.flipped_ne_zero_iff p.1 p.2)).symm
      -- the points to come name other cells, which the first flip leaves as they are
      have hkept : ∀ q ∈ rest, (s.flip p.1 p.2).wrap q ∈ (s.flip p.1 p.2).litCells ↔
          s.wrap q ∈ s.litCells := by
        intro q hq
        have hne : s.wrap p ≠ s.wrap q := fun heq => hfirst (heq ▸ List.mem_map_of_mem hq)
        rw [(w.flip p.1 p.2).wrap_mem_litCells, w.wrap_mem_litCells, w.cell_flip,
          if_neg (mt (w.wrap_eq_wrap_iff p q).2 hne)]
      rw [List.exists_mem_cons_iff, erases, Bool.or_eq_true, hlit, ih (w.flip p.1 p.2) hrest]
      refine or_congr_right (exists_congr fun q => and_congr_right fun hq => ?_)
      exact hkept q hq

/-! ## What is lit afterwards -/

/-- **WHAT IS LIT AFTERWARDS** was lit or flipped, but not both. -/
theorem Bitmap.litCells_flipCells (w : s.Bitmap) (hsub : flipped ⊆ s.cells) :
    (s.flipCells flipped).litCells = symmDiff s.litCells flipped := by
  ext c
  have hlit : c ∈ (s.flipCells flipped).litCells ↔
      c ∈ s.cells ∧ (s.flipCells flipped).cell c.1 c.2 ≠ 0 := Finset.mem_filter
  rw [Finset.mem_symmDiff, hlit]
  by_cases hc : c ∈ s.cells
  · rw [mem_litCells hc, w.cell_flipCells, wrap_of_mem_cells hc]
    by_cases hflip : c ∈ flipped
    · rw [if_pos hflip, w.flipped_ne_zero_iff]
      tauto
    · rw [if_neg hflip]
      tauto
  · have hdark : c ∉ s.litCells := fun h => hc (Finset.mem_filter.1 h).1
    have hout : c ∉ flipped := fun h => hc (hsub h)
    tauto

theorem Bitmap.lit_flipCells (w : s.Bitmap) (hsub : flipped ⊆ s.cells) {c : Nat × Nat}
    (hc : c ∈ s.cells) :
    (s.flipCells flipped).lit c.1 c.2
      = .ok (decide (c ∈ s.litCells) ^^ decide (c ∈ flipped)) := by
  rw [(w.flipCells flipped).lit_eq_decide hc, w.litCells_flipCells hsub, Except.ok.injEq]
  simp only [Finset.mem_symmDiff]
  by_cases hlit : c ∈ s.litCells <;> by_cases hflip : c ∈ flipped <;> simp [hlit, hflip]

/-- **HOW MANY ARE LIT AFTERWARDS.** -/
theorem Bitmap.litCount_flipCells (w : s.Bitmap) (hsub : flipped ⊆ s.cells) :
    ((s.flipCells flipped).litCount : Int)
      = s.litCount + (flipped.card - 2 * (flipped ∩ s.litCells).card) := by
  have hunion : (symmDiff s.litCells flipped).card
      = (s.litCells \ flipped).card + (flipped \ s.litCells).card :=
    Finset.card_union_of_disjoint disjoint_sdiff_sdiff
  have hlit := Finset.card_sdiff_add_card_inter s.litCells flipped
  have hflipped := Finset.card_sdiff_add_card_inter flipped s.litCells
  rw [Finset.inter_comm] at hlit
  rw [(w.flipCells flipped).litCount_eq, w.litCount_eq, w.litCells_flipCells hsub, hunion]
  omega

/-- Flipping a set of cells again undoes it. -/
theorem Bitmap.flipCells_flipCells (w : s.Bitmap) (hsub : flipped ⊆ s.cells) :
    ((s.flipCells flipped).flipCells flipped).pixels = s.pixels := by
  have wonce := w.flipCells flipped
  refine w.pixels_eq_of_litCells (wonce.flipCells flipped) rfl rfl ?_
  rw [wonce.litCells_flipCells hsub, w.litCells_flipCells hsub, symmDiff_symmDiff_cancel_right]

/-- The cells of a set that are lit once it is flipped are those that were dark before. -/
theorem Bitmap.inter_litCells_flipCells (w : s.Bitmap) (hsub : flipped ⊆ s.cells) :
    flipped ∩ (s.flipCells flipped).litCells = flipped \ s.litCells := by
  rw [w.litCells_flipCells hsub]
  ext c
  rw [Finset.mem_inter, Finset.mem_symmDiff, Finset.mem_sdiff]
  tauto

/-! ## Sets flipped one after the other -/

/-- The screen with one set of cells flipped after the other. -/
def flipEach (s : Screen) (sets : List (Finset (Nat × Nat))) : Screen := sets.foldl flipCells s

theorem Bitmap.flipEach (w : s.Bitmap) (sets : List (Finset (Nat × Nat))) :
    (s.flipEach sets).Bitmap := by
  induction sets generalizing s with
  | nil => exact w
  | cons first rest ih => exact ih (w.flipCells first)

theorem sides_flipEach (s : Screen) (sets : List (Finset (Nat × Nat))) :
    (s.flipEach sets).columns = s.columns ∧ (s.flipEach sets).rows = s.rows := by
  induction sets generalizing s with
  | nil => exact ⟨rfl, rfl⟩
  | cons first rest ih => exact ih (s.flipCells first)

theorem Bitmap.litCells_flipEach (w : s.Bitmap) {sets : List (Finset (Nat × Nat))}
    (hsub : ∀ flipped ∈ sets, flipped ⊆ s.cells) :
    (s.flipEach sets).litCells = sets.foldl symmDiff s.litCells := by
  induction sets generalizing s with
  | nil => rfl
  | cons first rest ih =>
      obtain ⟨hfirst, hrest⟩ := List.forall_mem_cons.1 hsub
      rw [List.foldl_cons, ← w.litCells_flipCells hfirst]
      exact ih (w.flipCells first) hrest

/-- **THE ORDER DOES NOT MATTER** in which sets of cells are flipped. -/
theorem Bitmap.flipEach_perm (w : s.Bitmap) {sets sets' : List (Finset (Nat × Nat))}
    (hsub : ∀ flipped ∈ sets, flipped ⊆ s.cells) (hperm : sets.Perm sets') :
    (s.flipEach sets').pixels = (s.flipEach sets).pixels := by
  have hsub' : ∀ flipped ∈ sets', flipped ⊆ s.cells :=
    fun flipped hmem => hsub flipped (hperm.mem_iff.2 hmem)
  obtain ⟨hcolumns, hrows⟩ := s.sides_flipEach sets
  obtain ⟨hcolumns', hrows'⟩ := s.sides_flipEach sets'
  refine (w.flipEach sets).pixels_eq_of_litCells (w.flipEach sets')
    (hcolumns'.trans hcolumns.symm) (hrows'.trans hrows.symm) ?_
  rw [w.litCells_flipEach hsub, w.litCells_flipEach hsub', hperm.foldl_eq]

end Chip8.Screen
