import Chip8.Outcome
import Chip8.Proofs.Screen.Cells
import Chip8.Screen.Image
import Mathlib.Algebra.Group.Nat.Even
import Mathlib.Data.Int.ModEq

/-! # Pixels are toggle parities

    A screen is called to toggle a pixel, to clear, to present a frame, to say whether a pixel
    is lit, and to make an image (**`Call`**); a call that fails leaves it as it is.  What it
    shows after any calls is all in the points toggled since it was last cleared
    (**`toggled`**): a pixel is lit exactly if an odd number of them name it
    (**`pixels_are_toggle_parity`**). -/

namespace Chip8.Screen

/-- What a screen is called to do. -/
inductive Call where
  | toggle (x y : Int)
  | clear
  | present
  | lit (x y : Int)
  | image (scale : Int) (flipped : Bool) (red green blue : Int)
  deriving DecidableEq, Repr

/-- The screen after a call. -/
def performed (s : Screen) : Call → Screen
  | .toggle x y =>
      match s.toggle x y with
      | .ok (toggled, _) => toggled
      | .error _         => s
  | .clear   => s.clear
  | .present => s.present
  | .lit ..  => s
  | .image .. => s

/-- The screen after calls. -/
def after (s : Screen) (calls : List Call) : Screen := calls.foldl performed s

/-- The points toggled since the screen was last cleared, after one more call. -/
def toggledBy (points : List (Int × Int)) : Call → List (Int × Int)
  | .toggle x y => points ++ [(x, y)]
  | .clear      => []
  | _           => points

/-- The points toggled since the screen was last cleared. -/
def toggled (calls : List Call) : List (Int × Int) := calls.foldl toggledBy []

/-- How many points name the pixel at `(x, y)` when coordinates wrap around the sides. -/
def hits (columns rows x y : Int) (points : List (Int × Int)) : Nat :=
  points.countP fun p => p.1 ≡ x [ZMOD columns] ∧ p.2 ≡ y [ZMOD rows]

variable {s s' : Screen} {points points' : List (Int × Int)}

/-! ## The points toggled -/

theorem toggled_perm {calls : List Call} (h : points.Perm points') :
    (calls.foldl toggledBy points).Perm (calls.foldl toggledBy points') := by
  induction calls generalizing points points' with
  | nil => exact h
  | cons call rest ih =>
      refine ih ?_
      cases call with
      | toggle x y => exact h.append_right _
      | clear => exact List.Perm.refl _
      | present => exact h
      | lit x y => exact h
      | image scale flipped red green blue => exact h

def Call.point? : Call → Option (Int × Int)
  | .toggle x y => some (x, y)
  | _           => none

theorem toggled_of_not_cleared {calls : List Call} (h : .clear ∉ calls) :
    calls.foldl toggledBy points = points ++ calls.filterMap Call.point? := by
  induction calls generalizing points with
  | nil => exact (List.append_nil _).symm
  | cons call rest ih =>
      rw [List.foldl_cons, ih (List.not_mem_of_not_mem_cons h)]
      cases call with
      | toggle x y => exact List.append_assoc ..
      | clear => exact absurd List.mem_cons_self h
      | present => rfl
      | lit x y => rfl
      | image scale flipped red green blue => rfl

/-- Calls among which none clears may come in any order. -/
theorem toggled_reordered (before later : List Call) {calls calls' : List Call}
    (h : .clear ∉ calls) (hperm : calls.Perm calls') :
    (toggled (before ++ calls ++ later)).Perm (toggled (before ++ calls' ++ later)) := by
  have h' : .clear ∉ calls' := fun hmem => h (hperm.mem_iff.2 hmem)
  rw [toggled, toggled]
  simp only [List.foldl_append, toggled_of_not_cleared h, toggled_of_not_cleared h']
  exact toggled_perm ((hperm.filterMap _).append_left _)

/-! ## Parities -/

/-- A bitmap shows the parity of how often points name its pixels. -/
structure Shows (columns rows : Int) (points : List (Int × Int)) (s : Screen) : Prop where
  bitmap : s.Bitmap
  columns_eq : (s.columns : Int) = columns
  rows_eq : (s.rows : Int) = rows
  cell_eq : ∀ x y, s.cell x y = if Odd (hits columns rows x y points) then 1 else 0

variable {host : HostMemory} {columns rows : Int}

/-- What a byte that is a parity says when it is read, and when it is flipped. -/
theorem parity_byte (odd : Prop) [Decidable odd] :
    ((if odd then 1 else 0 : UInt8) != 0) = decide odd ∧
      ((if odd then 1 else 0 : UInt8) ^^^ 1 == 0) = decide odd := by
  by_cases hodd : odd
  · rw [if_pos hodd, decide_eq_true hodd]
    exact ⟨rfl, rfl⟩
  · rw [if_neg hodd, decide_eq_false hodd]
    exact ⟨rfl, rfl⟩

theorem Shows.lit_eq (h : s.Shows columns rows points) (x y : Int) :
    s.lit x y = .ok (decide (Odd (hits columns rows x y points))) := by
  rw [h.bitmap.lit_eq, h.cell_eq, (parity_byte _).1]

theorem Shows.toggle_eq (h : s.Shows columns rows points) (x y : Int) :
    s.toggle x y = .ok (s.flip x y, decide (Odd (hits columns rows x y points))) := by
  rw [h.bitmap.toggle_eq, h.cell_eq, (parity_byte _).2]

theorem hits_append_singleton (x y : Int) (p : Int × Int) :
    hits columns rows x y (points ++ [p])
      = hits columns rows x y points
        + if p.1 ≡ x [ZMOD columns] ∧ p.2 ≡ y [ZMOD rows] then 1 else 0 := by
  simp only [hits, List.countP_append, List.countP_singleton, decide_eq_true_eq]

theorem Shows.flip (h : s.Shows columns rows points) (a b : Int) :
    (s.flip a b).Shows columns rows (points ++ [(a, b)]) where
  bitmap := h.bitmap.flip a b
  columns_eq := h.columns_eq
  rows_eq := h.rows_eq
  cell_eq := by
    intro x y
    have hsame : (a % s.columns = x % s.columns ∧ b % s.rows = y % s.rows)
        ↔ (a ≡ x [ZMOD columns] ∧ b ≡ y [ZMOD rows]) := by
      rw [Int.ModEq, Int.ModEq, h.columns_eq, h.rows_eq]
    rw [h.bitmap.cell_flip, h.cell_eq, hits_append_singleton]
    by_cases hnamed : a ≡ x [ZMOD columns] ∧ b ≡ y [ZMOD rows]
    · rw [if_pos (hsame.2 hnamed), if_pos hnamed]
      by_cases hodd : Odd (hits columns rows x y points)
      · rw [if_pos hodd, if_neg (Nat.not_odd_iff_even.2 hodd.add_one)]
        rfl
      · rw [if_neg hodd, if_pos (Nat.not_odd_iff_even.1 hodd).add_one]
        rfl
    · rw [if_neg (fun hp => hnamed (hsame.1 hp)), if_neg hnamed, Nat.add_zero]

theorem Bitmap.cell_eq_zero (w : s.Bitmap) {n : Nat} (h : s.pixels = Array.replicate n 0)
    (x y : Int) : s.cell x y = 0 := by
  have hcell := Array.mem_of_getElem? (w.getElem?_place x y)
  rw [h] at hcell
  exact Array.eq_of_mem_replicate hcell

theorem Shows.clear (h : s.Shows columns rows points) : s.clear.Shows columns rows [] where
  bitmap := h.bitmap.clear
  columns_eq := h.columns_eq
  rows_eq := h.rows_eq
  cell_eq := h.bitmap.clear.cell_eq_zero rfl

theorem shows_dark (hc : 1 ≤ columns) (hr : 1 ≤ rows) :
    (dark columns.toNat rows.toNat).Shows columns rows [] where
  bitmap := bitmap_dark (by omega) (by omega)
  columns_eq := Int.toNat_of_nonneg (by omega)
  rows_eq := Int.toNat_of_nonneg (by omega)
  cell_eq := (bitmap_dark (by omega) (by omega)).cell_eq_zero rfl

/-- One call keeps the parities. -/
theorem Shows.performed (h : s.Shows columns rows points) (call : Call) :
    (s.performed call).Shows columns rows (toggledBy points call) := by
  cases call with
  | toggle x y =>
      rw [Screen.performed, h.toggle_eq]
      exact h.flip x y
  | clear => exact h.clear
  | present => exact { h with bitmap := h.bitmap.present }
  | lit x y => exact h
  | image scale flipped red green blue => exact h

theorem Shows.after (h : s.Shows columns rows points) (calls : List Call) :
    (s.after calls).Shows columns rows (calls.foldl toggledBy points) := by
  induction calls generalizing s points with
  | nil => exact h
  | cons call rest ih => exact ih (h.performed call)

/-! ## All pixels -/

theorem Shows.pixels_eq (h : s.Shows columns rows points) (h' : s'.Shows columns rows points')
    (hperm : points.Perm points') : s'.pixels = s.pixels := by
  have hcolumns : s'.columns = s.columns :=
    Int.ofNat_inj.1 (h'.columns_eq.trans h.columns_eq.symm)
  have hrows : s'.rows = s.rows := Int.ofNat_inj.1 (h'.rows_eq.trans h.rows_eq.symm)
  refine h.bitmap.pixels_eq h'.bitmap hcolumns hrows fun x y => ?_
  rw [h.cell_eq, h'.cell_eq, hits, hits, hperm.countP_eq]

/-- **THE LIT PIXELS** are as many as the cells that an odd number of points name. -/
theorem Shows.litCount_eq (h : s.Shows columns rows points) :
    s.litCount
      = ((Finset.range columns.toNat ×ˢ Finset.range rows.toNat).filter fun cell =>
          Odd (hits columns rows cell.1 cell.2 points)).card := by
  have hcolumns : columns.toNat = s.columns := by
    rw [← h.columns_eq, Int.toNat_natCast]
  have hrows : rows.toNat = s.rows := by
    rw [← h.rows_eq, Int.toNat_natCast]
  rw [h.bitmap.litCount_eq, hcolumns, hrows, litCells, cells]
  refine congrArg Finset.card (Finset.filter_congr fun cell _ => ?_)
  rw [← bne_iff_ne, h.cell_eq, (parity_byte _).1, decide_eq_true_iff]

/-! ## Sides -/

/-- A call leaves a screen as it is, or with other pixels, stale, and perhaps one frame on. -/
theorem performed_cases (s : Screen) (call : Call) :
    s.performed call = s ∨
    ∃ pixels frames, s.performed call = { s with pixels, frames, stale := true } := by
  cases call with
  | toggle x y =>
      simp only [performed]
      cases htoggle : s.toggle x y with
      | error e => exact Or.inl rfl
      | ok r =>
          rw [toggle] at htoggle
          split at htoggle
          · cases htoggle
          · split at htoggle
            · cases htoggle
            · cases htoggle
              exact Or.inr ⟨_, s.frames, rfl⟩
  | clear => exact Or.inr ⟨_, s.frames, rfl⟩
  | present => exact Or.inr ⟨s.pixels, _, rfl⟩
  | lit x y => exact Or.inl rfl
  | image scale flipped red green blue => exact Or.inl rfl

theorem sides_performed (s : Screen) (call : Call) :
    (s.performed call).columns = s.columns ∧ (s.performed call).rows = s.rows := by
  rcases s.performed_cases call with hsame | ⟨pixels, frames, hpainted⟩
  · rw [hsame]
    exact ⟨rfl, rfl⟩
  · rw [hpainted]
    exact ⟨rfl, rfl⟩

theorem sides_after (s : Screen) (calls : List Call) :
    (s.after calls).columns = s.columns ∧ (s.after calls).rows = s.rows := by
  induction calls generalizing s with
  | nil => exact ⟨rfl, rfl⟩
  | cons call rest ih =>
      obtain ⟨hcolumns, hrows⟩ := ih (s.performed call)
      obtain ⟨hcolumns', hrows'⟩ := s.sides_performed call
      exact ⟨hcolumns.trans hcolumns', hrows.trans hrows'⟩

/-- Where a side has no pixels, coordinates cannot wrap around it. -/
theorem toggle_of_empty (h : s.columns = 0 ∨ s.rows = 0) (x y : Int) :
    s.toggle x y = .error .empty ∧ s.lit x y = .error .empty := by
  rw [toggle, lit, if_pos h, if_pos h]
  exact ⟨rfl, rfl⟩

theorem eq_dark_of_make (h : make host columns rows = .ok s) :
    s = dark columns.toNat rows.toNat := by
  obtain ⟨_, -, hbytes⟩ := exists_of_mapError_bind h
  obtain ⟨_, -, hdark⟩ := exists_of_mapError_bind hbytes
  exact (Except.ok.inj hdark).symm

/-! ## Histories -/

/-- **PIXELS ARE TOGGLE PARITIES.**  Of a screen made with any sides, after any calls:

    * if both sides have pixels, a pixel is lit exactly if an odd number of the points
      toggled since the screen was last cleared name it; toggling it answers whether it was,
      and changes no other pixel; so many pixels are lit as there are cells that an odd
      number of points name; and calls among which none clears may come in any order;
    * if a side has no pixels, there is no toggling and no telling what is lit, and asking
      for it changes nothing. -/
theorem pixels_are_toggle_parity (h : make host columns rows = .ok s) (calls : List Call) :
    let d := s.after calls
    let odd (x y : Int) : Bool := decide (Odd (hits columns rows x y (toggled calls)))
    (1 ≤ columns → 1 ≤ rows →
      (∀ x y, d.lit x y = .ok (odd x y)) ∧
      (∀ x y, d.toggle x y = .ok (d.performed (.toggle x y), odd x y) ∧
        ∀ i, i ≠ d.place x y → (d.performed (.toggle x y)).pixels[i]? = d.pixels[i]?) ∧
      d.litCount
        = ((Finset.range columns.toNat ×ˢ Finset.range rows.toNat).filter fun cell =>
            odd cell.1 cell.2).card ∧
      ∀ before between between' later, calls = before ++ between ++ later →
        .clear ∉ between → between.Perm between' →
        (s.after (before ++ between' ++ later)).pixels = d.pixels) ∧
    (columns = 0 ∨ rows = 0 → ∀ x y,
      d.toggle x y = .error .empty ∧ d.lit x y = .error .empty ∧
        d.performed (.toggle x y) = d) := by
  intro d odd
  have hs := eq_dark_of_make h
  refine ⟨?_, ?_⟩
  · intro hc hr
    have hdark := shows_dark hc hr
    rw [← hs] at hdark
    have hd : d.Shows columns rows (toggled calls) := hdark.after calls
    refine ⟨hd.lit_eq, ?_, ?_, ?_⟩
    · intro x y
      have hflip : d.performed (.toggle x y) = d.flip x y := by
        rw [performed, hd.toggle_eq]
      rw [hflip]
      refine ⟨hd.toggle_eq x y, ?_⟩
      intro i hi
      exact Array.getElem?_setIfInBounds_ne hi.symm
    · refine hd.litCount_eq.trans (congrArg Finset.card (Finset.filter_congr ?_))
      intro cell _
      exact decide_eq_true_iff.symm
    · intro before between between' later hcalls hclear hperm
      have hd' := hdark.after (before ++ between' ++ later)
      refine hd.pixels_eq hd' ?_
      rw [hcalls]
      exact toggled_reordered before later hclear hperm
  · intro hside x y
    have hd : d.columns = 0 ∨ d.rows = 0 := by
      obtain ⟨hcolumns, hrows⟩ := s.sides_after calls
      rw [hcolumns, hrows, hs]
      exact hside.imp (by rintro rfl; rfl) (by rintro rfl; rfl)
    obtain ⟨htoggle, hlit⟩ := toggle_of_empty hd x y
    refine ⟨htoggle, hlit, ?_⟩
    rw [performed, htoggle]

/-- On a screen of three by two, coordinates beyond its sides name a pixel three times and
    another once, before and after the calls change places; a screen without columns. -/
theorem toggled_beyond_the_sides :
    let s := dark 3 2
    let points : List Call := [.toggle 4 (-1), .toggle (-2) 1, .toggle 7 3]
    let d := s.after (.toggle 0 0 :: .clear :: (points ++ [.toggle 3 8, .present]))
    make .boundless 3 2 = .ok s ∧ d.lit 1 (-5) = .ok true ∧ d.lit 2 0 = .ok false ∧ d.litCount = 2 ∧
      d.toggle 10 1 = .ok (d.performed (.toggle 10 1), true) ∧
      (s.after (.toggle 0 0 :: .clear :: (points.reverse ++ [.toggle 3 8, .present]))).pixels
        = d.pixels ∧
      make .boundless 0 5 = .ok (dark 0 5) ∧
      ((dark 0 5).after points).toggle 1 1 = .error .empty := by
  intro s points d
  have hmake : make .boundless 3 2 = .ok s := rfl
  have hmake' : make .boundless 0 5 = .ok (dark 0 5) := rfl
  obtain ⟨hsides, _⟩ := pixels_are_toggle_parity hmake
    (.toggle 0 0 :: .clear :: (points ++ [.toggle 3 8, .present]))
  obtain ⟨hlit, htoggle, hcount, horder⟩ := hsides (by decide) (by decide)
  obtain ⟨_, hempty⟩ := pixels_are_toggle_parity hmake' points
  have hodd : decide (Odd (hits 3 2 10 1
      (toggled (.toggle 0 0 :: .clear :: (points ++ [.toggle 3 8, .present]))))) = true := by
    decide
  refine ⟨hmake, (hlit 1 (-5)).trans (congrArg Except.ok (by decide)),
    (hlit 2 0).trans (congrArg Except.ok (by decide)), hcount.trans (by decide), ?_, ?_, hmake',
    (hempty (Or.inl rfl) 1 1).1⟩
  · exact hodd ▸ (htoggle 10 1).1
  · exact horder [.toggle 0 0, .clear] points points.reverse [.toggle 3 8, .present] rfl
      (by decide) points.reverse_perm.symm

end Chip8.Screen
