import Chip8.Layout
import Chip8.Screen

/-! # Flipping pixels

    On a complete screen that has pixels, each of them 0 or 1 (a **`Bitmap`**), no toggle
    fails, so what drawing does to the screen is a function of the screen and of the points:

    * **`flip`** and **`flipAll`** are the screen after one toggle and after many,
    * **`erases`** says whether one of them leaves a dark pixel behind.

    **`Standard`** is what holds of the screen of a machine at all times. -/

namespace Chip8.Screen

def cell (s : Screen) (x y : Int) : UInt8 := s.pixels.getD (s.place x y) 0

/-- The screen with the pixel at wrapped coordinates flipped. -/
def flip (s : Screen) (x y : Int) : Screen :=
  { s with pixels := s.pixels.setIfInBounds (s.place x y) (s.cell x y ^^^ 1), stale := true }

def flipAll (s : Screen) : List (Int × Int) → Screen
  | []             => s
  | (x, y) :: rest => (s.flip x y).flipAll rest

/-- Whether flipping pixels one after the other turns one of them off. -/
def erases (s : Screen) : List (Int × Int) → Bool
  | []             => false
  | (x, y) :: rest => s.cell x y ^^^ 1 == 0 || (s.flip x y).erases rest

theorem flipAll_append (s : Screen) (points more : List (Int × Int)) :
    s.flipAll (points ++ more) = (s.flipAll points).flipAll more := by
  induction points generalizing s with
  | nil => rfl
  | cons p rest ih => exact ih (s.flip p.1 p.2)

theorem erases_append (s : Screen) (points more : List (Int × Int)) :
    s.erases (points ++ more) = (s.erases points || (s.flipAll points).erases more) := by
  induction points generalizing s with
  | nil => rfl
  | cons p rest ih => exact (congrArg _ (ih (s.flip p.1 p.2))).trans (Bool.or_assoc ..).symm

/-- A complete screen that has pixels, on which every pixel is 0 or 1. -/
structure Bitmap (s : Screen) : Prop where
  columns_ne_zero : s.columns ≠ 0
  rows_ne_zero : s.rows ≠ 0
  complete : s.Complete
  binary : ∀ byte ∈ s.pixels, byte = 0 ∨ byte = 1

/-- A screen of the machine's size, complete, on which every pixel is 0 or 1. -/
structure Standard (s : Screen) : Prop where
  columns_eq : s.columns = screenColumns
  rows_eq : s.rows = screenRows
  complete : s.Complete
  binary : ∀ byte ∈ s.pixels, byte = 0 ∨ byte = 1

variable {s : Screen}

theorem Standard.bitmap (w : s.Standard) : s.Bitmap where
  columns_ne_zero := by
    rw [w.columns_eq]
    decide
  rows_ne_zero := by
    rw [w.rows_eq]
    decide
  complete := w.complete
  binary := w.binary

theorem Bitmap.place_lt_size (w : s.Bitmap) (x y : Int) : s.place x y < s.pixels.size := by
  have hp := s.place_lt w.columns_ne_zero w.rows_ne_zero x y
  have hsize : s.pixels.size = s.rows * s.columns := w.complete
  omega

theorem Bitmap.getElem?_place (w : s.Bitmap) (x y : Int) :
    s.pixels[s.place x y]? = some (s.cell x y) := by
  have hp := w.place_lt_size x y
  rw [cell, Array.getD_eq_getD_getElem?, Array.getElem?_eq_getElem hp, Option.getD_some]

theorem Bitmap.cell_binary (w : s.Bitmap) (x y : Int) : s.cell x y = 0 ∨ s.cell x y = 1 :=
  w.binary _ (Array.mem_of_getElem? (w.getElem?_place x y))

/-! ## Bitmaps stay bitmaps -/

theorem binary_replicate {n : Nat} {byte : UInt8} (h : byte ∈ Array.replicate n (0 : UInt8)) :
    byte = 0 ∨ byte = 1 :=
  Or.inl (Array.eq_of_mem_replicate h)

theorem bitmap_dark {columns rows : Nat} (hc : columns ≠ 0) (hr : rows ≠ 0) :
    (dark columns rows).Bitmap where
  columns_ne_zero := hc
  rows_ne_zero := hr
  complete := complete_dark _ _
  binary := fun _ => binary_replicate

theorem Bitmap.clear (w : s.Bitmap) : s.clear.Bitmap where
  columns_ne_zero := w.columns_ne_zero
  rows_ne_zero := w.rows_ne_zero
  complete := complete_clear s
  binary := fun _ => binary_replicate

theorem Bitmap.present (w : s.Bitmap) : s.present.Bitmap := { w with }

theorem Bitmap.flip (w : s.Bitmap) (x y : Int) : (s.flip x y).Bitmap where
  columns_ne_zero := w.columns_ne_zero
  rows_ne_zero := w.rows_ne_zero
  complete := by
    show (s.pixels.setIfInBounds _ _).size = s.rows * s.columns
    rw [Array.size_setIfInBounds]
    exact w.complete
  binary := by
    intro byte h
    rcases Array.mem_or_eq_of_mem_setIfInBounds h with hold | hnew
    · exact w.binary byte hold
    · rcases w.cell_binary x y with h0 | h1
      · exact Or.inr (by rw [hnew, h0]; rfl)
      · exact Or.inl (by rw [hnew, h1]; rfl)

theorem standard_dark : (dark screenColumns screenRows).Standard where
  columns_eq := rfl
  rows_eq := rfl
  complete := complete_dark _ _
  binary := fun _ => binary_replicate

theorem Standard.clear (w : s.Standard) : s.clear.Standard :=
  { w.bitmap.clear, w with }

theorem Standard.present (w : s.Standard) : s.present.Standard := { w with }

theorem Standard.flip (w : s.Standard) (x y : Int) : (s.flip x y).Standard :=
  { w.bitmap.flip x y, w with }

theorem Standard.flipAll (w : s.Standard) (points : List (Int × Int)) :
    (s.flipAll points).Standard := by
  induction points generalizing s with
  | nil => exact w
  | cons p rest ih => exact ih (w.flip p.1 p.2)

/-! ## Toggling is flipping -/

theorem Bitmap.toggle_eq (w : s.Bitmap) (x y : Int) :
    s.toggle x y = .ok (s.flip x y, s.cell x y ^^^ 1 == 0) := by
  obtain ⟨byte, hbyte, htoggle⟩ :=
    toggle_of_complete w.complete w.columns_ne_zero w.rows_ne_zero x y
  have hcell : s.cell x y = byte :=
    Option.some.inj ((w.getElem?_place x y).symm.trans hbyte)
  rw [htoggle, Screen.flip, hcell]

theorem Bitmap.lit_eq (w : s.Bitmap) (x y : Int) : s.lit x y = .ok (s.cell x y != 0) := by
  have hsides : ¬ (s.columns = 0 ∨ s.rows = 0) := fun hside =>
    hside.elim w.columns_ne_zero w.rows_ne_zero
  simp only [lit, hsides, if_false, w.getElem?_place]

/-- **DRAWING NEVER FAILS** on a bitmap: toggling a list of points flips them all and
    reports whether one was erased. -/
theorem Bitmap.toggleAll_eq (w : s.Bitmap) (points : List (Int × Int)) :
    s.toggleAll points = .done (s.flipAll points, s.erases points) := by
  induction points generalizing s with
  | nil => rfl
  | cons p rest ih =>
      obtain ⟨x, y⟩ := p
      rw [toggleAll, w.toggle_eq x y]
      show ((s.flip x y).toggleAll rest).mapState
        (fun r => (r.1, s.cell x y ^^^ 1 == 0 || r.2)) = _
      rw [ih (w.flip x y)]
      rfl

/-! ## Which pixel is flipped -/

/-- **WRAPPED COORDINATES** name one place exactly if they are congruent. -/
theorem Bitmap.place_eq_place_iff (w : s.Bitmap) (a b x y : Int) :
    s.place a b = s.place x y ↔ a % s.columns = x % s.columns ∧ b % s.rows = y % s.rows := by
  have hc : (s.columns : Int) ≠ 0 := by exact_mod_cast w.columns_ne_zero
  have hr : (s.rows : Int) ≠ 0 := by exact_mod_cast w.rows_ne_zero
  have hcolumn (n : Int) : 0 ≤ n % s.columns ∧ n % s.columns < s.columns :=
    ⟨Int.emod_nonneg n hc, Int.emod_lt_of_pos n (by omega)⟩
  have hrow (n : Int) : 0 ≤ n % s.rows := Int.emod_nonneg n hr
  constructor
  · intro h
    have hpos : 0 < s.columns := Nat.pos_of_ne_zero w.columns_ne_zero
    have hsmall (n : Int) : (n % s.columns).toNat < s.columns := by
      have := hcolumn n
      omega
    rw [place, place, Nat.add_comm, Nat.add_comm _ (x % s.columns).toNat] at h
    have hx := congrArg (· % s.columns) h
    have hy := congrArg (· / s.columns) h
    simp only [Nat.add_mul_mod_self_right, Nat.mod_eq_of_lt (hsmall _)] at hx
    simp only [Nat.add_mul_div_right _ _ hpos, Nat.div_eq_of_lt (hsmall _), Nat.zero_add] at hy
    have := hcolumn a
    have := hcolumn x
    have := hrow b
    have := hrow y
    omega
  · rintro ⟨hx, hy⟩
    rw [place, place, hx, hy]

/-- Flipping a pixel changes it at all coordinates that name it, and no other pixel. -/
theorem Bitmap.cell_flip (w : s.Bitmap) (a b x y : Int) :
    (s.flip a b).cell x y
      = if a % s.columns = x % s.columns ∧ b % s.rows = y % s.rows then s.cell x y ^^^ 1
        else s.cell x y := by
  have hpixel : (s.flip a b).cell x y
      = ((s.pixels.setIfInBounds (s.place a b) (s.cell a b ^^^ 1))[s.place x y]?).getD 0 :=
    Array.getD_eq_getD_getElem? ..
  rw [hpixel, Array.getElem?_setIfInBounds]
  by_cases hsame : a % s.columns = x % s.columns ∧ b % s.rows = y % s.rows
  · have hplace := (w.place_eq_place_iff a b x y).2 hsame
    have hcell : s.cell a b = s.cell x y := by rw [cell, cell, hplace]
    rw [if_pos hsame, if_pos hplace, hplace, if_pos (w.place_lt_size x y), hcell,
      Option.getD_some]
  · have hplace : ¬ s.place a b = s.place x y := fun h =>
      hsame ((w.place_eq_place_iff a b x y).1 h)
    rw [if_neg hsame, if_neg hplace, w.getElem?_place, Option.getD_some]

/-! ## What flipping leaves alone -/

@[simp] theorem frames_flipAll (s : Screen) (points : List (Int × Int)) :
    (s.flipAll points).frames = s.frames := by
  induction points generalizing s with
  | nil => rfl
  | cons p rest ih => exact ih (s.flip p.1 p.2)

end Chip8.Screen
