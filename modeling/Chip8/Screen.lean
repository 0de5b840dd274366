import Chip8.Log
import Chip8.Outcome
import Chip8.Screen.Room

/-! # The screen

    A rectangle of pixels, each one byte: zero where the pixel is dark.  Pixels are only
    ever toggled, one at a time, by flipping the lowest bit of the byte, and coordinates
    wrap around both edges; a toggle that leaves zero has erased the pixel, which the
    caller is told.  The screen also keeps two marks for whoever shows it: whether it
    should be drawn again, and how many frames it has been through. -/

namespace Chip8

/-- A rectangle of pixels, kept row by row from the top left corner. -/
structure Screen where
  columns : Nat
  rows : Nat
  pixels : Array UInt8
  /-- Whether the picture should be drawn again. -/
  stale : Bool
  /-- The number of frames presented so far. -/
  frames : Nat
  deriving DecidableEq, Repr

namespace Screen

/-- Why an operation on a screen fails. -/
inductive Error where
  /-- Coordinates cannot wrap around a side without pixels. -/
  | empty
  /-- The rectangle of pixels has no such place. -/
  | outside
  /-- There is no room for the pixels. -/
  | room (e : Room.Error)
  /-- A colour component is not a byte. -/
  | component (value : Int)
  /-- A colour component or a scale is no machine word. -/
  | beyondWord
  deriving DecidableEq, Repr

/-- A dark screen, not drawn yet. -/
def dark (columns rows : Nat) : Screen :=
  ⟨columns, rows, Array.replicate (rows * columns) 0, true, 0⟩

/-- A dark screen, if there is room for its cells and for four bytes to each of them. -/
def make (host : HostMemory) (columns rows : Int) : Except Error Screen := do
  (Room.check host [rows, columns]).mapError .room
  (Room.check host [rows, columns, 4]).mapError .room
  return dark columns.toNat rows.toNat

/-- Where the pixel at wrapped coordinates is kept. -/
def place (s : Screen) (x y : Int) : Nat :=
  (y % s.rows).toNat * s.columns + (x % s.columns).toNat

/-- Whether the pixel at wrapped coordinates is lit. -/
def lit (s : Screen) (x y : Int) : Except Error Bool :=
  if s.columns = 0 ∨ s.rows = 0 then .error .empty
  else
    match s.pixels[s.place x y]? with
    | none      => .error .outside
    | some cell => .ok (cell != 0)

/-- Toggle the pixel at wrapped coordinates, and say whether that erased it. -/
def toggle (s : Screen) (x y : Int) : Except Error (Screen × Bool) :=
  if s.columns = 0 ∨ s.rows = 0 then .error .empty
  else
    match s.pixels[s.place x y]? with
    | none      => .error .outside
    | some cell =>
        .ok ({ s with pixels := s.pixels.setIfInBounds (s.place x y) (cell ^^^ 1), stale := true },
          cell ^^^ 1 == 0)

/-- Toggle pixels in order, and say whether any of them was erased. -/
def toggleAll (s : Screen) : List (Int × Int) → Outcome Error Log.Entry (Screen × Bool)
  | []             => .done (s, false)
  | (x, y) :: rest =>
      .given (s, false) (s.toggle x y) fun (s, erased) =>
        (s.toggleAll rest).mapState fun (s, later) => (s, erased || later)

/-- Turn every pixel off. -/
def clear (s : Screen) : Screen :=
  { s with pixels := Array.replicate (s.rows * s.columns) 0, stale := true }

/-- What turning every pixel off reports. -/
def clearNotes : List Log.Entry := [.cleared]

/-- Present a frame: whoever shows the screen will draw it again. -/
def present (s : Screen) : Screen :=
  { s with stale := true, frames := s.frames + 1 }

/-- The number of lit pixels. -/
def litCount (s : Screen) : Nat := s.pixels.countP (· != 0)

/-- Which pixels of one row are lit, from the left. -/
def row (s : Screen) (y : Nat) : List Bool :=
  (s.pixels.extract (y * s.columns) (y * s.columns + s.columns)).toList.map (· != 0)

/-- All rows, from the top. -/
def picture (s : Screen) : List (List Bool) :=
  (List.range s.rows).map s.row

/-! ## Screens that hold as many pixels as their sides say -/

/-- The rectangle is complete. -/
def Complete (s : Screen) : Prop := s.pixels.size = s.rows * s.columns

theorem complete_dark (columns rows : Nat) : (dark columns rows).Complete := by
  simp [Complete, dark]

theorem complete_clear (s : Screen) : s.clear.Complete := by
  simp [Complete, clear]

/-- Wrapped coordinates always name a place. -/
theorem place_lt (s : Screen) (hc : s.columns ≠ 0) (hr : s.rows ≠ 0) (x y : Int) :
    s.place x y < s.rows * s.columns := by
  have hx : (x % s.columns).toNat < s.columns := by
    have := Int.emod_lt_of_pos x (show (0 : Int) < s.columns by omega)
    have := Int.emod_nonneg x (show (s.columns : Int) ≠ 0 by omega)
    omega
  have hy : (y % s.rows).toNat + 1 ≤ s.rows := by
    have := Int.emod_lt_of_pos y (show (0 : Int) < s.rows by omega)
    have := Int.emod_nonneg y (show (s.rows : Int) ≠ 0 by omega)
    omega
  calc s.place x y < (y % s.rows).toNat * s.columns + s.columns := Nat.add_lt_add_left hx _
    _ = ((y % s.rows).toNat + 1) * s.columns := (Nat.succ_mul _ _).symm
    _ ≤ s.rows * s.columns := Nat.mul_le_mul_right _ hy

/-- On a complete screen with pixels, toggling succeeds: it flips the lowest bit of the one
    cell and says whether that left zero. -/
theorem toggle_of_complete {s : Screen} (w : s.Complete) (hc : s.columns ≠ 0)
    (hr : s.rows ≠ 0) (x y : Int) :
    ∃ cell, s.pixels[s.place x y]? = some cell ∧
      s.toggle x y =
        .ok ({ s with pixels := s.pixels.setIfInBounds (s.place x y) (cell ^^^ 1), stale := true },
          cell ^^^ 1 == 0) := by
  have hp : s.place x y < s.pixels.size := by
    have := s.place_lt hc hr x y
    unfold Complete at w
    omega
  refine ⟨s.pixels[s.place x y], Array.getElem?_eq_getElem hp, ?_⟩
  simp only [toggle, hc, hr, or_self, if_false, Array.getElem?_eq_getElem hp]

/-- Toggling keeps a screen complete, and its sides. -/
theorem complete_of_toggle {s s' : Screen} {x y : Int} {b : Bool} (w : s.Complete)
    (h : s.toggle x y = .ok (s', b)) :
    s'.Complete ∧ s'.columns = s.columns ∧ s'.rows = s.rows := by
  unfold toggle at h
  split at h
  · cases h
  · split at h
    · cases h
    · cases h
      exact ⟨by simpa [Complete] using w, rfl, rfl⟩

end Screen

end Chip8
