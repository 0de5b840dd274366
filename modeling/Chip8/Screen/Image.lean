import Chip8.Screen

/-!
# Coloured images

A screen is shown as an image of coloured pixels: lit pixels in a chosen colour, dark
ones black, none of them see-through, each blown up to a square of `scale` by `scale`.  A
picture may be flipped top to bottom, for surfaces whose origin is the bottom left
corner.  Making an image reads the screen and changes nothing.

The sides of an image are machine words, and there must be room for four bytes to a pixel.
A screen without pixels may have an image with a side that is no word; the side loses its
higher bits.
-/

namespace Chip8

/-- A colour. -/
structure Colour where
  red : UInt8
  green : UInt8
  blue : UInt8
  deriving DecidableEq, Repr

namespace Colour

/-- The colour of lit pixels unless another is asked for. -/
def white : Colour := ⟨255, 255, 255⟩

/-- The colour of dark pixels. -/
def black : Colour := ⟨0, 0, 0⟩

/-- A byte, if the integer is one. -/
private def component (value : Int) : Except Screen.Error UInt8 :=
  if 0 ≤ value ∧ value < 256 then .ok (UInt8.ofNat value.toNat)
  else if Word.holds value then .error (.component value)
  else .error .beyondWord

/-- A colour from three integers; the first that is not a byte counts. -/
def ofComponents (red green blue : Int) : Except Screen.Error Colour := do
  return ⟨← component red, ← component green, ← component blue⟩

theorem ofComponents_bytes (c : Colour) :
    ofComponents c.red.toNat c.green.toNat c.blue.toNat = .ok c := by
  have hbyte (b : UInt8) : component b.toNat = .ok b := by
    have hrange : 0 ≤ (b.toNat : Int) ∧ (b.toNat : Int) < 256 :=
      ⟨Int.natCast_nonneg _, Int.ofNat_lt.2 b.toNat_lt⟩
    rw [component, if_pos hrange, Int.toNat_natCast, UInt8.ofNat_toNat]
  rw [ofComponents, hbyte, hbyte, hbyte]
  rfl

end Colour

/-- One pixel of an image: a colour and its opacity. -/
structure Pixel where
  colour : Colour
  alpha : UInt8
  deriving DecidableEq, Repr

/-- A rectangle of pixels, row by row from the top. -/
structure Image where
  width : Nat
  height : Nat
  rows : List (List Pixel)
  deriving DecidableEq, Repr

namespace Image

/-- All pixels in reading order. -/
def pixels (image : Image) : List Pixel := image.rows.flatten

/-- Each element repeated in place. -/
def stretch {α : Type} (times : Nat) (xs : List α) : List α :=
  xs.flatMap (List.replicate times)

end Image

/-- The pixel that shows a lit or a dark cell. -/
def Pixel.ofCell (colour : Colour) (lit : Bool) : Pixel :=
  ⟨if lit then colour else .black, 255⟩

/-- The pixels of a screen, each blown up to a square. -/
def Screen.enlarged (s : Screen) (times : Nat) (flipped : Bool) (colour : Colour) :
    List (List Pixel) :=
  Image.stretch times <|
    (if flipped then s.picture.reverse else s.picture).map fun row =>
      Image.stretch times (row.map (Pixel.ofCell colour))

/-- Whether there is room to blow up a screen: first every row, then every pixel.  If there
    are pixels, both sides of the image must be words. -/
def Screen.roomFor (s : Screen) (host : HostMemory) (scale : Int) : Except Screen.Error Unit :=
  if scale = 1 then .ok ()
  else if Word.holds scale then do
    let height := Word.wrap (s.rows * scale)
    (Room.check host [height, s.columns, 4]).mapError .room
    (Room.check host [height, Word.wrap (s.columns * scale), 4]).mapError .room
    if s.rows = 0 ∨ s.columns = 0 ∨
        (Word.holds (s.rows * scale) ∧ Word.holds (s.columns * scale)) then .ok ()
    else .error .beyondWord
  else .error .beyondWord

/-- The image of a screen, if there is room for it. -/
def Screen.image (s : Screen) (host : HostMemory) (scale : Int) (flipped : Bool)
    (colour : Colour) : Except Screen.Error Image := do
  s.roomFor host scale
  let width := s.columns * scale
  let height := s.rows * scale
  let times := if Word.holds width && Word.holds height then scale.toNat else 0
  return {
    width := (Word.wrap width).toNat
    height := (Word.wrap height).toNat
    rows := s.enlarged times flipped colour }

end Chip8
