import Chip8.Screen.Image

/-! # Canvases

    Images are made on a canvas, which has a pixel for every cell of its screen and is kept from
    one image to the next.  It is wiped first, then the pixels of the lit cells are painted;
    what is on it is copied, or blown up, first row by row and then pixel by pixel.

    An image that is not made leaves the canvas as it was found halfway: wiped if the colour
    was none, painted if there was no room for the image. -/

namespace Chip8

/-- A screen, and the pixels that its images are made from. -/
structure Canvas where
  screen : Screen
  /-- One pixel for every cell, row by row, as the last image left them. -/
  scratch : List (List Pixel)
  deriving DecidableEq, Repr

namespace Canvas

/-- Black pixels for every cell of a screen, none of them see-through. -/
def blank (s : Screen) : Canvas :=
  ⟨s, List.replicate s.rows (List.replicate s.columns ⟨.black, 255⟩)⟩

/-- The canvas of a dark screen, if there is room for both. -/
def make (host : HostMemory) (columns rows : Int) : Except Screen.Error Canvas :=
  (Screen.make host columns rows).map blank

/-- Black pixels, as see-through as they were. -/
def wipe (pixels : List (List Pixel)) : List (List Pixel) :=
  pixels.map fun row => row.map fun p => { p with colour := .black }

/-- Pixels painted where a cell is lit. -/
def paint (colour : Colour) (pixels : List (List Pixel)) (cells : List (List Bool)) :
    List (List Pixel) :=
  List.zipWith (List.zipWith fun p lit => if lit then { p with colour } else p) pixels cells

/-- The image of the pixels on a canvas: a copy, or each of them blown up to a square. -/
def present (host : HostMemory) (s : Screen) (scale : Int) (pixels : List (List Pixel)) :
    Except Screen.Error Image :=
  if scale = 1 then .ok ⟨s.columns, s.rows, pixels⟩
  else do
    s.roomFor host scale
    let width := s.columns * scale
    let height := s.rows * scale
    let times := if Word.holds width && Word.holds height then scale.toNat else 0
    return {
      width := (Word.wrap width).toNat
      height := (Word.wrap height).toNat
      rows := (Image.stretch times pixels).map (Image.stretch times) }

/-- Make an image. -/
def image (c : Canvas) (host : HostMemory) (scale : Int) (flipped : Bool)
    (red green blue : Int) : Canvas × Except Screen.Error Image :=
  let wiped := wipe c.scratch
  match Colour.ofComponents red green blue with
  | .error e   => ({ c with scratch := wiped }, .error e)
  | .ok colour =>
      let cells := c.screen.picture
      let painted := paint colour wiped (if flipped then cells.reverse else cells)
      ({ c with scratch := painted }, present host c.screen scale painted)

end Canvas

end Chip8
