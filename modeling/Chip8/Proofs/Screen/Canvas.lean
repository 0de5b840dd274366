import Chip8.Screen.Canvas
import Chip8.Proofs.Screen.Images

/-! # Images do not depend on earlier ones

    A canvas is kept from one image to the next, and holds what the last one left there, or what
    one that was not made left halfway.  None of that gets into the next image: wiping makes
    every canvas blank (**`Sound.wipe_eq`**), so an image is that of a blank canvas, which is the
    image of the screen alone (**`present_eq_image`**) and shows it as it is
    (**`image_is_faithful`**).

    Each pixel of an image shows one cell.  To repeat every row and then every pixel of a row is
    to look up the one whose number is divided by the scale (**`getElem?_stretch`**). -/

namespace Chip8

namespace Image

variable {α β : Type}

/-- The pixel in a row and a column, counted from the top left. -/
def pixel? (image : Image) (row column : Nat) : Option Pixel :=
  image.rows[row]?.bind fun pixels => pixels[column]?

theorem stretch_cons (times : Nat) (x : α) (xs : List α) :
    stretch times (x :: xs) = List.replicate times x ++ stretch times xs :=
  List.flatMap_cons

theorem stretch_one (xs : List α) : stretch 1 xs = xs := by
  induction xs with
  | nil => rfl
  | cons x rest ih => rw [stretch_cons, ih, List.replicate_one, List.singleton_append]

/-- Rows of pixels blown up, first row by row and then pixel by pixel. -/
def blownUp (times : Nat) (rows : List (List Pixel)) : List (List Pixel) :=
  (stretch times rows).map (stretch times)

theorem blownUp_one (rows : List (List Pixel)) : blownUp 1 rows = rows := by
  have hid : (stretch 1 : List Pixel → List Pixel) = id := funext stretch_one
  rw [blownUp, stretch_one, hid, List.map_id]

theorem map_stretch (f : α → β) (times : Nat) (xs : List α) :
    (stretch times xs).map f = stretch times (xs.map f) := by
  induction xs with
  | nil => rfl
  | cons x rest ih =>
      rw [stretch_cons, List.map_append, List.map_replicate, ih, List.map_cons, stretch_cons]

/-- **REPEATING IS DIVIDING**: the element at a place is the one whose number is divided. -/
theorem getElem?_stretch {times : Nat} (htimes : 0 < times) (xs : List α) (i : Nat) :
    (stretch times xs)[i]? = xs[i / times]? := by
  induction xs generalizing i with
  | nil => rfl
  | cons x rest ih =>
      rw [stretch_cons, List.getElem?_append, List.length_replicate]
      by_cases hi : i < times
      · rw [if_pos hi, Nat.div_eq_of_lt hi, List.getElem?_replicate, if_pos hi]
        rfl
      · have hstep : i / times = (i - times) / times + 1 := by
          rw [← Nat.add_div_right _ htimes, Nat.sub_add_cancel (Nat.not_lt.1 hi)]
        rw [if_neg hi, ih, hstep]
        rfl

theorem zipWith_replicate {γ : Type} (f : α → β → γ) (x : α) (ys : List β) :
    List.zipWith f (List.replicate ys.length x) ys = ys.map (f x) := by
  induction ys with
  | nil => rfl
  | cons y rest ih =>
      rw [List.length_cons, List.replicate_succ, List.zipWith_cons_cons, ih, List.map_cons]

end Image

namespace Screen

variable {s : Screen} {flipped : Bool}

/-! ## Rows of cells -/

/-- The rows of cells as an image shows them. -/
def shown (s : Screen) (flipped : Bool) : List (List Bool) :=
  if flipped then s.picture.reverse else s.picture

theorem length_shown (s : Screen) (flipped : Bool) : (s.shown flipped).length = s.rows := by
  cases flipped with
  | false => exact s.length_picture
  | true => exact List.length_reverse.trans s.length_picture

theorem mem_picture_of_mem_shown {row : List Bool} (h : row ∈ s.shown flipped) :
    row ∈ s.picture := by
  cases flipped with
  | false => exact h
  | true => exact List.mem_reverse.1 h

theorem length_of_mem_shown (w : s.Complete) {row : List Bool} (h : row ∈ s.shown flipped) :
    row.length = s.columns :=
  length_of_mem_picture w (mem_picture_of_mem_shown h)

/-- The pixels that show the cells in a colour. -/
def painted (s : Screen) (flipped : Bool) (colour : Colour) : List (List Pixel) :=
  (s.shown flipped).map fun row => row.map (Pixel.ofCell colour)

/-- To paint the rows of the screen and then to blow them up is to enlarge it. -/
theorem blownUp_painted (s : Screen) (times : Nat) (flipped : Bool) (colour : Colour) :
    Image.blownUp times (s.painted flipped colour) = s.enlarged times flipped colour := by
  rw [Image.blownUp, painted, Image.map_stretch, List.map_map]
  rfl

/-- The row of the screen that an image shows in a row. -/
def shownRow (s : Screen) (flipped : Bool) (y : Nat) : Nat :=
  if flipped then s.rows - 1 - y else y

theorem shownRow_lt {y : Nat} (hy : y < s.rows) (flipped : Bool) :
    s.shownRow flipped y < s.rows := by
  rw [shownRow]
  split <;> omega

theorem getElem?_shown {y : Nat} (hy : y < s.rows) (flipped : Bool) :
    (s.shown flipped)[y]? = some (s.row (s.shownRow flipped y)) := by
  have hpicture {y : Nat} (hy : y < s.rows) : s.picture[y]? = some (s.row y) := by
    rw [picture, List.getElem?_map, List.getElem?_range hy]
    rfl
  cases flipped with
  | false => exact hpicture hy
  | true =>
      have hlen : y < s.picture.length := s.length_picture.symm ▸ hy
      refine (List.getElem?_reverse hlen).trans ?_
      rw [length_picture]
      exact hpicture (by omega)

/-- A cell of a row is lit if the pixel with its coordinates is. -/
theorem getElem?_row (w : s.Complete) {x y : Nat} (hx : x < s.columns) (hy : y < s.rows) :
    ∃ lit, s.lit x y = .ok lit ∧ (s.row y)[x]? = some lit := by
  have hplace : s.place x y = y * s.columns + x := by
    have hx' : (x : Int) % s.columns = x := Int.emod_eq_of_lt (by omega) (by omega)
    have hy' : (y : Int) % s.rows = y := Int.emod_eq_of_lt (by omega) (by omega)
    rw [place, hx', hy', Int.toNat_natCast, Int.toNat_natCast]
  have hin : s.place x y < s.pixels.size := by
    have hlt := s.place_lt (by omega) (by omega) x y
    rwa [← show s.pixels.size = s.rows * s.columns from w] at hlt
  have hside : ¬ (s.columns = 0 ∨ s.rows = 0) := by omega
  refine ⟨s.pixels[s.place x y] != 0, ?_, ?_⟩
  · rw [lit, if_neg hside, Array.getElem?_eq_getElem hin]
  · have hstop : y * s.columns + s.columns ≤ s.pixels.size := by
      have hle : (y + 1) * s.columns ≤ s.rows * s.columns := Nat.mul_le_mul_right _ hy
      rw [Nat.succ_mul] at hle
      exact hle.trans (Nat.le_of_eq (Eq.symm w))
    rw [row, List.getElem?_map, Array.getElem?_toList, Array.getElem?_extract, ← hplace,
      Array.getElem?_eq_getElem hin, if_pos (by omega)]
    rfl

theorem Complete.performed (w : s.Complete) (call : Call) : (s.performed call).Complete := by
  cases call with
  | toggle x y =>
      rw [Screen.performed]
      cases htoggle : s.toggle x y with
      | error e => exact w
      | ok r => exact (complete_of_toggle w htoggle).1
  | clear => exact s.complete_clear
  | present => exact w
  | lit x y => exact w
  | image scale flipped red green blue => exact w

/-- No screen is made with a side that is shorter than nothing or no word. -/
theorem sides_of_make {host : HostMemory} {columns rows : Int}
    (h : make host columns rows = .ok s) :
    ((s.columns : Int) = columns ∧ (s.rows : Int) = rows) ∧
      Word.holds columns = true ∧ Word.holds rows = true := by
  obtain ⟨_, hroom, -⟩ := exists_of_mapError_bind h
  have hsides := Room.check_nonneg hroom
  have hwords := Room.words_of_check hroom
  simp only [List.forall_mem_cons] at hsides hwords
  rw [eq_dark_of_make h]
  exact ⟨⟨Int.toNat_of_nonneg hsides.2.1, Int.toNat_of_nonneg hsides.1⟩, hwords.2.1, hwords.1⟩

/-! ## Room for an image -/

/-- The host has room for the image at a scale: it is a copy, or the scale and the sides are
    words, and there is memory for the rows blown up and for the pixels blown up. -/
def HasRoom (s : Screen) (host : HostMemory) (scale : Nat) : Prop :=
  scale = 1 ∨
    (Word.holds scale ∧ Word.holds (s.rows * scale) ∧ Word.holds (s.columns * scale)) ∧
    Room.check host [s.rows * scale, s.columns, 4] = .ok () ∧
    Room.check host [s.rows * scale, s.columns * scale, 4] = .ok ()

end Screen

namespace Canvas

open Screen

variable {c : Canvas} {s : Screen} {host : HostMemory} {scale : Nat} {flipped : Bool}
  {colour : Colour}

/-! ## What images leave behind -/

/-- A canvas has a pixel for every cell of its screen, and none of them is see-through. -/
structure Sound (c : Canvas) : Prop where
  complete : c.screen.Complete
  height : c.scratch.length = c.screen.rows
  width : ∀ row ∈ c.scratch, row.length = c.screen.columns
  solid : ∀ row ∈ c.scratch, ∀ p ∈ row, p.alpha = 255

theorem sound_blank (w : s.Complete) : (blank s).Sound where
  complete := w
  height := List.length_replicate
  width := by
    intro row hrow
    rw [List.eq_of_mem_replicate hrow, List.length_replicate]
    rfl
  solid := by
    intro row hrow p hp
    rw [List.eq_of_mem_replicate hrow] at hp
    rw [List.eq_of_mem_replicate hp]

/-- **WIPING FORGETS**: whatever is on a canvas, it is blank when it has been wiped. -/
theorem Sound.wipe_eq (h : c.Sound) : wipe c.scratch = (blank c.screen).scratch := by
  refine List.eq_replicate_iff.2 ⟨(List.length_map _).trans h.height, fun row hrow => ?_⟩
  obtain ⟨old, hold, rfl⟩ := List.mem_map.1 hrow
  refine List.eq_replicate_iff.2 ⟨(List.length_map _).trans (h.width old hold), fun q hq => ?_⟩
  obtain ⟨p, hp, rfl⟩ := List.mem_map.1 hq
  rw [h.solid old hold p hp]

theorem wipe_blank (w : s.Complete) : wipe (blank s).scratch = (blank s).scratch :=
  (sound_blank w).wipe_eq

/-- Painting a blank canvas. -/
theorem paint_blank (w : s.Complete) (colour : Colour) (flipped : Bool) :
    paint colour (blank s).scratch (s.shown flipped) = s.painted flipped colour := by
  have hpixel : (fun lit => if lit then ⟨colour, 255⟩ else ⟨.black, 255⟩)
      = Pixel.ofCell colour := by
    funext lit
    cases lit <;> rfl
  rw [paint, blank, ← length_shown s flipped, Image.zipWith_replicate]
  refine List.map_congr_left fun row hrow => ?_
  rw [← length_of_mem_shown w hrow, Image.zipWith_replicate]
  exact congrArg (List.map · row) hpixel

/-- What a canvas holds after an image: as if it had been blank. -/
theorem Sound.image_eq (h : c.Sound) (host : HostMemory) (scale : Int) (flipped : Bool)
    (red green blue : Int) :
    c.image host scale flipped red green blue
      = (blank c.screen).image host scale flipped red green blue := by
  -- both canvases are the same once they are wiped, which is done before the colour is looked at
  rw [image, image, h.wipe_eq, wipe_blank h.complete]
  cases Colour.ofComponents red green blue <;> rfl

theorem image_of_colour (w : s.Complete) {red green blue : Int}
    (hcolour : Colour.ofComponents red green blue = .ok colour) (host : HostMemory) (scale : Int)
    (flipped : Bool) :
    (blank s).image host scale flipped red green blue
      = (⟨s, s.painted flipped colour⟩, present host s scale (s.painted flipped colour)) := by
  rw [image, wipe_blank w, hcolour, ← paint_blank w colour flipped]
  rfl

theorem sound_painted (w : s.Complete) (colour : Colour) (flipped : Bool) :
    Sound ⟨s, s.painted flipped colour⟩ where
  complete := w
  height := (List.length_map _).trans (s.length_shown flipped)
  width := by
    intro row hrow
    obtain ⟨cells, hcells, rfl⟩ := List.mem_map.1 hrow
    exact (List.length_map _).trans (length_of_mem_shown w hcells)
  solid := by
    intro row hrow p hp
    obtain ⟨cells, _, rfl⟩ := List.mem_map.1 hrow
    obtain ⟨lit, _, rfl⟩ := List.mem_map.1 hp
    rfl

/-- An image, made or not, leaves the screen alone and the canvas sound. -/
theorem Sound.image (h : c.Sound) (host : HostMemory) (scale : Int) (flipped : Bool)
    (red green blue : Int) :
    (c.image host scale flipped red green blue).1.screen = c.screen ∧
      (c.image host scale flipped red green blue).1.Sound := by
  rw [h.image_eq]
  cases hcolour : Colour.ofComponents red green blue with
  | error e =>
      rw [Canvas.image, wipe_blank h.complete, hcolour]
      exact ⟨rfl, sound_blank h.complete⟩
  | ok colour =>
      rw [image_of_colour h.complete hcolour]
      exact ⟨rfl, sound_painted h.complete colour flipped⟩

/-! ## Histories -/

/-- The canvas after a call. -/
def performed (host : HostMemory) (c : Canvas) : Call → Canvas
  | .image scale flipped red green blue => (c.image host scale flipped red green blue).1
  | call                                => { c with screen := c.screen.performed call }

/-- The canvas after calls, each made whatever became of the one before. -/
def after (c : Canvas) (host : HostMemory) (calls : List Call) : Canvas :=
  calls.foldl (performed host) c

theorem Sound.withScreen (h : c.Sound) (call : Call) :
    Sound { c with screen := c.screen.performed call } := by
  obtain ⟨hcolumns, hrows⟩ := c.screen.sides_performed call
  exact {
    complete := h.complete.performed call
    height := h.height.trans hrows.symm
    width := fun row hrow => (h.width row hrow).trans hcolumns.symm
    solid := h.solid }

/-- One call keeps a canvas sound, and does to its screen what it does to a screen. -/
theorem Sound.performed (h : c.Sound) (host : HostMemory) (call : Call) :
    (c.performed host call).Sound ∧ (c.performed host call).screen = c.screen.performed call := by
  cases call with
  | toggle x y => exact ⟨h.withScreen (.toggle x y), rfl⟩
  | clear => exact ⟨h.withScreen .clear, rfl⟩
  | present => exact ⟨h.withScreen .present, rfl⟩
  | lit x y => exact ⟨h.withScreen (.lit x y), rfl⟩
  | image scale flipped red green blue =>
      obtain ⟨hscreen, hsound⟩ := h.image host scale flipped red green blue
      exact ⟨hsound, hscreen⟩

theorem Sound.after (h : c.Sound) (host : HostMemory) (calls : List Call) :
    (c.after host calls).Sound ∧ (c.after host calls).screen = c.screen.after calls := by
  induction calls generalizing c with
  | nil => exact ⟨h, rfl⟩
  | cons call rest ih =>
      obtain ⟨hsound, hscreen⟩ := h.performed host call
      obtain ⟨hsound', hscreen'⟩ := ih hsound
      exact ⟨hsound', hscreen'.trans (congrArg (Screen.after · rest) hscreen)⟩

/-! ## Blowing up -/

theorem present_eq (hroom : s.HasRoom host scale) (pixels : List (List Pixel)) :
    present host s scale pixels
      = .ok ⟨s.columns * scale, s.rows * scale, Image.blownUp scale pixels⟩ := by
  by_cases hone : scale = 1
  · rw [hone, present, if_pos Nat.cast_one, Image.blownUp_one, Nat.mul_one, Nat.mul_one]
  · obtain ⟨⟨hscale, hheight, hwidth⟩, hlines, hpixels⟩ := hroom.resolve_left hone
    have hone' : (scale : Int) ≠ 1 := by omega
    have hfits : s.roomFor host scale = .ok () := by
      rw [roomFor, if_neg hone', if_pos hscale, Word.wrap_of_holds hheight,
        Word.wrap_of_holds hwidth, if_pos (.inr (.inr ⟨hheight, hwidth⟩))]
      dsimp only
      rw [hlines, hpixels]
      rfl
    rw [present, if_neg hone', hfits]
    dsimp only
    rw [Word.wrap_of_holds hheight, Word.wrap_of_holds hwidth, hwidth, hheight]
    rfl

/-- What is presented of the rows that have been painted is the image of the screen. -/
theorem present_eq_image (hrows : Word.holds s.rows = true) (hcolumns : Word.holds s.columns = true)
    (host : HostMemory) (scale : Int) (flipped : Bool) (colour : Colour) :
    present host s scale (s.painted flipped colour) = s.image host scale flipped colour := by
  by_cases hone : scale = 1
  · rw [present, if_pos hone, Screen.image, roomFor, if_pos hone]
    dsimp only
    rw [hone, Int.mul_one, Int.mul_one, Word.wrap_of_holds hrows, Word.wrap_of_holds hcolumns,
      hrows, hcolumns, ← blownUp_painted]
    simp only [Bool.and_self, if_true, Int.toNat_one, Image.blownUp_one]
    rfl
  · rw [present, if_neg hone, Screen.image]
    simp only [← blownUp_painted]
    rfl

theorem image_of_blank (w : s.Complete) (hrows : Word.holds s.rows = true)
    (hcolumns : Word.holds s.columns = true) (host : HostMemory) (scale : Int) (flipped : Bool)
    (red green blue : Int) :
    ((blank s).image host scale flipped red green blue).2
      = (do s.image host scale flipped (← Colour.ofComponents red green blue)) := by
  cases hcolour : Colour.ofComponents red green blue with
  | error e =>
      rw [Canvas.image, hcolour]
      rfl
  | ok colour =>
      rw [image_of_colour w hcolour]
      exact present_eq_image hrows hcolumns host scale flipped colour

/-- An image whose sides are words is made only if there is room for it. -/
theorem hasRoom_of_present {pixels : List (List Pixel)} {image : Image}
    (h : present host s scale pixels = .ok image) (hheight : Word.holds (s.rows * scale) = true)
    (hwidth : Word.holds (s.columns * scale) = true) : s.HasRoom host scale := by
  by_cases hone : scale = 1
  · exact Or.inl hone
  have hone' : (scale : Int) ≠ 1 := by omega
  rw [present, if_neg hone'] at h
  obtain ⟨_, hroom, -⟩ := exists_of_bind h
  rw [roomFor, if_neg hone'] at hroom
  have hscale : Word.holds scale = true := by
    by_contra hbeyond
    rw [if_neg hbeyond] at hroom
    cases hroom
  rw [if_pos hscale, Word.wrap_of_holds hheight, Word.wrap_of_holds hwidth] at hroom
  obtain ⟨_, hlines, hmore⟩ := exists_of_mapError_bind hroom
  obtain ⟨_, hpixels, -⟩ := exists_of_mapError_bind hmore
  exact Or.inr ⟨⟨hscale, hheight, hwidth⟩, hlines, hpixels⟩

/-- Each pixel of a picture blown up shows a cell. -/
theorem pixel?_blownUp (w : s.Complete) (colour : Colour) (flipped : Bool) {width height : Nat}
    {row column : Nat} (hrow : row < s.rows * scale) (hcolumn : column < s.columns * scale) :
    ∃ lit, s.lit (column / scale : Nat) (s.shownRow flipped (row / scale)) = .ok lit ∧
      Image.pixel? ⟨width, height, Image.blownUp scale (s.painted flipped colour)⟩ row column
        = some (Pixel.ofCell colour lit) := by
  have hscale : 0 < scale := Nat.pos_of_lt_mul_left hrow
  have hy : row / scale < s.rows := Nat.div_lt_of_lt_mul (Nat.mul_comm _ _ ▸ hrow)
  have hx : column / scale < s.columns := Nat.div_lt_of_lt_mul (Nat.mul_comm _ _ ▸ hcolumn)
  obtain ⟨lit, hlit, hcell⟩ := getElem?_row w hx (shownRow_lt hy flipped)
  refine ⟨lit, hlit, ?_⟩
  rw [Image.pixel?, Image.blownUp, List.getElem?_map, Image.getElem?_stretch hscale, painted,
    List.getElem?_map, getElem?_shown hy]
  show (Image.stretch scale _)[column]? = _
  rw [Image.getElem?_stretch hscale, List.getElem?_map, hcell]
  rfl

theorem sized_blownUp (w : s.Complete) (colour : Colour) (flipped : Bool) (width height : Nat) :
    Image.Sized ⟨width, height, Image.blownUp scale (s.painted flipped colour)⟩
      (s.columns * scale) (s.rows * scale) := by
  constructor
  · show ((Image.blownUp scale (s.painted flipped colour)).length : Int) = _
    rw [Image.blownUp, List.length_map, Image.length_stretch, painted, List.length_map,
      length_shown]
    exact Int.natCast_mul _ _
  · intro row hrow
    obtain ⟨pixels, hpixels, rfl⟩ := List.mem_map.1 hrow
    obtain ⟨cells, hcells, rfl⟩ := List.mem_map.1 (Image.mem_of_mem_stretch hpixels)
    rw [Image.length_stretch, List.length_map, length_of_mem_shown w hcells]
    exact Int.natCast_mul _ _

/-! ## Everything together -/

theorem exists_of_make {columns rows : Int} {made : Canvas}
    (h : make host columns rows = .ok made) :
    ∃ fresh, Screen.make host columns rows = .ok fresh ∧ blank fresh = made := by
  rw [make] at h
  cases hscreen : Screen.make host columns rows with
  | error e =>
      rw [hscreen] at h
      cases h
  | ok fresh =>
      rw [hscreen] at h
      exact ⟨fresh, rfl, Except.ok.inj h⟩

/-- **AN IMAGE SHOWS THE SCREEN AS IT IS**, whatever was on the canvas before.  On a canvas made
    with any sides, whatever memory its host has, after any calls, those that failed among them:

    * the screen is what the calls make of a screen, on which images have no effect;
    * an image, made or not, leaves the pixels and both marks of the screen as they are, is the
      same as on a blank canvas, and is a matter of the screen alone;
    * if there is room for it at a scale, the image of a colour is made: its sides are those of
      the screen times the scale, and each of its pixels shows the cell whose coordinates are
      divided by the scale, counted from the bottom if it is flipped, in the colour or in black,
      and is not see-through;
    * there is room for every image that is made and whose sides are words. -/
theorem image_is_faithful {columns rows : Int} {made : Canvas}
    (h : make host columns rows = .ok made) (calls : List Call) (flipped : Bool) :
    let c := made.after host calls
    let s := c.screen
    (s = made.screen.after calls ∧ (s.columns : Int) = columns ∧ (s.rows : Int) = rows) ∧
    (∀ scale red green blue : Int,
      let o := c.image host scale flipped red green blue
      o.1.screen = s ∧ o.2 = ((blank s).image host scale flipped red green blue).2 ∧
        o.2 = (do s.image host scale flipped (← Colour.ofComponents red green blue))) ∧
    ∀ (scale : Nat) (colour : Colour),
      let answer :=
        (c.image host scale flipped colour.red.toNat colour.green.toNat colour.blue.toNat).2
      (s.HasRoom host scale → ∃ image, answer = .ok image ∧
        (image.height = s.rows * scale ∧ image.width = s.columns * scale) ∧
        image.Sized image.width image.height ∧
        ∀ r < s.rows * scale, ∀ c < s.columns * scale,
          let q := if flipped then s.rows - 1 - r / scale else r / scale
          ∃ lit, s.lit (c / scale : Nat) q = .ok lit ∧
            image.pixel? r c = some ⟨if lit then colour else .black, 255⟩) ∧
      ∀ image, answer = .ok image → Word.holds (s.rows * scale) = true →
        Word.holds (s.columns * scale) = true → s.HasRoom host scale := by
  intro c s
  obtain ⟨fresh, hfresh, rfl⟩ := exists_of_make h
  have hcomplete : fresh.Complete := eq_dark_of_make hfresh ▸ complete_dark _ _
  obtain ⟨hsound, hscreen⟩ := (sound_blank hcomplete).after host calls
  obtain ⟨⟨hcolumns, hrows⟩, hcolumnsWord, hrowsWord⟩ := sides_of_make hfresh
  have hsides : (s.columns : Int) = columns ∧ (s.rows : Int) = rows := by
    obtain ⟨hcolumns', hrows'⟩ := fresh.sides_after calls
    rw [show s = fresh.after calls from hscreen, ← hcolumns, ← hrows]
    exact ⟨congrArg Int.ofNat hcolumns', congrArg Int.ofNat hrows'⟩
  refine ⟨⟨hscreen, hsides⟩, ?_, ?_⟩
  · intro scale red green blue
    have hblank := congrArg Prod.snd (hsound.image_eq host scale flipped red green blue)
    refine ⟨(hsound.image host scale flipped red green blue).1, hblank, hblank.trans ?_⟩
    exact image_of_blank hsound.complete (hsides.2 ▸ hrowsWord) (hsides.1 ▸ hcolumnsWord) host
      scale flipped red green blue
  · intro scale colour answer
    have hanswer : answer = present host s scale (s.painted flipped colour) := by
      have hcolour := image_of_colour hsound.complete (Colour.ofComponents_bytes colour) host
        scale flipped
      exact congrArg Prod.snd ((hsound.image_eq ..).trans hcolour)
    refine ⟨fun hroom => ?_, fun image himage => ?_⟩
    · refine ⟨_, hanswer.trans (present_eq hroom _), ⟨rfl, rfl⟩, ?_, fun r hr c hc => ?_⟩
      · exact sized_blownUp hsound.complete colour flipped _ _
      · exact pixel?_blownUp hsound.complete colour flipped hr hc
    · exact hasRoom_of_present (hanswer.symm.trans himage)

/-- A canvas of three by two, on which a colour that is none and an image of another scale and
    colour have been left: the image of two lit cells, blown up and flipped. -/
theorem image_after_failed_images :
    let host : HostMemory := .boundless
    let calls := [.toggle 0 0, .image 2 true 9 8 256, .image 3 false 9 8 7, .toggle (-1) 1]
    let c := (blank (dark 3 2)).after host calls
    make host 3 2 = .ok (blank (dark 3 2)) ∧ c.screen.HasRoom host 2 ∧
      ∃ image, (c.image host 2 true 1 2 3).2 = .ok image ∧ image.height = 4 ∧ image.width = 6 ∧
        image.pixel? 1 5 = some ⟨⟨1, 2, 3⟩, 255⟩ ∧ image.pixel? 1 1 = some ⟨.black, 255⟩ := by
  intro host calls c
  have hmake : make host 3 2 = .ok (blank (dark 3 2)) := rfl
  have hroom : c.screen.HasRoom host 2 := Or.inr (by decide)
  obtain ⟨_, _, hexact⟩ := image_is_faithful hmake calls true
  obtain ⟨image, himage, ⟨hheight, hwidth⟩, _, hpixels⟩ := (hexact 2 ⟨1, 2, 3⟩).1 hroom
  refine ⟨hmake, hroom, image, himage, hheight, hwidth, ?_, ?_⟩
  · obtain ⟨lit, hlit, hpixel⟩ := hpixels 1 (by decide) 5 (by decide)
    have hcell : c.screen.lit 2 1 = .ok true := by decide
    obtain rfl : true = lit := Except.ok.inj (hcell.symm.trans hlit)
    exact hpixel
  · obtain ⟨lit, hlit, hpixel⟩ := hpixels 1 (by decide) 1 (by decide)
    have hcell : c.screen.lit 0 1 = .ok false := by decide
    obtain rfl : false = lit := Except.ok.inj (hcell.symm.trans hlit)
    exact hpixel

/-- However much memory there is, a screen without pixels has no image at a scale that is no word,
    and one with a pixel none that has more bytes than a word counts. -/
theorem no_image_at_large_scales :
    let host : HostMemory := .boundless
    let c := blank (dark 0 0)
    let d := blank (dark 1 1)
    make host 0 0 = .ok c ∧ make host 1 1 = .ok d ∧
      (c.image host 9223372036854775808 false 255 255 255).2 = .error .beyondWord ∧
      (d.image host 4611686018427387904 false 255 255 255).2 = .error (.room .tooLarge) :=
  ⟨rfl, rfl, rfl, by decide +kernel⟩

end Canvas

end Chip8
