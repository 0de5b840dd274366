import Chip8.Proofs.Screen.Calls
import Mathlib.Algebra.BigOperators.Group.List.Basic
import Mathlib.Algebra.Order.Ring.Int
import Mathlib.Tactic.Ring

/-! # Images of screens

    Whether a screen has an image at a scale is a matter of its sides and of the host's memory
    alone (**`roomFor_of_standard`**); that of a machine has one if there is memory for its rows
    and then its pixels blown up (**`Standard.roomFor_iff`**).  The image that it has, four bytes
    to a pixel (**`Image.bytes`**), is as wide and as high as the screen blown up
    (**`Standard.sized_image`**). -/

namespace Chip8

namespace Room

theorem extent_nonneg {sides : List Int} {bytes n : Nat} (h : extent bytes sides = .ok n) :
    ∀ side ∈ sides, 0 ≤ side := by
  induction sides generalizing bytes with
  | nil => exact fun _ hside => (nomatch hside)
  | cons first rest ih =>
      rw [extent] at h
      split at h
      · exact List.forall_mem_cons.2 ⟨Int.le_of_eq (Eq.symm ‹first = 0›), ih h⟩
      · split at h
        · exact nomatch h
        · split at h
          · exact List.forall_mem_cons.2 ⟨Int.not_lt.1 ‹_›, ih h⟩
          · exact nomatch h

variable {host : HostMemory}

/-- No table has a side that is shorter than nothing. -/
theorem check_nonneg {sides : List Int} (h : check host sides = .ok ()) :
    ∀ side ∈ sides, 0 ≤ side := by
  rw [check] at h
  split at h
  · cases hextent : extent 1 sides with
    | error e =>
        rw [hextent] at h
        exact nomatch h
    | ok bytes => exact extent_nonneg hextent
  · exact nomatch h

theorem words_of_check {sides : List Int} (h : check host sides = .ok ()) :
    ∀ side ∈ sides, Word.holds side = true := by
  by_cases hwords : sides.all Word.holds = true
  · exact List.all_eq_true.1 hwords
  · rw [check, if_neg hwords] at h
    cases h

/-- The sides of a table are no longer than it has places. -/
theorem le_prod_of_pos {sides : List Int} (h : ∀ side ∈ sides, 0 < side) :
    0 < sides.prod ∧ ∀ side ∈ sides, side ≤ sides.prod := by
  induction sides with
  | nil => exact ⟨Int.one_pos, fun _ hside => nomatch hside⟩
  | cons first rest ih =>
      obtain ⟨hfirst, hrest⟩ := List.forall_mem_cons.1 h
      obtain ⟨hpos, hle⟩ := ih hrest
      rw [List.prod_cons]
      refine ⟨Int.mul_pos hfirst hpos, List.forall_mem_cons.2 ⟨?_, ?_⟩⟩
      · exact le_mul_of_one_le_right hfirst.le hpos
      · exact fun side hside => (hle side hside).trans (le_mul_of_one_le_left hpos.le hfirst)

theorem holds_iff_of_pos {n : Int} (h : 0 < n) : Word.holds n = true ↔ n < Word.reach := by
  have hreach : 0 < Word.reach := by decide
  rw [Word.holds_iff]
  omega

/-- A table with positive sides has a byte to each of its places, if their number is a word. -/
theorem extent_of_pos {sides : List Int} (h : ∀ side ∈ sides, 0 < side) {bytes : Nat}
    (hbytes : 0 < bytes) (hword : (bytes : Int) < Word.reach) :
    extent bytes sides =
      if bytes * sides.prod < Word.reach then .ok (bytes * sides.prod).toNat
      else .error .tooLarge := by
  induction sides generalizing bytes with
  | nil => rw [List.prod_nil, Int.mul_one, if_pos hword, Int.toNat_natCast, extent]
  | cons first rest ih =>
      obtain ⟨hfirst, hrest⟩ := List.forall_mem_cons.1 h
      obtain ⟨hpos, -⟩ := le_prod_of_pos hrest
      obtain ⟨n, rfl⟩ := Int.eq_ofNat_of_zero_le hfirst.le
      have hplaces : 0 < (bytes : Int) * n := Int.mul_pos (Int.natCast_pos.2 hbytes) hfirst
      rw [extent, if_neg hfirst.ne', if_neg hfirst.asymm, List.prod_cons, ← mul_assoc]
      by_cases hreach : (bytes : Int) * n < Word.reach
      · rw [if_pos ((holds_iff_of_pos hplaces).2 hreach), Int.toNat_natCast]
        rw [← Nat.cast_mul] at hplaces hreach ⊢
        exact ih hrest (Int.natCast_pos.1 hplaces) hreach
      · have hmore : (bytes : Int) * n ≤ bytes * n * rest.prod :=
          le_mul_of_one_le_right hplaces.le hpos
        rw [if_neg (mt (holds_iff_of_pos hplaces).1 hreach),
          if_neg fun hlt => hreach (hmore.trans_lt hlt)]

/-- **ROOM FOR A TABLE** with positive sides is a matter of how many places it has: their number
    must be a word, and there must be memory for a byte to each. -/
theorem check_iff_of_pos {sides : List Int} (h : ∀ side ∈ sides, 0 < side) :
    check host sides = .ok () ↔
      sides.prod < Word.reach ∧ host.grants sides.prod.toNat = true := by
  obtain ⟨_, hle⟩ := le_prod_of_pos h
  have hextent := extent_of_pos h Nat.one_pos (by decide)
  rw [Nat.cast_one, Int.one_mul] at hextent
  have hzero : sides.contains 0 = false := by
    rw [List.contains_eq_mem, decide_eq_false_iff_not]
    exact fun hmem => (h 0 hmem).false
  rw [check, hextent, hzero]
  by_cases hreach : sides.prod < Word.reach
  · have hwords : sides.all Word.holds = true := List.all_eq_true.2 fun side hside =>
      (holds_iff_of_pos (h side hside)).2 ((hle side hside).trans_lt hreach)
    rw [if_pos hwords, if_pos hreach]
    dsimp only
    rw [Bool.or_false]
    by_cases hgrants : host.grants sides.prod.toNat = true
    · rw [if_pos hgrants]
      exact iff_of_true rfl ⟨hreach, hgrants⟩
    · rw [if_neg hgrants]
      refine iff_of_false (fun hok => ?_) fun hroom => hgrants hroom.2
      cases hok
  · refine ⟨fun hok => ?_, fun hroom => absurd hroom.1 hreach⟩
    by_cases hwords : sides.all Word.holds = true
    · rw [if_pos hwords, if_neg hreach] at hok
      cases hok
    · rw [if_neg hwords] at hok
      cases hok

end Room

def Pixel.bytes (p : Pixel) : List UInt8 := [p.colour.red, p.colour.green, p.colour.blue, p.alpha]

namespace Image

variable {image : Image} {width height : Int}

/-- The bytes of an image, row by row. -/
def bytes (image : Image) : List UInt8 := image.pixels.flatMap Pixel.bytes

/-- An image with so many rows of so many pixels. -/
structure Sized (image : Image) (width height : Int) : Prop where
  rows : (image.rows.length : Int) = height
  columns : ∀ row ∈ image.rows, (row.length : Int) = width

theorem length_row_bytes (row : List Pixel) :
    (row.flatMap Pixel.bytes).length = row.length * 4 := by
  induction row with
  | nil => rfl
  | cons p rest ih =>
      rw [List.flatMap_cons, List.length_append, ih, List.length_cons]
      simp only [Pixel.bytes, List.length_cons, List.length_nil]
      omega

theorem Sized.length_row_bytes (h : image.Sized width height) {row : List Pixel}
    (hrow : row ∈ image.rows) : ((row.flatMap Pixel.bytes).length : Int) = width * 4 := by
  rw [Image.length_row_bytes, ← h.columns row hrow]
  exact Int.natCast_mul _ _

theorem Sized.length_bytes (h : image.Sized width height) :
    (image.bytes.length : Int) = width * height * 4 := by
  have hpixels (rows : List (List Pixel)) (hrows : ∀ row ∈ rows, (row.length : Int) = width) :
      (rows.flatten.length : Int) = width * rows.length := by
    induction rows with
    | nil => exact (Int.mul_zero width).symm
    | cons row rest ih =>
        obtain ⟨hrow, hrest⟩ := List.forall_mem_cons.1 hrows
        rw [List.flatten_cons, List.length_append, List.length_cons]
        push_cast
        rw [hrow, ih hrest, Int.mul_add, Int.mul_one, Int.add_comm]
  rw [bytes, Image.length_row_bytes, Nat.cast_mul, pixels, hpixels image.rows h.columns, h.rows]
  rfl

theorem length_stretch {α : Type} (times : Nat) (xs : List α) :
    (stretch times xs).length = xs.length * times := by
  simp only [stretch, List.length_flatMap, List.length_replicate, List.map_const',
    List.sum_replicate_nat]

theorem mem_of_mem_stretch {α : Type} {times : Nat} {xs : List α} {x : α}
    (h : x ∈ stretch times xs) : x ∈ xs := by
  obtain ⟨y, hy, hx⟩ := List.mem_flatMap.1 h
  rw [List.eq_of_mem_replicate hx]
  exact hy

end Image

namespace Screen

variable {s s' : Screen} {host : HostMemory} {scale : Int} {flipped : Bool} {colour : Colour}
  {image : Image}

theorem length_picture (s : Screen) : s.picture.length = s.rows := by
  rw [picture, List.length_map, List.length_range]

theorem length_of_mem_picture (w : s.Complete) {row : List Bool} (h : row ∈ s.picture) :
    row.length = s.columns := by
  obtain ⟨y, hy, rfl⟩ := List.mem_map.1 h
  have hrow : y < s.rows := List.mem_range.1 hy
  have hsize : s.pixels.size = s.rows * s.columns := w
  have hend : y * s.columns + s.columns ≤ s.pixels.size := by
    calc y * s.columns + s.columns = (y + 1) * s.columns := (Nat.succ_mul _ _).symm
      _ ≤ s.rows * s.columns := Nat.mul_le_mul_right _ hrow
      _ = s.pixels.size := hsize.symm
  rw [Screen.row, List.length_map, Array.length_toList, Array.size_extract, Nat.min_eq_left hend,
    Nat.add_sub_cancel_left]

theorem length_enlarged (s : Screen) (times : Nat) (flipped : Bool) (colour : Colour) :
    (s.enlarged times flipped colour).length = s.rows * times := by
  rw [enlarged, Image.length_stretch, List.length_map]
  cases flipped with
  | false => exact congrArg (· * times) s.length_picture
  | true => exact congrArg (· * times) (List.length_reverse.trans s.length_picture)

theorem length_of_mem_enlarged (w : s.Complete) {times : Nat} {row : List Pixel}
    (h : row ∈ s.enlarged times flipped colour) : row.length = s.columns * times := by
  obtain ⟨cells, hcells, rfl⟩ := List.mem_map.1 (Image.mem_of_mem_stretch h)
  have hpicture : cells ∈ s.picture := by
    cases flipped with
    | false => exact hcells
    | true => exact List.mem_reverse.1 hcells
  rw [Image.length_stretch, List.length_map, length_of_mem_picture w hpicture]

/-! ## Which screens have an image -/

theorem roomFor_congr (hc : s'.columns = s.columns) (hr : s'.rows = s.rows) (host : HostMemory)
    (scale : Int) : s'.roomFor host scale = s.roomFor host scale := by
  rw [roomFor, roomFor, hc, hr]

/-- **WHETHER THERE IS ROOM** for the image of a machine's screen is the same at all times. -/
theorem roomFor_of_standard (w : s.Standard) (w' : s'.Standard) (host : HostMemory)
    (scale : Int) : s'.roomFor host scale = s.roomFor host scale :=
  roomFor_congr (w'.columns_eq.trans w.columns_eq.symm) (w'.rows_eq.trans w.rows_eq.symm) host
    scale

theorem image_eq_ok_iff : s.image host scale flipped colour = .ok image ↔
    s.roomFor host scale = .ok () ∧
      image = ⟨(Word.wrap (s.columns * scale)).toNat, (Word.wrap (s.rows * scale)).toNat,
        s.enlarged
          (if Word.holds (s.columns * scale) && Word.holds (s.rows * scale) then scale.toNat else 0)
          flipped colour⟩ := by
  rw [Screen.image]
  cases s.roomFor host scale with
  | error e => exact ⟨fun h => (nomatch h), fun h => (nomatch h.1)⟩
  | ok _ => exact ⟨fun h => ⟨rfl, (Except.ok.inj h).symm⟩, fun h => congrArg Except.ok h.2.symm⟩

theorem exists_image (h : s.roomFor host scale = .ok ()) (flipped : Bool) (colour : Colour) :
    ∃ image, s.image host scale flipped colour = .ok image :=
  ⟨_, image_eq_ok_iff.2 ⟨h, rfl⟩⟩

/-- A scale at which a machine's screen has an image leaves its sides words. -/
theorem Standard.words_of_roomFor (w : s.Standard) (h : s.roomFor host scale = .ok ()) :
    0 ≤ scale ∧ Word.holds (s.columns * scale) = true ∧ Word.holds (s.rows * scale) = true := by
  have hcolumns : (s.columns : Int) = 64 := congrArg Nat.cast w.columns_eq
  have hrows : (s.rows : Int) = 32 := congrArg Nat.cast w.rows_eq
  have hpixels : ¬ (s.rows = 0 ∨ s.columns = 0) := fun hside =>
    hside.elim w.bitmap.rows_ne_zero w.bitmap.columns_ne_zero
  by_cases hone : scale = 1
  · rw [hone, hcolumns, hrows]
    decide
  rw [roomFor, if_neg hone] at h
  cases hword : Word.holds scale with
  | false =>
      rw [hword] at h
      exact nomatch h
  | true =>
      rw [hword, if_pos rfl] at h
      obtain ⟨_, hlines, hmore⟩ := exists_of_mapError_bind h
      obtain ⟨_, -, hend⟩ := exists_of_mapError_bind hmore
      have hsides : Word.holds (s.rows * scale) = true ∧ Word.holds (s.columns * scale) = true := by
        split at hend
        · exact (or_assoc.2 ‹_›).resolve_left hpixels
        · exact nomatch hend
      have hheight := Room.check_nonneg hlines _ List.mem_cons_self
      rw [Word.wrap_of_holds hsides.1, hrows] at hheight
      exact ⟨by omega, hsides.2, hsides.1⟩

/-- **AT WHICH SCALES** there is room for the image of a machine's screen: at the first, which
    copies it, and at those for which the host has memory for its rows and for its pixels blown
    up. -/
theorem Standard.roomFor_iff (w : s.Standard) (h : 1 < scale) :
    s.roomFor host scale = .ok () ↔
      8192 * (scale * scale) < Word.reach ∧
        host.grants (8192 * scale).toNat = true ∧
        host.grants (8192 * (scale * scale)).toNat = true := by
  have hcolumns : (s.columns : Int) = 64 := congrArg Nat.cast w.columns_eq
  have hrows : (s.rows : Int) = 32 := congrArg Nat.cast w.rows_eq
  have hlinesProd : [32 * scale, 64, 4].prod = 8192 * scale := by
    simp only [List.prod_cons, List.prod_nil]
    ring
  have hlinesPos : ∀ side ∈ [32 * scale, 64, 4], 0 < side := by
    simp only [List.forall_mem_cons]
    exact ⟨by omega, by omega, by omega, fun _ hside => nomatch hside⟩
  have hpixelsProd : [32 * scale, 64 * scale, 4].prod = 8192 * (scale * scale) := by
    simp only [List.prod_cons, List.prod_nil]
    ring
  have hpixelsPos : ∀ side ∈ [32 * scale, 64 * scale, 4], 0 < side := by
    simp only [List.forall_mem_cons]
    exact ⟨by omega, by omega, by omega, fun _ hside => nomatch hside⟩
  have hscale : Word.holds (s.columns * scale) = true → Word.holds scale = true := by
    rw [hcolumns, Word.holds_iff, Word.holds_iff]
    omega
  constructor
  · intro hroom
    obtain ⟨_, hwidth, hheight⟩ := w.words_of_roomFor hroom
    rw [roomFor, if_neg h.ne', if_pos (hscale hwidth)] at hroom
    obtain ⟨_, hlines, hroom⟩ := exists_of_mapError_bind hroom
    obtain ⟨_, hpixels, -⟩ := exists_of_mapError_bind hroom
    rw [Word.wrap_of_holds hheight, hrows, hcolumns, Room.check_iff_of_pos hlinesPos,
      hlinesProd] at hlines
    rw [Word.wrap_of_holds hheight, Word.wrap_of_holds hwidth, hrows, hcolumns,
      Room.check_iff_of_pos hpixelsPos, hpixelsProd] at hpixels
    exact ⟨hpixels.1, hlines.2, hpixels.2⟩
  · rintro ⟨hreach, hlinesMemory, hpixelsMemory⟩
    have hsquare : scale ≤ scale * scale := le_mul_of_one_le_right (by omega) h.le
    have hwords : Word.holds (s.rows * scale) = true ∧ Word.holds (s.columns * scale) = true := by
      rw [hrows, hcolumns, Word.holds_iff, Word.holds_iff]
      omega
    have hlines : Room.check host [32 * scale, 64, 4] = .ok () := by
      rw [Room.check_iff_of_pos hlinesPos, hlinesProd]
      exact ⟨by omega, hlinesMemory⟩
    have hpixels : Room.check host [32 * scale, 64 * scale, 4] = .ok () := by
      rw [Room.check_iff_of_pos hpixelsPos, hpixelsProd]
      exact ⟨hreach, hpixelsMemory⟩
    rw [roomFor, if_neg h.ne', if_pos (hscale hwords.2), Word.wrap_of_holds hwords.1,
      Word.wrap_of_holds hwords.2, if_pos (.inr (.inr hwords)), hrows, hcolumns]
    dsimp only
    rw [hlines, hpixels]
    rfl

/-- **NO PIXEL IS LOST** on the way to an image. -/
theorem Standard.sized_image (w : s.Standard)
    (h : s.image host scale flipped colour = .ok image) :
    image.Sized (s.columns * scale) (s.rows * scale) := by
  obtain ⟨hroom, himage⟩ := image_eq_ok_iff.1 h
  obtain ⟨hscale, hwidth, hheight⟩ := w.words_of_roomFor hroom
  have htimes : (scale.toNat : Int) = scale := Int.toNat_of_nonneg hscale
  have hrows : image.rows = s.enlarged scale.toNat flipped colour := by
    rw [himage, hwidth, hheight]
    rfl
  constructor
  · rw [hrows, length_enlarged, Nat.cast_mul, htimes]
  · intro row hrow
    rw [hrows] at hrow
    rw [length_of_mem_enlarged w.complete hrow, Nat.cast_mul, htimes]

end Screen

end Chip8
