import Chip8.Proofs.Machine.Drawing
import Chip8.Proofs.Machine.Load

/-! # Drawing again, and in any order

    To draw is to flip a set of cells, so drawing the same sprite again undoes it, and reports a
    collision exactly if the first drawing lit something.

    What a drawing flips is known from its place and its bytes (**`Drawing.cells`**), whatever
    the machine that makes it does in between to get ready.  So the pixels after any number of
    drawings are those of the screen with one set flipped after the other
    (**`Drawing.Made.pixels_eq`**), and the order does not matter (**`drawing_is_reversible`**). -/

namespace Chip8

open Machine Screen

/-- A sprite at a place: the coordinates of its top left pixel, the address that it is read from
    and its rows. -/
structure Drawing where
  left : Nat
  top : Nat
  index : Int
  rows : List Nat

namespace Drawing

/-- The cells of the screen that a drawing flips. -/
def cells (d : Drawing) : Finset (Nat × Nat) :=
  ((Finset.range 8 ×ˢ Finset.range d.rows.length).filter fun bit =>
    (d.rows.getD bit.2 0).testBit (7 - bit.1) = true).image fun bit =>
      ((d.left + bit.1) % 64, (d.top + bit.2) % 32)

/-- A word makes a drawing on a machine. -/
structure MadeBy (d : Drawing) (op : Opcode) (m : Machine) : Prop where
  wellFormed : m.WellFormed
  fits : op.fits (.top 0xD)
  left : m.registers.get op.x = d.left
  top : m.registers.get op.y = d.top
  index : m.index = d.index
  height : op.n = d.rows.length
  rows : ∀ row < op.n, m.byteAt (d.index + (row : Nat)) = d.rows.getD row 0

/-- Drawings made one after the other.  Before each and after the last, anything may happen to
    the machine that leaves the pixels as they are. -/
inductive Made : List Drawing → Machine → Machine → Prop
  | nil {m m' : Machine} (hpixels : m'.screen.pixels = m.screen.pixels) : Made [] m m'
  | cons {d : Drawing} {ds : List Drawing} {op : Opcode} {m ready m' : Machine}
      (hpixels : ready.screen.pixels = m.screen.pixels) (hmade : d.MadeBy op ready)
      (hrest : Made ds (ready.execute op).state m') : Made (d :: ds) m m'

variable {d : Drawing} {ds ds' : List Drawing} {op : Opcode} {m m' : Machine} {s : Screen}

theorem MadeBy.spriteCells_eq (h : d.MadeBy op m) :
    m.spriteCells (m.registers.get op.x) (m.registers.get op.y) op.n = d.cells := by
  have hrows : ∀ row < op.n, m.byteAt (m.index + (row : Nat)) = d.rows.getD row 0 := by
    rw [h.index]
    exact h.rows
  rw [spriteCells, spriteBits_of_bytes hrows, h.left, h.top, h.height]
  rfl

theorem MadeBy.screen_eq (h : d.MadeBy op m) :
    (m.execute op).state.screen = m.screen.flipCells d.cells := by
  rw [(execute_draw h.wellFormed h.fits).2, h.spriteCells_eq]

/-- **WHAT DRAWINGS LEAVE**: the pixels with the cells of one after the other flipped. -/
theorem Made.pixels_eq (h : Made ds m m') (hcolumns : s.columns = screenColumns)
    (hpixels : m.screen.pixels = s.pixels) :
    m'.screen.pixels = (s.flipEach (ds.map cells)).pixels := by
  induction h generalizing s with
  | nil hsame => exact hsame.trans hpixels
  | @cons d ds op m ready m' hsame hmade _ ih =>
      refine ih (s := s.flipCells d.cells) hcolumns ?_
      have hready : ready.screen.columns = s.columns :=
        hmade.wellFormed.screen_standard.columns_eq.trans hcolumns.symm
      rw [hmade.screen_eq, flipCells, flipCells, hsame, hpixels, hready]

theorem cells_subset (w : s.Standard) (d : Drawing) : d.cells ⊆ s.cells := by
  intro c hc
  obtain ⟨bit, _, rfl⟩ := Finset.mem_image.1 hc
  rw [w.cells_eq, Finset.mem_product, Finset.mem_range, Finset.mem_range]
  exact ⟨Nat.mod_lt _ (by decide), Nat.mod_lt _ (by decide)⟩

/-- **THE ORDER OF DRAWINGS DOES NOT MATTER.** -/
theorem Made.pixels_perm {n n' : Machine} (h : Made ds m m') (h' : Made ds' n n')
    (w : m.screen.Standard) (hpixels : n.screen.pixels = m.screen.pixels)
    (hperm : ds.Perm ds') : n'.screen.pixels = m'.screen.pixels := by
  have hsub : ∀ flipped ∈ ds.map cells, flipped ⊆ m.screen.cells := by
    intro flipped hmem
    obtain ⟨d, _, rfl⟩ := List.mem_map.1 hmem
    exact cells_subset w d
  rw [h.pixels_eq w.columns_eq rfl, h'.pixels_eq w.columns_eq hpixels]
  exact w.bitmap.flipEach_perm hsub (hperm.map cells)

end Drawing

namespace Machine

variable {m m' : Machine} {op op' : Opcode}

/-! ## Words one after the other -/

/-- The machine after words have been carried out, whatever became of each. -/
def executeAll (m : Machine) (ops : List Opcode) : Machine :=
  ops.foldl (fun m op => (m.execute op).state) m

/-- The drawing that a word makes. -/
def drawingOf (m : Machine) (op : Opcode) : Drawing where
  left := m.registers.get op.x
  top := m.registers.get op.y
  index := m.index
  rows := (List.range op.n).map fun row => m.byteAt (m.index + (row : Nat))

theorem madeBy_drawingOf (h : m.WellFormed) (hfits : op.fits (.top 0xD)) :
    (m.drawingOf op).MadeBy op m where
  wellFormed := h
  fits := hfits
  left := rfl
  top := rfl
  index := rfl
  height := by rw [drawingOf, List.length_map, List.length_range]
  rows := by
    intro row hrow
    have hrange : (List.range op.n)[row]? = some row := List.getElem?_range hrow
    rw [drawingOf, List.getD_eq_getElem?_getD, List.getElem?_map, hrange]
    rfl

theorem drawingOf_congr (hx : m'.registers.get op.x = m.registers.get op.x)
    (hy : m'.registers.get op.y = m.registers.get op.y) (hindex : m'.index = m.index)
    (hmemory : m'.memory = m.memory) : m'.drawingOf op = m.drawingOf op := by
  simp only [drawingOf, byteAt, hx, hy, hindex, hmemory]

/-- A drawing changes no drawing that is still to be made at a place that other registers than
    the flag register name. -/
theorem drawingOf_execute (h : m.WellFormed) (hfits : op.fits (.top 0xD))
    (hx : op'.x ≠ flagRegister) (hy : op'.y ≠ flagRegister) :
    (m.execute op).state.drawingOf op' = m.drawingOf op' := by
  rw [(execute_draw h hfits).2]
  exact drawingOf_congr (Bank.get_put_of_ne _ hx _) (Bank.get_put_of_ne _ hy _) rfl rfl

/-- A word that draws at a place that other registers than the flag register name. -/
abbrev Draws (op : Opcode) : Prop :=
  op.fits (.top 0xD) ∧ op.x ≠ flagRegister ∧ op.y ≠ flagRegister

theorem made_executeAll (h : m.WellFormed) {ops : List Opcode} (hops : ∀ op ∈ ops, Draws op) :
    Drawing.Made (ops.map m.drawingOf) m (m.executeAll ops) := by
  -- the drawings are those of the first machine: what is still to be drawn is the same on the next
  induction ops generalizing m with
  | nil => exact .nil rfl
  | cons op rest ih =>
      obtain ⟨⟨hfits, _⟩, hrest⟩ := List.forall_mem_cons.1 hops
      have hnext := ih (wellFormed_execute h op) hrest
      have hsame : rest.map (m.execute op).state.drawingOf = rest.map m.drawingOf := by
        refine List.map_congr_left fun op' hop' => ?_
        obtain ⟨_, hx, hy⟩ := hrest op' hop'
        exact drawingOf_execute h hfits hx hy
      rw [hsame] at hnext
      exact .cons rfl (madeBy_drawingOf h hfits) hnext

/-- The machine after a word has been carried out at an address. -/
def executeAt (m : Machine) (index : Int) (op : Opcode) : Machine :=
  (execute { m with index } op).state

theorem wellFormed_executeAt (h : m.WellFormed) {index : Int}
    (hindex : 0 ≤ index ∧ index < 65536) (op : Opcode) : (m.executeAt index op).WellFormed :=
  wellFormed_execute (h.withIndex hindex) op

/-- Two words that draw from two addresses. -/
theorem made_executeAt (h : m.WellFormed) (hdraws : Draws op) (hdraws' : Draws op')
    {i j : Int} (hi : 0 ≤ i ∧ i < 65536) (hj : 0 ≤ j ∧ j < 65536) :
    Drawing.Made [{ m with index := i }.drawingOf op, { m with index := j }.drawingOf op'] m
      ((m.executeAt i op).executeAt j op') := by
  have hi' : WellFormed { m with index := i } := h.withIndex hi
  have hj' : WellFormed { m.executeAt i op with index := j } :=
    (wellFormed_executeAt h hi op).withIndex hj
  have hsame : drawingOf { m.executeAt i op with index := j } op'
      = drawingOf { m with index := j } op' := by
    rw [executeAt, (execute_draw hi' hdraws.1).2]
    exact drawingOf_congr (Bank.get_put_of_ne _ hdraws'.2.1 _)
      (Bank.get_put_of_ne _ hdraws'.2.2 _) rfl rfl
  rw [← hsame]
  refine .cons ?_ (madeBy_drawingOf hi' hdraws.1)
    (.cons ?_ (madeBy_drawingOf hj' hdraws'.1) (.nil ?_))
  · rfl
  · rfl
  · rfl

/-! ## Twice -/

theorem spriteCells_eq_cells (h : m.WellFormed) (hfits : op.fits (.top 0xD)) :
    m.spriteCells (m.registers.get op.x) (m.registers.get op.y) op.n = (m.drawingOf op).cells :=
  (madeBy_drawingOf h hfits).spriteCells_eq

theorem flag_execute (h : m.WellFormed) (hfits : op.fits (.top 0xD)) :
    (m.execute op).state.registers.get flagRegister
      = if ((m.drawingOf op).cells ∩ m.screen.litCells).Nonempty then 1 else 0 := by
  obtain ⟨_, _, hregisters, _⟩ := drawing_is_exact h hfits
  rw [hregisters, if_pos rfl, spriteCells_eq_cells h hfits]

/-- **DRAWING THE SAME SPRITE AGAIN** leaves the pixels as they were, and reports a collision
    exactly if the first drawing lit something. -/
theorem execute_execute (h : m.WellFormed) (hdraws : Draws op) :
    let drawn := (m.drawingOf op).cells
    let twice := (m.execute op).state.execute op
    twice.failure = none ∧ twice.state.screen.pixels = m.screen.pixels ∧
      twice.state.registers.get flagRegister
        = if (drawn \ m.screen.litCells).Nonempty then 1 else 0 := by
  intro drawn twice
  obtain ⟨hfits, hx, hy⟩ := hdraws
  have h' := wellFormed_execute h op
  -- the first drawing changes the flag register, which neither coordinate is read from
  have hsame : ((m.execute op).state.drawingOf op).cells = drawn :=
    congrArg Drawing.cells (drawingOf_execute h hfits hx hy)
  have hsub : drawn ⊆ m.screen.cells := Drawing.cells_subset h.screen_standard _
  have honce : (m.execute op).state.screen = m.screen.flipCells drawn :=
    (madeBy_drawingOf h hfits).screen_eq
  have htwice : twice.state.screen = (m.screen.flipCells drawn).flipCells drawn := by
    rw [← honce, ← hsame]
    exact (madeBy_drawingOf h' hfits).screen_eq
  refine ⟨(execute_draw h' hfits).1, ?_, ?_⟩
  · rw [htwice]
    exact h.screen_standard.bitmap.flipCells_flipCells hsub
  · rw [flag_execute h' hfits, hsame, honce]
    exact congrArg (fun cells : Finset (Nat × Nat) => if cells.Nonempty then 1 else 0)
      (h.screen_standard.bitmap.inter_litCells_flipCells hsub)

/-! ## Everything together -/

/-- **DRAWING THE SAME SPRITE TWICE ERASES IT, AND THE ORDER OF DRAWINGS DOES NOT MATTER.**

    * On a well-formed machine, a word that draws at a place that other registers than the flag
      register name restores every pixel when it is carried out again.  The first time it
      reports whether one of the cells of the sprite was lit before, the second time whether one
      of them was dark before: so a sprite with a bit set is reported at least once, and one
      without never.
    * Drawings, each with its place, its address and its bytes, leave the same pixels in
      whichever order they are made, and whatever else is done in between that leaves the pixels
      alone.
    * In particular words that draw may be carried out in any order. -/
theorem drawing_is_reversible :
    (∀ (m : Machine) (op : Opcode), m.WellFormed → op.fits (.top 0xD) →
      op.x ≠ flagRegister → op.y ≠ flagRegister →
      let drawn := m.spriteCells (m.registers.get op.x) (m.registers.get op.y) op.n
      let lit := m.screen.litCells
      let once := m.execute op
      let twice := once.state.execute op
      let reported := once.state.registers.get flagRegister
      let reportedAgain := twice.state.registers.get flagRegister
      (once.failure = none ∧ twice.failure = none) ∧
      twice.state.screen.pixels = m.screen.pixels ∧
      reported = (if (drawn ∩ lit).Nonempty then 1 else 0) ∧
      reportedAgain = (if (drawn \ lit).Nonempty then 1 else 0) ∧
      ((m.spriteBits op.n).Nonempty → reported = 1 ∨ reportedAgain = 1) ∧
      (m.spriteBits op.n = ∅ → reported = 0 ∧ reportedAgain = 0)) ∧
    (∀ (ds ds' : List Drawing) (m m' n n' : Machine), m.screen.Standard →
      n.screen.pixels = m.screen.pixels → ds.Perm ds' → Drawing.Made ds m m' →
      Drawing.Made ds' n n' → n'.screen.pixels = m'.screen.pixels) ∧
    ∀ (m : Machine) (ops ops' : List Opcode), m.WellFormed →
      (∀ op ∈ ops, op.fits (.top 0xD) ∧ op.x ≠ flagRegister ∧ op.y ≠ flagRegister) →
      ops.Perm ops' →
      (m.executeAll ops').screen.pixels = (m.executeAll ops).screen.pixels := by
  refine ⟨?_, ?_, ?_⟩
  · intro m op h hfits hx hy drawn lit once twice reported reportedAgain
    have hdrawn : drawn = (m.drawingOf op).cells := spriteCells_eq_cells h hfits
    have hfirst : reported = if (drawn ∩ lit).Nonempty then 1 else 0 := by
      rw [hdrawn]
      exact flag_execute h hfits
    obtain ⟨hok, hpixels, hsecond⟩ := execute_execute h ⟨hfits, hx, hy⟩
    rw [← hdrawn] at hsecond
    refine ⟨⟨(execute_draw h hfits).1, hok⟩, hpixels, hfirst, hsecond, ?_, ?_⟩
    · rintro ⟨bit, hbit⟩
      have hcell : ∃ c, c ∈ drawn := ⟨_, Finset.mem_image_of_mem _ hbit⟩
      obtain ⟨c, hc⟩ := hcell
      by_cases hlit : c ∈ lit
      · exact Or.inl (hfirst.trans (if_pos ⟨c, Finset.mem_inter.2 ⟨hc, hlit⟩⟩))
      · exact Or.inr (hsecond.trans (if_pos ⟨c, Finset.mem_sdiff.2 ⟨hc, hlit⟩⟩))
    · intro hempty
      have hnone : drawn = ∅ := by
        show m.spriteCells _ _ _ = ∅
        rw [spriteCells, hempty, Finset.image_empty]
      rw [hnone, Finset.empty_inter, if_neg Finset.not_nonempty_empty] at hfirst
      rw [hnone, Finset.empty_sdiff, if_neg Finset.not_nonempty_empty] at hsecond
      exact ⟨hfirst, hsecond⟩
  · intro ds ds' m m' n n' w hpixels hperm hmade hmade'
    exact hmade.pixels_perm hmade' w hpixels hperm
  · intro m ops ops' h hops hperm
    have hops' : ∀ op ∈ ops', Draws op := fun op hop => hops op (hperm.mem_iff.2 hop)
    exact (made_executeAll h hops).pixels_perm (made_executeAll h hops') h.screen_standard rfl
      (hperm.map m.drawingOf)

/-- A glyph across two edges of a dark screen is erased when it is drawn again; and two glyphs at
    two addresses leave the same pixels in both orders. -/
theorem glyphs_drawn_and_erased :
    let m := ((fresh 10 440 (.cycling [])).withRegister 1 62).withRegister 2 30
    let op : Opcode := 0xD125
    m.WellFormed ∧ op.fits (.top 0xD) ∧ op.x ≠ flagRegister ∧ op.y ≠ flagRegister ∧
      ((m.execute op).state.execute op).state.screen.pixels = m.screen.pixels ∧
      (m.execute op).state.registers.get flagRegister = 0 ∧
      ((m.execute op).state.execute op).state.registers.get flagRegister = 1 ∧
      ((m.executeAt 5 op).executeAt 0 op).screen.pixels
        = ((m.executeAt 0 op).executeAt 5 op).screen.pixels ∧
      (m.executeAll [0xD213, op]).screen.pixels = (m.executeAll [op, 0xD213]).screen.pixels := by
  intro m op
  have h : m.WellFormed :=
    ((wellFormed_fresh 10 440 (.cycling [])).withRegister 1 62).withRegister 2 30
  have hfits : op.fits (.top 0xD) := by decide
  obtain ⟨htwice, horder, hwords⟩ := drawing_is_reversible
  obtain ⟨_, hpixels, hfirst, _, hreported, _⟩ := htwice m op h hfits (by decide) (by decide)
  have hdark : m.screen.litCells = ∅ := litCells_dark _ _
  rw [hdark, Finset.inter_empty, if_neg Finset.not_nonempty_empty] at hfirst
  have hbit : (0, 0) ∈ m.spriteBits op.n := by
    have hbyte : m.byteAt (m.index + (0 : Nat)) = 0xF0 := get_fresh 10 440 (.cycling []) 0
    refine mem_spriteBits.2 ⟨by decide, ?_⟩
    rw [hbyte]
    decide
  have hagain := (hreported ⟨_, hbit⟩).resolve_left (by rw [hfirst]; decide)
  have hdraws : Draws op := ⟨hfits, by decide, by decide⟩
  have hforth := made_executeAt h hdraws hdraws (i := 0) (j := 5) (by decide) (by decide)
  have hback := made_executeAt h hdraws hdraws (i := 5) (j := 0) (by decide) (by decide)
  refine ⟨h, hfits, by decide, by decide, hpixels, hfirst, hagain, ?_, ?_⟩
  · exact horder _ _ m _ m _ h.screen_standard rfl (.swap _ _ []) hforth hback
  · exact hwords m [op, 0xD213] _ h (by decide) (.swap _ _ [])

end Machine

end Chip8
