import Chip8.Proofs.Machine.Reach
import Chip8.Proofs.Screen.Cells

/-! # Drawing a sprite

    A sprite is read from memory row by row, around the end of memory, and its set bits are
    toggled on the screen, around both edges.  It is eight pixels wide and at most fifteen high,
    so on a screen of 64 by 32 no two of its bits come to the same cell
    (**`nodup_wrap_sprite`**), whatever the place that it is drawn at.  That is why toggling bit
    by bit, and asking of each whether it was lit, comes to flipping the set of cells
    **`spriteCells`** once (**`drawing_is_exact`**). -/

namespace Chip8.Machine

open Instruction Screen

/-- The bits of a sprite at the index register that are set, each as its place in its row, from
    the left, and the row. -/
def spriteBits (m : Machine) (height : Nat) : Finset (Nat × Nat) :=
  (Finset.range 8 ×ˢ Finset.range height).filter fun bit =>
    (m.memory.get ((m.index + bit.2) % 4096).toNat).testBit (7 - bit.1) = true

/-- The cells of the screen that a sprite drawn at `(left, top)` sets. -/
def spriteCells (m : Machine) (left top height : Nat) : Finset (Nat × Nat) :=
  (m.spriteBits height).image fun bit => ((left + bit.1) % 64, (top + bit.2) % 32)

variable {m : Machine} {left top height : Nat}

/-! ## The points of a sprite -/

theorem mem_spriteBits {bit : Nat × Nat} :
    bit ∈ m.spriteBits height ↔
      (bit.1 < 8 ∧ bit.2 < height) ∧ (m.byteAt (m.index + bit.2)).testBit (7 - bit.1) = true := by
  rw [spriteBits, Finset.mem_filter, Finset.mem_product, Finset.mem_range, Finset.mem_range]
  exact Iff.rfl

/-- The bits of a sprite are those of the bytes at its rows. -/
theorem spriteBits_of_bytes {bytes : Nat → Nat}
    (hbytes : ∀ row < height, m.byteAt (m.index + (row : Nat)) = bytes row) :
    m.spriteBits height = (Finset.range 8 ×ˢ Finset.range height).filter fun bit =>
      (bytes bit.2).testBit (7 - bit.1) = true := by
  refine Finset.filter_congr fun bit hbit => ?_
  rw [← hbytes bit.2 (Finset.mem_range.1 (Finset.mem_product.1 hbit).2)]
  exact Iff.rfl

theorem mem_sprite {p : Int × Int} :
    p ∈ m.sprite left top height ↔
      ∃ bit ∈ m.spriteBits height, p = ((left + bit.1 : Int), (top + bit.2 : Int)) := by
  induction height with
  | zero =>
      simp [sprite, mem_spriteBits]
  | succ k ih =>
      rw [sprite, List.mem_append, ih, spriteRow, List.mem_map]
      constructor
      · rintro (⟨bit, hbit, hp⟩ | ⟨column, hcolumn, hp⟩)
        · obtain ⟨⟨hx, hy⟩, hset⟩ := mem_spriteBits.1 hbit
          exact ⟨bit, mem_spriteBits.2 ⟨⟨hx, Nat.lt_succ_of_lt hy⟩, hset⟩, hp⟩
        · obtain ⟨hx, hset⟩ := List.mem_filter.1 hcolumn
          have hbit : (column, k) ∈ m.spriteBits (k + 1) :=
            mem_spriteBits.2 ⟨⟨List.mem_range.1 hx, Nat.lt_succ_self k⟩, hset⟩
          exact ⟨(column, k), hbit, hp.symm⟩
      · rintro ⟨bit, hbit, hp⟩
        obtain ⟨⟨hx, hy⟩, hset⟩ := mem_spriteBits.1 hbit
        rcases Nat.lt_succ_iff_lt_or_eq.1 hy with hlt | rfl
        · exact Or.inl ⟨bit, mem_spriteBits.2 ⟨⟨hx, hlt⟩, hset⟩, hp⟩
        · exact Or.inr ⟨bit.1, List.mem_filter.2 ⟨List.mem_range.2 hx, hset⟩, hp.symm⟩

theorem nodup_sprite (m : Machine) (left top height : Nat) : (m.sprite left top height).Nodup := by
  induction height with
  | zero => exact List.nodup_nil
  | succ k ih =>
      rw [sprite, spriteRow]
      refine ih.append ?_ ?_
      · refine List.Nodup.map ?_ (List.nodup_range.filter _)
        intro a b hab
        have hcolumn := congrArg Prod.fst hab
        exact Int.ofNat_inj.1 (Int.add_left_cancel hcolumn)
      · intro p habove hrow
        obtain ⟨bit, hbit, rfl⟩ := mem_sprite.1 habove
        obtain ⟨column, _, hp⟩ := List.mem_map.1 hrow
        have hlt := (mem_spriteBits.1 hbit).1.2
        have hsame : (top + k : Int) = top + bit.2 := congrArg Prod.snd hp
        omega

/-- **NO TWO BITS COME TO THE SAME CELL.** -/
theorem nodup_wrap_sprite {s : Screen} (w : s.Standard) (hheight : height ≤ 32) :
    ((m.sprite left top height).map s.wrap).Nodup := by
  refine List.Nodup.map_on ?_ (nodup_sprite m left top height)
  intro p hp q hq hwrap
  obtain ⟨a, ha, rfl⟩ := mem_sprite.1 hp
  obtain ⟨b, hb, rfl⟩ := mem_sprite.1 hq
  obtain ⟨hax, hay⟩ := (mem_spriteBits.1 ha).1
  obtain ⟨hbx, hby⟩ := (mem_spriteBits.1 hb).1
  obtain ⟨hx, hy⟩ := (w.bitmap.wrap_eq_wrap_iff _ _).1 hwrap
  rw [w.columns_eq] at hx
  rw [w.rows_eq] at hy
  simp only [screenColumns, screenRows] at hx hy
  refine Prod.ext ?_ ?_
  · show (left + a.1 : Int) = left + b.1
    omega
  · show (top + a.2 : Int) = top + b.2
    omega

theorem toFinset_wrap_sprite {s : Screen} (w : s.Standard) :
    ((m.sprite left top height).map s.wrap).toFinset = m.spriteCells left top height := by
  have hwrap (bit : Nat × Nat) : s.wrap ((left + bit.1 : Int), (top + bit.2 : Int))
      = ((left + bit.1) % 64, (top + bit.2) % 32) := by
    rw [wrap, w.columns_eq, w.rows_eq, Prod.mk.injEq]
    simp only [screenColumns, screenRows]
    omega
  ext c
  rw [List.mem_toFinset, List.mem_map, spriteCells, Finset.mem_image]
  constructor
  · rintro ⟨p, hp, rfl⟩
    obtain ⟨bit, hbit, rfl⟩ := mem_sprite.1 hp
    exact ⟨bit, hbit, (hwrap bit).symm⟩
  · rintro ⟨bit, hbit, rfl⟩
    exact ⟨_, mem_sprite.2 ⟨bit, hbit, rfl⟩, hwrap bit⟩

theorem spriteCells_subset {s : Screen} (w : s.Standard) :
    m.spriteCells left top height ⊆ s.cells := by
  intro c hc
  rw [← toFinset_wrap_sprite w, List.mem_toFinset] at hc
  obtain ⟨p, _, rfl⟩ := List.mem_map.1 hc
  exact w.bitmap.wrap_mem_cells p

/-! ## The instruction -/

/-- The machine after a sprite has been drawn. -/
theorem execute_draw (h : m.WellFormed) {op : Opcode} (hfits : op.fits (.top 0xD)) :
    let drawn := m.spriteCells (m.registers.get op.x) (m.registers.get op.y) op.n
    (m.execute op).failure = none ∧ (m.execute op).state = { m with
      pc := addressOf (m.pc + 2)
      registers := m.registers.put flagRegister
        (if (drawn ∩ m.screen.litCells).Nonempty then 1 else 0)
      screen := m.screen.flipCells drawn } := by
  intro drawn
  have w := h.screen_standard
  have hdec : decode op = some ⟨.draw, op⟩ := decode_of_fits (by decide) (by decide) hfits
  have hheight : op.n ≤ 32 := by
    have := op.n_lt
    omega
  let points := m.advance.sprite (m.registers.get op.x) (m.registers.get op.y) op.n
  have hdistinct : (points.map m.screen.wrap).Nodup := nodup_wrap_sprite w hheight
  have hdrawn : (points.map m.screen.wrap).toFinset = drawn := toFinset_wrap_sprite w
  have hscreen : m.screen.flipAll points = m.screen.flipCells drawn := by
    rw [w.bitmap.flipAll_eq hdistinct, hdrawn]
  have herases : m.screen.erases points = true ↔ (drawn ∩ m.screen.litCells).Nonempty := by
    rw [w.bitmap.erases_iff hdistinct, ← hdrawn]
    simp only [Finset.Nonempty, Finset.mem_inter, List.mem_toFinset, List.mem_map]
    constructor
    · rintro ⟨p, hp, hlit⟩
      exact ⟨_, ⟨p, hp, rfl⟩, hlit⟩
    · rintro ⟨_, ⟨p, hp, rfl⟩, hlit⟩
      exact ⟨p, hp, hlit⟩
  have hflag : (m.screen.erases points).toNat
      = if (drawn ∩ m.screen.litCells).Nonempty then 1 else 0 := by
    by_cases hhit : (drawn ∩ m.screen.litCells).Nonempty
    · rw [if_pos hhit, herases.2 hhit]
      rfl
    · rw [if_neg hhit, Bool.eq_false_iff.2 (mt herases.1 hhit)]
      rfl
  rw [execute_of_decode h hdec rfl, ← hscreen, ← hflag]
  exact ⟨rfl, rfl⟩

/-- **DRAWING IS EXACT.**  On a well-formed machine, let `S` be the cells of the set bits of a
    sprite of at most fifteen rows at the index register, with its address and both coordinates
    wrapped.  Drawing it, whichever registers name the place:

    * flips each cell of `S` once, as no two of the points toggled name the same cell, and no
      other cell;
    * sets the flag register to whether one of them was lit, and no other register;
    * changes the number of lit pixels by that of the cells in `S`, less twice that of those
      among them that were lit;
    * asks for the picture to be drawn again if `S` is not empty;
    * and changes nothing else but the program counter, which goes on by one word. -/
theorem drawing_is_exact (h : m.WellFormed) {op : Opcode} (hfits : op.fits (.top 0xD)) :
    let px := m.registers.get op.x
    let py := m.registers.get op.y
    let S := m.spriteCells px py op.n
    let lit := m.screen.litCells
    let collision := if (S ∩ lit).Nonempty then 1 else 0
    let o := m.execute op
    (∀ x y : Nat, x < 64 → y < 32 →
      o.state.screen.lit x y = .ok (decide ((x, y) ∈ lit) ^^ decide ((x, y) ∈ S))) ∧
    (∃ points, drawRows px py op.n (m.advance, false) =
        ((m.screen.toggleAll points).mapFailure .screen).mapState
          (fun r => ({ m.advance with screen := r.1 }, r.2)) ∧
      (points.map m.screen.wrap).Nodup ∧ (points.map m.screen.wrap).toFinset = S) ∧
    (∀ r, o.state.registers.get r = if r = flagRegister then collision else m.registers.get r) ∧
    (o.state.screen.litCount : Int) = m.screen.litCount + (S.card - 2 * (S ∩ lit).card) ∧
    o.state.screen.stale = (m.screen.stale || decide S.Nonempty) ∧
    o.failure = none ∧ o.state = { m with
      pc := addressOf (m.pc + 2)
      registers := m.registers.put flagRegister collision
      screen := m.screen.flipCells S } := by
  intro px py S lit collision o
  have w := h.screen_standard
  have hsub : S ⊆ m.screen.cells := spriteCells_subset w
  obtain ⟨hok, hstate⟩ : o.failure = none ∧ o.state = _ := execute_draw h hfits
  refine ⟨?_, ?_, ?_, ?_, ?_, hok, hstate⟩
  · intro x y hx hy
    have hcell : (x, y) ∈ m.screen.cells := by
      rw [w.cells_eq, Finset.mem_product, Finset.mem_range, Finset.mem_range]
      exact ⟨hx, hy⟩
    rw [hstate]
    exact w.bitmap.lit_flipCells hsub hcell
  · refine ⟨m.advance.sprite px py op.n, ?_, ?_, ?_⟩
    · rw [h.advance.drawRows_eq, w.bitmap.toggleAll_eq]
      rfl
    · exact nodup_wrap_sprite w (Nat.le_of_lt (Nat.lt_trans op.n_lt (by decide)))
    · exact toFinset_wrap_sprite w
  · intro r
    have hflag : flagRegister < m.registers.size := by
      rw [h.registers_size]
      decide
    have hbit : collision % 256 = collision := by
      refine Nat.mod_eq_of_lt ?_
      unfold collision
      split <;> decide
    rw [hstate, Bank.get_put _ hflag, hbit]
  · rw [hstate]
    exact w.bitmap.litCount_flipCells hsub
  · rw [hstate]
    rfl

/-- Two rows of a sprite at the last address, drawn across both edges by a register that is also
    the flag register. -/
theorem sprite_across_the_edges :
    let m := { ((fresh 10 440 (.cycling [])).withRegister 1 62).withRegister flagRegister 31 with
      index := 0xFFFF
      memory := ((Bank.zeros memorySize).put 0xFFF 0xA0).put 0 0x90 }
    m.WellFormed ∧ Opcode.fits 0xD1F2 (.top 0xD) ∧
      m.spriteCells 62 31 2 = {(62, 31), (0, 31), (62, 0), (1, 0)} ∧
      (m.execute 0xD1F2).state.screen.litCount = 4 ∧
      (m.execute 0xD1F2).state.registers.get flagRegister = 0 ∧
      (m.execute 0xD1F2).state.screen.lit (0 : Nat) (31 : Nat) = .ok true ∧
      (m.execute 0xD1F2).state.screen.lit (63 : Nat) (31 : Nat) = .ok false := by
  intro m
  have h : m.WellFormed := by
    have hfresh := (wellFormed_fresh 10 440 (.cycling [])).withRegister 1 62
    exact { hfresh.withRegister flagRegister 31 with
      memory_size := by rw [Bank.size_put, Bank.size_put, Bank.size_zeros]
      index_range := by decide }
  have hfits : Opcode.fits 0xD1F2 (.top 0xD) := by decide
  have hbytes : ∀ row < 2, m.byteAt (m.index + (row : Nat)) = [0xA0, 0x90].getD row 0 := by
    intro row hrow
    have hsize : (Bank.zeros memorySize).size = 4096 := Bank.size_zeros _
    have hput : ((Bank.zeros memorySize).put 0xFFF 0xA0).size = 4096 :=
      (Bank.size_put _ _ _).trans hsize
    interval_cases row
    · show (((Bank.zeros memorySize).put 0xFFF 0xA0).put 0 0x90).get 0xFFF = 0xA0
      rw [Bank.get_put_of_ne _ (by decide), Bank.get_put _ (by omega), if_pos rfl]
    · show (((Bank.zeros memorySize).put 0xFFF 0xA0).put 0 0x90).get 0 = 0x90
      rw [Bank.get_put _ (by omega), if_pos rfl]
  have hcells : m.spriteCells 62 31 2 = {(62, 31), (0, 31), (62, 0), (1, 0)} := by
    rw [spriteCells, spriteBits_of_bytes hbytes]
    decide
  have hdark : m.screen.litCount = 0 := by
    show (Array.replicate (screenRows * screenColumns) (0 : UInt8)).countP (· != 0) = 0
    rw [Array.countP_replicate]
    rfl
  have hlit : m.screen.litCells = ∅ :=
    Finset.card_eq_zero.1 (h.screen_standard.bitmap.litCount_eq.symm.trans hdark)
  obtain ⟨hpixel, _, hregisters, hcount, _⟩ := drawing_is_exact h hfits
  have hx : m.registers.get (Opcode.x 0xD1F2) = 62 := by decide
  have hy : m.registers.get (Opcode.y 0xD1F2) = 31 := by decide
  have hn : Opcode.n 0xD1F2 = 2 := by decide
  rw [hx, hy, hn, hcells, hlit] at hpixel hregisters hcount
  rw [Finset.inter_empty] at hregisters hcount
  have hfour : ({(62, 31), (0, 31), (62, 0), (1, 0)} : Finset (Nat × Nat)).card = 4 := rfl
  refine ⟨h, hfits, hcells, ?_, ?_, ?_, ?_⟩
  · rw [hdark, hfour, Finset.card_empty] at hcount
    omega
  · rw [hregisters, if_pos rfl, if_neg Finset.not_nonempty_empty]
  · rw [hpixel 0 31 (by decide) (by decide)]
    rfl
  · rw [hpixel 63 31 (by decide) (by decide)]
    rfl

end Chip8.Machine
