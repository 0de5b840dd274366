import Chip8.Proofs.Console.Saving

/-! # The decimal digits of a register

    `Fx33` leaves the three decimal digits of a register in memory, the hundreds first, in three
    cells that may go on around the end (**`converts_execute`**).  What `F265` then loads are
    the digits (**`Restores.digits`**), whatever register they came from, for the digits are
    stored before any register is loaded.  Each of them is the number of a glyph, so `Fr29` finds
    the glyph of the digit if the glyphs are where they were put (**`glyph_of_digit`**).

    **`digits_in_memory`** is the three together, as programs use them to show a number. -/

namespace Chip8

open Machine

/-- Three digits write a number in decimal, the hundreds first. -/
structure Writes (digit : Nat → Nat) (value : Nat) : Prop where
  hundreds : digit 0 ≤ 2
  tens : digit 1 ≤ 9
  ones : digit 2 ≤ 9
  value : 100 * digit 0 + 10 * digit 1 + digit 2 = value

/-- The decimal digits of a byte, the hundreds first. -/
def digitOf (value : Nat) : Nat → Nat
  | 0 => value / 100
  | 1 => value / 10 % 10
  | _ => value % 10

theorem writes_digitOf {value : Nat} (h : value < 256) : Writes (digitOf value) value := by
  constructor <;> simp only [digitOf] <;> omega

theorem Writes.le {digit : Nat → Nat} {value j : Nat} (h : Writes digit value) (hj : j < 3) :
    digit j ≤ 9 := by
  obtain ⟨hhundreds, htens, hones, -⟩ := h
  interval_cases j <;> omega

namespace Machine

variable {m m' : Machine} {op : Opcode} {x : Nat} {digit : Nat → Nat}

/-- The three cells from the index register on hold digits that write what a register holds; no
    other cell has changed, no register, and not the index register. -/
structure Converts (m m' : Machine) (x : Nat) (digit : Nat → Nat) : Prop where
  writes : Writes digit (m.registers.get x)
  cells : ∀ j < 3, m'.memory.get ((m.index + (j : Nat)) % 4096).toNat = digit j
  others : ∀ a, (∀ j < 3, a ≠ ((m.index + (j : Nat)) % 4096).toNat) →
    m'.memory.get a = m.memory.get a
  registers : m'.registers = m.registers
  index : m'.index = m.index

theorem get_withByte (h : m.WellFormed) (address : Int) {value : Nat} (hvalue : value < 256) :
    (m.withByte address value).memory.get (addressOf address).toNat = value := by
  have hcell : (addressOf address).toNat < m.memory.size := by
    have hrange := addressOf_range address
    rw [h.memory_size]
    omega
  rw [withByte, Bank.get_put _ hcell, if_pos rfl, Nat.mod_eq_of_lt hvalue]

/-- Two of three addresses in a row, around the end of memory, are different. -/
theorem addressOf_apart (a : Int) {i j : Nat} (hi : i < 3) (hj : j < 3) (hne : i ≠ j) :
    (addressOf (a + i)).toNat ≠ (addressOf (a + j)).toNat := by
  have hsmall : 3 < memorySize := by decide
  exact fun hsame => hne (addressOf_inj (by omega) (by omega) hsame)

/-- So bytes that are put there one after the other all stay. -/
theorem get_three_bytes (h : m.WellFormed) (byte : Nat → Nat) (hbyte : ∀ j < 3, byte j < 256)
    {j : Nat} (hj : j < 3) :
    (((m.withByte m.index (byte 0)).withByte (m.index + 1) (byte 1)).withByte (m.index + 2)
      (byte 2)).memory.get (addressOf (m.index + (j : Nat))).toNat = byte j := by
  have hfirst := h.withByte m.index (byte 0)
  have hsecond := hfirst.withByte (m.index + 1) (byte 1)
  have hcases : j = 0 ∨ j = 1 ∨ j = 2 := by omega
  rcases hcases with rfl | rfl | rfl
  · have hstart : m.index + ((0 : Nat) : Int) = m.index := Int.add_zero _
    have hone := addressOf_apart m.index (i := 0) (j := 1) (by decide) (by decide) (by decide)
    have htwo := addressOf_apart m.index (i := 0) (j := 2) (by decide) (by decide) (by decide)
    rw [hstart] at hone htwo ⊢
    refine (get_withByte_of_ne htwo _).trans ((get_withByte_of_ne hone _).trans ?_)
    exact get_withByte h m.index (hbyte 0 hj)
  · have htwo := addressOf_apart m.index (i := 1) (j := 2) (by decide) (by decide) (by decide)
    exact (get_withByte_of_ne htwo _).trans (get_withByte hfirst (m.index + 1) (hbyte 1 hj))
  · exact get_withByte hsecond (m.index + 2) (hbyte 2 hj)

/-- **TAKING A REGISTER APART** succeeds, and changes nothing else but the program counter. -/
theorem converts_execute (h : m.WellFormed) (hfits : op.fits (.tail 0xF 0x33)) :
    (m.execute op).failure = none ∧
      Converts m (m.execute op).state op.x (digitOf (m.registers.get op.x)) := by
  have hdec : decode op = some ⟨.decimal, op⟩ := decode_of_fits (by decide) (by decide) hfits
  have hvalue : m.registers.get op.x < 256 := Bank.get_lt _ _
  have hwrites := writes_digitOf hvalue
  rw [execute_of_decode h hdec rfl]
  refine ⟨rfl, hwrites, ?_, ?_, rfl, rfl⟩
  · intro j hj
    refine get_three_bytes h.advance (digitOf (m.registers.get op.x)) ?_ hj
    intro i hi
    have hle := hwrites.le hi
    omega
  · intro a ha
    exact Instruction.get_memory_effect (m := m.advance) ⟨.decimal, op⟩ ha

/-- **THE DIGITS ARE LOADED** into the first three registers. -/
theorem Restores.digits {load : Outcome Failure Log.Entry Machine} (hload : Restores m' 2 load)
    (hconverts : Converts m m' x digit) : ∀ j < 3, load.state.registers.get j = digit j := by
  intro j hj
  rw [hload.registers j (by omega), hconverts.index]
  exact hconverts.cells j hj

/-! ## Glyphs of digits -/

/-- The glyphs are where they were put when the machine was switched on. -/
def HoldsFont (m : Machine) : Prop :=
  ∀ a < font.length, m.memory.get (fontStart + a) = (font.getD a 0).toNat

/-- The index register is at the glyph of a digit. -/
structure AtGlyph (m : Machine) (digit : Nat) : Prop where
  index : m.index = fontStart + digit * glyphSize
  rows : ∀ i < glyphSize,
    m.memory.get (m.index.toNat + i) = (font.getD (digit * glyphSize + i) 0).toNat

theorem Converts.of_sameData {m'' : Machine} (h : Converts m m' x digit) (hsame : SameData m' m'') :
    Converts m m'' x digit where
  writes := h.writes
  cells := hsame.memory ▸ h.cells
  others := hsame.memory ▸ h.others
  registers := hsame.registers.trans h.registers
  index := hsame.index.trans h.index

theorem AtGlyph.of_sameData {d : Nat} (h : AtGlyph m d) (hsame : SameData m m') : AtGlyph m' d where
  index := hsame.index.trans h.index
  rows := by
    rw [hsame.memory, hsame.index]
    exact h.rows

theorem Converts.holdsFont (hconverts : Converts m m' x digit) (hfont : m.HoldsFont)
    (hout : ∀ j < 3, fontStart + font.length ≤ ((m.index + (j : Nat)) % 4096).toNat) :
    m'.HoldsFont := by
  intro a ha
  rw [hconverts.others (fontStart + a) ?_]
  · exact hfont a ha
  · intro j hj
    have hbehind := hout j hj
    omega

/-- A digit selects its own glyph. -/
theorem glyph_of_digit (h : m.WellFormed) (hfont : m.HoldsFont)
    (hfits : op.fits (.tail 0xF 0x29)) (hdigit : m.registers.get op.x ≤ 9) :
    (m.execute op).failure = none ∧
      AtGlyph (m.execute op).state (m.registers.get op.x) := by
  have hdec : decode op = some ⟨.glyph, op⟩ := decode_of_fits (by decide) (by decide) hfits
  rw [execute_of_decode h hdec rfl]
  refine ⟨rfl, rfl, ?_⟩
  intro i hi
  have hrow : m.registers.get op.x * glyphSize + i < font.length := by
    have hlength : font.length = 80 := rfl
    simp only [glyphSize] at hi ⊢
    omega
  have hcell : m.memory.get (fontStart + (m.registers.get op.x * glyphSize + i)) = _ :=
    hfont _ hrow
  rw [← Nat.add_assoc] at hcell
  exact hcell

/-- A step fails just as the word at the program counter does. -/
theorem failure_step (h : m.WellFormed) : m.step.failure = (m.execute m.word).failure := by
  simp only [step, fetch_eq h]
  split <;> rfl

end Machine

namespace Console

variable {c : Console} {op : Opcode} {call : Call}

/-- A call that carries out a word fails just as the word does. -/
theorem Call.CarriesOut.failure (hcall : call.CarriesOut c op) (h : c.machine.WellFormed) :
    (c.perform call).failure = (c.machine.execute op).failure := by
  rcases hcall with rfl | ⟨rfl, rfl⟩
  · rfl
  · exact failure_step h

theorem converts_perform (h : c.machine.WellFormed) (hfits : op.fits (.tail 0xF 0x33))
    (hcall : call.CarriesOut c op) :
    (c.perform call).failure = none ∧
      Converts c.machine (c.perform call).state.machine op.x
        (digitOf (c.machine.registers.get op.x)) := by
  obtain ⟨hsuccess, hconverts⟩ := converts_execute h hfits
  exact ⟨(hcall.failure h).trans hsuccess, hconverts.of_sameData (hcall.sameData h)⟩

/-- **THE DIGITS OF A REGISTER GO THROUGH MEMORY AND BACK.**  On any console with a well-formed
    machine, wherever the index register is,

    * `Fx33` leaves digits that write register `x` in the three cells from there on, around the
      end of memory if need be, and changes no other cell, no register and not the index
      register;
    * `F265` then loads these digits into the first three registers, also if `x` is one of them;
    * `Fr29` then goes to the glyph of the digit, for each of the three registers, if the glyphs
      were intact and the digits were not stored over them.

    None of these fails, whether they are called for or fetched from memory. -/
theorem digits_in_memory (h : c.machine.WellFormed) {convert load : Opcode} {first second : Call}
    (hconvert : convert.fits (.tail 0xF 0x33)) (hload : load.fits (.tail 0xF 0x65))
    (hx : load.x = 2) (hfirst : first.CarriesOut c convert)
    (hsecond : second.CarriesOut (c.perform first).state load) :
    let converted := (c.perform first).state
    let loaded := (converted.perform second).state
    ∃ digit, Converts c.machine converted.machine convert.x digit ∧
      (c.perform first).failure = none ∧
      (∀ j < 3, loaded.machine.registers.get j = digit j) ∧
      (converted.perform second).failure = none ∧
      (c.machine.HoldsFont →
        (∀ j < 3, fontStart + font.length ≤ ((c.machine.index + (j : Nat)) % 4096).toNat) →
        ∀ (glyph : Opcode) (third : Call), glyph.fits (.tail 0xF 0x29) → glyph.x < 3 →
          third.CarriesOut loaded glyph →
          (loaded.perform third).failure = none ∧
            AtGlyph (loaded.perform third).state.machine (digit glyph.x)) := by
  intro converted loaded
  have hconverted : converted.machine.WellFormed := wellFormed_perform h first
  have hloaded : loaded.machine.WellFormed := wellFormed_perform hconverted second
  obtain ⟨hsuccess, hconverts⟩ := converts_perform h hconvert hfirst
  have hrestores := restores_execute hconverted hload
  rw [hx] at hrestores
  have hsame := hsecond.sameData hconverted
  have hdigits : ∀ j < 3,
      loaded.machine.registers.get j = digitOf (c.machine.registers.get convert.x) j := by
    intro j hj
    rw [hsame.registers]
    exact hrestores.digits hconverts j hj
  refine ⟨_, hconverts, hsuccess, hdigits, (hsecond.failure hconverted).trans hrestores.success, ?_⟩
  intro hfont hout glyph third hglyph hr hthird
  have hmemory : loaded.machine.memory = converted.machine.memory := by
    rw [hsame.memory, hrestores.rest]
  have hglyphs : loaded.machine.HoldsFont := by
    rw [HoldsFont, hmemory]
    exact hconverts.holdsFont hfont hout
  have hdigit := hdigits glyph.x hr
  have hle : loaded.machine.registers.get glyph.x ≤ 9 := hdigit ▸ hconverts.writes.le hr
  obtain ⟨hfound, hat⟩ := glyph_of_digit hloaded hglyphs hglyph hle
  rw [hdigit] at hat
  exact ⟨(hthird.failure hloaded).trans hfound, hat.of_sameData (hthird.sameData hloaded)⟩

/-- A register that is among those loaded, taken apart in the last three cells of memory: the
    glyphs of its digits are found. -/
theorem digits_of_third_register :
    let m := { (Machine.fresh 10 440 (.cycling [])).withRegister 2 207 with index := 0xFFFD }
    let c := ofMachine m
    let converted := (c.perform (.execute 0xF233)).state
    let loaded := (converted.perform (.execute 0xF265)).state
    m.WellFormed ∧ m.HoldsFont ∧ converted.machine.memory.get 0xFFF = 7 ∧
      loaded.machine.registers.get 0 = 2 ∧ loaded.machine.registers.get 1 = 0 ∧
      loaded.machine.registers.get 2 = 7 ∧
      AtGlyph (loaded.perform (.execute 0xF229)).state.machine 7 := by
  intro m c converted loaded
  have h : m.WellFormed :=
    ((Machine.wellFormed_fresh 10 440 (.cycling [])).withRegister 2 207).withIndex (by decide)
  have hfont : m.HoldsFont := by
    intro a _
    have hcell := get_fresh 10 440 (.cycling []) (fontStart + a)
    rw [show fontStart + a = a from Nat.zero_add a] at hcell ⊢
    exact hcell
  have hvalue : m.registers.get 2 = 207 := rfl
  obtain ⟨digit, hconverts, _, hloaded, _, hglyphs⟩ :=
    @digits_in_memory c h 0xF233 0xF265 (.execute 0xF233) (.execute 0xF265) (by decide)
      (by decide) (by decide) (Or.inl rfl) (Or.inl rfl)
  have hsame : loaded = ((c.perform (.execute 0xF233)).state.perform (.execute 0xF265)).state := rfl
  rw [← hsame] at hloaded
  obtain ⟨hhundreds, htens, hones, hsum⟩ := hconverts.writes
  have hsum : 100 * digit 0 + 10 * digit 1 + digit 2 = 207 := hsum.trans hvalue
  have htwo : digit 0 = 2 := by omega
  have hzero : digit 1 = 0 := by omega
  have hseven : digit 2 = 7 := by omega
  have hlast : ((c.machine.index + (2 : Nat)) % 4096).toNat = 0xFFF := by decide
  have hcell := hconverts.cells 2 (by decide)
  rw [hlast] at hcell
  have hbehind : ∀ j < 3,
      fontStart + font.length ≤ ((c.machine.index + (j : Nat)) % 4096).toNat := by decide
  have hat : AtGlyph (loaded.perform (.execute 0xF229)).state.machine (digit 2) :=
    (hglyphs hfont hbehind 0xF229 (.execute 0xF229) (by decide) (by decide) (Or.inl rfl)).2
  refine ⟨h, hfont, hcell.trans hseven, ?_, ?_, ?_, hseven ▸ hat⟩
  · exact (hloaded 0 (by decide)).trans htwo
  · exact (hloaded 1 (by decide)).trans hzero
  · exact (hloaded 2 (by decide)).trans hseven

end Console

end Chip8
