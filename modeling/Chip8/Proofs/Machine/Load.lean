import Chip8.Machine.Program
import Chip8.Proofs.Machine.Step
import Mathlib.Data.List.GetD

/-! # What loading does

    A program that fits is all that memory holds from its place onwards
    (**`load_of_fits`**, **`get_loaded`**); one that does not fit changes nothing.  Either
    way the machine stays well-formed.

    The machine that a program starts on is one that was just switched on and has loaded it.
    **`starting`** writes it down field by field, its memory byte by byte
    (**`loaded_fresh`**). -/

namespace Chip8

namespace Bank

theorem get_ofList (bytes : List UInt8) (i : Nat) :
    get ⟨bytes.toArray⟩ i = (bytes.getD i 0).toNat := by
  rw [get, Array.getD_eq_getD_getElem?, List.getElem?_toArray, List.getD_eq_getElem?_getD]

/-- A bank is known from its size and what its cells hold. -/
theorem ext_get {a b : Bank} (hsize : a.size = b.size) (hget : ∀ i, a.get i = b.get i) : a = b := by
  have hcells : a.cells = b.cells := by
    refine Array.ext hsize fun i ha hb => UInt8.toNat_inj.1 ?_
    have hcell := hget i
    rwa [get, get, Array.getD_eq_getD_getElem?, Array.getD_eq_getD_getElem?,
      Array.getElem?_eq_getElem ha, Array.getElem?_eq_getElem hb] at hcell
  exact congrArg Bank.mk hcells

end Bank

namespace Machine

variable {m : Machine} {program : List UInt8}

/-- A machine that has just been switched on holds the glyphs, and zeros behind them. -/
theorem get_fresh (speed toneHz : Int) (random : RandomStream) (i : Nat) :
    (fresh speed toneHz random).memory.get i = (font.getD i 0).toNat := by
  have hfit : fontStart + font.length ≤ (Bank.zeros memorySize).size := by
    rw [Bank.size_zeros]
    decide
  refine (Bank.get_splice hfit rfl i).trans ?_
  by_cases hi : i < font.length
  · rw [if_pos ⟨Nat.zero_le i, (Nat.zero_add font.length).symm ▸ hi⟩]
    rfl
  · have hnone : font[i]? = none := List.getElem?_eq_none (Nat.not_lt.1 hi)
    have hout : ¬ (fontStart ≤ i ∧ i < fontStart + font.length) := by
      rintro ⟨_, hlt⟩
      exact hi ((Nat.zero_add font.length) ▸ hlt)
    rw [if_neg hout, Bank.get_zeros, List.getD_eq_getElem?_getD, hnone]
    rfl

/-- The machine with a program in its place, without a check. -/
def loaded (m : Machine) (program : List UInt8) : Machine :=
  let cleared := m.memory.splice programStart m.memory.size (List.replicate programCapacity 0)
  { m with memory := cleared.splice programStart (programStart + program.length) program }

theorem load_of_fits (hfit : program.length ≤ programCapacity) :
    m.load program = ⟨m.loaded program, [.loaded program.length], none⟩ :=
  if_neg (Nat.not_lt.2 hfit)

theorem load_of_oversized (hbig : programCapacity < program.length) :
    m.load program = .fail m (.complaint (.oversized program.length programCapacity)) :=
  if_pos hbig

theorem load_memory (m : Machine) (program : List UInt8) :
    (m.load program).state = { m with memory := (m.load program).state.memory } := by
  by_cases hbig : programCapacity < program.length
  · rw [load_of_oversized hbig]
    rfl
  · rw [load_of_fits (Nat.not_lt.1 hbig)]
    rfl

theorem wiped_length (hsize : m.memory.size = memorySize) :
    programStart + (List.replicate programCapacity (0 : UInt8)).length = m.memory.size := by
  rw [hsize, List.length_replicate]
  rfl

theorem program_end_le (hsize : m.memory.size = memorySize)
    (hfit : program.length ≤ programCapacity) : programStart + program.length ≤ m.memory.size := by
  rw [hsize]
  simp only [programCapacity, programStart, memorySize] at hfit ⊢
  omega

theorem size_loaded (hsize : m.memory.size = memorySize)
    (hfit : program.length ≤ programCapacity) : (m.loaded program).memory.size = memorySize := by
  have hcleared := Bank.size_splice (Nat.le_refl m.memory.size) (wiped_length hsize)
  have hloaded := Bank.size_splice (hcleared ▸ program_end_le hsize hfit) rfl
  exact hloaded.trans (hcleared.trans hsize)

theorem get_loaded (hsize : m.memory.size = memorySize) (hfit : program.length ≤ programCapacity)
    (i : Nat) :
    (m.loaded program).memory.get i =
      if programStart ≤ i ∧ i < m.memory.size then (program.getD (i - programStart) 0).toNat
      else m.memory.get i := by
  have hend := program_end_le hsize hfit
  have hcleared := Bank.size_splice (Nat.le_refl m.memory.size) (wiped_length hsize)
  have houter := Bank.get_splice (hcleared ▸ hend) rfl i
  have hinner := Bank.get_splice (Nat.le_refl m.memory.size) (wiped_length hsize) i
  -- the program lies on top of the zeros, and those on top of the old memory
  refine houter.trans ?_
  rw [hinner]
  by_cases hin : programStart ≤ i ∧ i < programStart + program.length
  · have hmem : programStart ≤ i ∧ i < m.memory.size := ⟨hin.1, Nat.lt_of_lt_of_le hin.2 hend⟩
    rw [if_pos hin, if_pos hmem]
  · rw [if_neg hin]
    by_cases hmem : programStart ≤ i ∧ i < m.memory.size
    · have hpast : program.length ≤ i - programStart := by omega
      have hwiped : i - programStart < programCapacity := by
        have hlen := wiped_length hsize
        rw [List.length_replicate] at hlen
        omega
      have hnone : program[i - programStart]? = none := List.getElem?_eq_none hpast
      rw [if_pos hmem, if_pos hmem, List.getD_eq_getElem?_getD, List.getD_eq_getElem?_getD, hnone,
        List.getElem?_replicate, if_pos hwiped]
      rfl
    · rw [if_neg hmem, if_neg hmem]

theorem wellFormed_loaded (h : m.WellFormed) (hfit : program.length ≤ programCapacity) :
    (m.loaded program).WellFormed :=
  { h with memory_size := size_loaded h.memory_size hfit }

/-- **LOADING KEEPS A MACHINE WELL-FORMED**, whether or not the program fits. -/
theorem wellFormed_load (h : m.WellFormed) (program : List UInt8) :
    (m.load program).state.WellFormed := by
  by_cases hbig : programCapacity < program.length
  · rw [load_of_oversized hbig]
    exact h
  · have hfit : program.length ≤ programCapacity := Nat.not_lt.1 hbig
    rw [load_of_fits hfit]
    exact wellFormed_loaded h hfit

theorem byteAt_loaded (h : m.WellFormed) (hfit : program.length ≤ programCapacity) {i : Nat}
    (hi : i < programCapacity) :
    (m.loaded program).byteAt (programStart + i : Nat) = (program.getD i 0).toNat := by
  have hplace : addressOf (programStart + i : Nat) = (programStart + i : Nat) := by
    refine addressOf_of_range ⟨Int.natCast_nonneg _, ?_⟩
    simp only [programCapacity, programStart, memorySize] at hi ⊢
    omega
  have hmem : programStart ≤ programStart + i ∧ programStart + i < m.memory.size := by
    rw [h.memory_size]
    simp only [programCapacity, programStart, memorySize] at hi ⊢
    omega
  rw [byteAt, hplace, Int.toNat_natCast, get_loaded h.memory_size hfit, if_pos hmem,
    Nat.add_sub_cancel_left]

/-- The word that a machine reads in a program that has been loaded. -/
theorem word_in_loaded {m' : Machine} {i : Nat} (h : m.WellFormed)
    (hfit : program.length ≤ programCapacity) (hmemory : m'.memory = (m.loaded program).memory)
    (hpc : m'.pc = (programStart + i : Nat)) (hi : i + 1 < programCapacity) :
    m'.word = (256 * (program.getD i 0).toNat + (program.getD (i + 1) 0).toNat : Nat) := by
  have hbyte (address : Int) : m'.byteAt address = (m.loaded program).byteAt address :=
    congrArg (fun b : Bank => b.get (addressOf address).toNat) hmemory
  have hnext : ((programStart + i : Nat) : Int) + 1 = (programStart + (i + 1) : Nat) := by
    omega
  rw [word, hbyte, hbyte, hpc, hnext, byteAt_loaded h hfit (Nat.lt_of_succ_lt hi),
    byteAt_loaded h hfit hi]

theorem word_loaded (h : m.WellFormed) (hpc : m.pc = programStart)
    (hfit : program.length ≤ programCapacity) :
    (m.loaded program).word
      = (256 * (program.getD 0 0).toNat + (program.getD 1 0).toNat : Nat) :=
  word_in_loaded h hfit rfl hpc (by decide)

/-! ## The machine that a program starts on -/

/-- What memory holds, from its first cell to its last, when a program starts: the glyphs, zeros
    up to the program, the program, and zeros behind it. -/
def contents (program : List UInt8) : List UInt8 :=
  font ++ List.replicate (programStart - font.length) 0 ++
    (program ++ List.replicate (programCapacity - program.length) 0)

/-- The machine that a program starts on, field by field. -/
def starting (speed toneHz : Int) (program : List UInt8) (random : RandomStream) : Machine where
  memory := ⟨(contents program).toArray⟩
  registers := ⟨Array.replicate 16 0⟩
  index := 0
  pc := 0x200
  stack := []
  delay := 0
  sound := 0
  paused := false
  waiting := none
  halted := false
  cycles := 0
  executed := 0
  speed := speed
  toneHz := toneHz
  screen := ⟨64, 32, Array.replicate 2048 0, true, 0⟩
  keypad := ⟨Vector.replicate 16 false⟩
  random := random

theorem getD_append_zeros (bytes : List UInt8) (n i : Nat) :
    (bytes ++ List.replicate n 0).getD i 0 = bytes.getD i 0 := by
  by_cases hi : i < bytes.length
  · exact List.getD_append _ _ _ _ hi
  · have hpast := Nat.not_lt.1 hi
    rw [List.getD_append_right _ _ _ _ hpast, List.getD_eq_default _ _ hpast,
      List.getD_eq_getElem?_getD, List.getElem?_getD_replicate_default_eq]

theorem length_front :
    (font ++ List.replicate (programStart - font.length) 0).length = programStart := by
  rw [List.length_append, List.length_replicate]
  decide

theorem getD_contents (program : List UInt8) (i : Nat) :
    (contents program).getD i 0 =
      if programStart ≤ i then program.getD (i - programStart) 0 else font.getD i 0 := by
  rw [contents]
  by_cases hi : programStart ≤ i
  · have hle := Nat.le_trans (Nat.le_of_eq length_front) hi
    rw [if_pos hi, List.getD_append_right _ _ _ _ hle, length_front, getD_append_zeros]
  · have hlt := Nat.lt_of_lt_of_eq (Nat.not_le.1 hi) length_front.symm
    rw [if_neg hi, List.getD_append _ _ _ _ hlt, getD_append_zeros]

theorem length_contents (hfit : program.length ≤ programCapacity) :
    (contents program).length = memorySize := by
  rw [contents, List.length_append, length_front, List.length_append, List.length_replicate,
    Nat.add_sub_cancel' hfit]
  rfl

/-- **LOADING INTO A FRESH MACHINE** comes to the machine that the program starts on. -/
theorem loaded_fresh (hfit : program.length ≤ programCapacity) (speed toneHz : Int)
    (random : RandomStream) :
    (fresh speed toneHz random).loaded program = starting speed toneHz program random := by
  have hfresh := wellFormed_fresh speed toneHz random
  have hsize := (wellFormed_loaded hfresh hfit).memory_size
  have hmemory : ((fresh speed toneHz random).loaded program).memory =
      ⟨(contents program).toArray⟩ := by
    refine Bank.ext_get (hsize.trans (length_contents hfit).symm) fun i => ?_
    rw [get_loaded hfresh.memory_size hfit, hfresh.memory_size, get_fresh, Bank.get_ofList,
      getD_contents]
    by_cases hi : programStart ≤ i
    · rw [if_pos hi]
      by_cases hin : i < memorySize
      · rw [if_pos ⟨hi, hin⟩]
      · -- behind memory there is nothing, on either side
        have hstart : memorySize ≤ i := Nat.not_lt.1 hin
        have hfont : font.length ≤ i := Nat.le_trans (by decide) hstart
        have hpast : program.length ≤ i - programStart :=
          Nat.le_trans hfit (Nat.sub_le_sub_right hstart programStart)
        rw [if_neg fun h => hin h.2, List.getD_eq_default _ _ hfont, List.getD_eq_default _ _ hpast]
    · rw [if_neg hi, if_neg fun h => hi h.1]
  generalize hbank : Bank.mk (contents program).toArray = bank at hmemory
  rw [starting, hbank, ← hmemory]
  rfl

end Machine

end Chip8
