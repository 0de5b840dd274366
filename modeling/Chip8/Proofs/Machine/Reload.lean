import Chip8.Proofs.Machine.Load

/-! # Loading again

    What a program leaves of the memory behind it is zero, and nothing that was in its place before
    is kept.  So loading depends neither on an earlier program (**`loaded_loaded`**) nor on zeros
    at the end of the new one (**`loaded_zeros`**).

    Numbers are a program if all of them are bytes, and otherwise none
    (**`loadNumbers_of_bytes`**, **`loadNumbers_of_not_byte`**).  **`loading_is_exact`** puts this
    together, for any machine with a memory of the right size, whatever else holds of it. -/

namespace Chip8.Machine

variable {m m' : Machine} {program first second : List UInt8} {numbers : List Int} {k : Nat}

/-! ## Programs that fit -/

/-- Of a machine that a program was loaded into, only the memory is not as it was before. -/
theorem loaded_congr (hrest : { m with memory := m'.memory } = m')
    (hmemory : (m.loaded first).memory = (m'.loaded second).memory) :
    m.loaded first = m'.loaded second := by
  calc m.loaded first
      = { m with memory := (m.loaded first).memory } := rfl
    _ = { ({ m with memory := m'.memory } : Machine) with
          memory := (m'.loaded second).memory } := by rw [hmemory]
    _ = m'.loaded second := by
        rw [hrest]
        rfl

/-- **A PROGRAM REPLACES AN EARLIER ONE.** -/
theorem loaded_loaded (hsize : m.memory.size = memorySize) (hfirst : first.length ≤ programCapacity)
    (hsecond : second.length ≤ programCapacity) :
    (m.loaded first).loaded second = m.loaded second := by
  have hloaded := size_loaded hsize hfirst
  refine loaded_congr rfl (Bank.ext_get ?_ fun i => ?_)
  · rw [size_loaded hloaded hsecond, size_loaded hsize hsecond]
  · rw [get_loaded hloaded hsecond, get_loaded hsize hsecond, hloaded, hsize]
    by_cases hin : programStart ≤ i ∧ i < memorySize
    · rw [if_pos hin, if_pos hin]
    · rw [if_neg hin, if_neg hin, get_loaded hsize hfirst, hsize, if_neg hin]

/-- **ZEROS AT THE END OF A PROGRAM DO NOT MATTER.** -/
theorem loaded_zeros (hsize : m.memory.size = memorySize)
    (hfit : program.length + k ≤ programCapacity) :
    m.loaded (program ++ List.replicate k 0) = m.loaded program := by
  have hlonger : (program ++ List.replicate k 0).length ≤ programCapacity := by
    rw [List.length_append, List.length_replicate]
    exact hfit
  have hshorter : program.length ≤ programCapacity := Nat.le_of_add_right_le hfit
  refine loaded_congr rfl (Bank.ext_get ?_ fun i => ?_)
  · rw [size_loaded hsize hlonger, size_loaded hsize hshorter]
  · rw [get_loaded hsize hlonger, get_loaded hsize hshorter, getD_append_zeros]

/-! ## Programs given as numbers -/

theorem byte?_toNat (b : UInt8) : byte? (b.toNat : Int) = some b := by
  have hrange : 0 ≤ (b.toNat : Int) ∧ (b.toNat : Int) < 256 := byte_range b.toNat_lt
  rw [byte?, if_pos hrange, Int.toNat_natCast, UInt8.ofNat_toNat]

theorem loadNumbers_of_bytes (m : Machine) (program : List UInt8) :
    m.loadNumbers (program.map fun b => (b.toNat : Int)) = m.load program := by
  have hbytes : (program.map fun b => (b.toNat : Int)).mapM byte? = some program := by
    induction program with
    | nil => rfl
    | cons b rest ih => simp [ih, byte?_toNat]
  rw [loadNumbers, hbytes]

/-- Numbers one of which is not a byte are no program, however many they are. -/
theorem loadNumbers_of_not_byte (m : Machine) (h : ∃ n ∈ numbers, n < 0 ∨ 255 < n) :
    m.loadNumbers numbers = .fail m .notBytes := by
  have hnone : numbers.mapM byte? = none := by
    induction numbers with
    | nil =>
        obtain ⟨_, hmem, _⟩ := h
        cases hmem
    | cons n rest ih =>
        by_cases hn : n < 0 ∨ 255 < n
        · have hbyte : byte? n = none := if_neg (by omega)
          simp [hbyte]
        · have hrest : ∃ n ∈ rest, n < 0 ∨ 255 < n := by
            obtain ⟨n', hmem, hn'⟩ := h
            rcases List.mem_cons.1 hmem with rfl | hmem
            · exact absurd hn' hn
            · exact ⟨n', hmem, hn'⟩
          simp [ih hrest]
  rw [loadNumbers, hnone]

/-! ## Everything together -/

/-- **LOADING IS TOTAL, EXACT AND ATOMIC**, on any machine with 4096 cells of memory:

    * a program of at most 3584 bytes is loaded: it lies from `0x200` on, with zeros from its end
      to the end of memory; the cells before it, their number, and everything but the memory are
      as they were;
    * a longer one changes nothing, and the complaint names its length and the room for it;
    * numbers one of which is not a byte change nothing, however many they are, and numbers that
      are all bytes are loaded as those;
    * of programs that fit, the one that is loaded last is all that counts, and zeros at its end
      do not. -/
theorem loading_is_exact (hsize : m.memory.size = 4096) :
    (∀ program : List UInt8, program.length ≤ 3584 →
      let o := m.load program
      o.failure = none ∧ o.state = { m with memory := o.state.memory } ∧
      o.state.memory.size = 4096 ∧
      (∀ i < 0x200, o.state.memory.get i = m.memory.get i) ∧
      (∀ (i : Nat) (hi : i < program.length),
        o.state.memory.get (0x200 + i) = program[i].toNat) ∧
      ∀ i, 0x200 + program.length ≤ i → i < 4096 → o.state.memory.get i = 0) ∧
    (∀ program : List UInt8, 3584 < program.length →
      m.load program = .fail m (.complaint (.oversized program.length 3584))) ∧
    (∀ numbers : List Int, (∃ n ∈ numbers, n < 0 ∨ 255 < n) →
      m.loadNumbers numbers = .fail m .notBytes) ∧
    (∀ program : List UInt8,
      m.loadNumbers (program.map fun b => (b.toNat : Int)) = m.load program) ∧
    (∀ first second : List UInt8, first.length ≤ 3584 → second.length ≤ 3584 →
      let o := (m.load first).andThen (load · second)
      o.failure = none ∧ o.state = (m.load second).state) ∧
    ∀ (program : List UInt8) (k : Nat), program.length + k ≤ 3584 →
      let o := m.load (program ++ List.replicate k 0)
      o.failure = none ∧ o.state = (m.load program).state := by
  refine ⟨fun program hfit => ?_, fun program hbig => load_of_oversized hbig,
    fun numbers => loadNumbers_of_not_byte m, loadNumbers_of_bytes m,
    fun first second hfirst hsecond => ?_, fun program k hfit => ?_⟩
  · have hget := get_loaded hsize hfit
    rw [hsize] at hget
    rw [load_of_fits hfit]
    refine ⟨rfl, rfl, size_loaded hsize hfit, fun i hi => ?_, fun i hi => ?_, fun i hi hend => ?_⟩
    · refine (hget i).trans (if_neg ?_)
      exact fun hin => absurd hin.1 (Nat.not_le.2 hi)
    · have hin : programStart ≤ 0x200 + i ∧ 0x200 + i < 4096 :=
        ⟨Nat.le_add_right _ _, by omega⟩
      have hplace : 0x200 + i - programStart = i := Nat.add_sub_cancel_left programStart i
      refine (hget _).trans ((if_pos hin).trans ?_)
      rw [hplace, List.getD_eq_getElem _ _ hi]
    · have hin : programStart ≤ i ∧ i < 4096 := ⟨Nat.le_of_add_right_le hi, hend⟩
      have hpast : program.length ≤ i - programStart := Nat.le_sub_of_add_le' hi
      refine (hget i).trans ((if_pos hin).trans ?_)
      rw [List.getD_eq_default _ _ hpast]
      rfl
  · have hagain : (m.loaded first).load second
        = ⟨m.loaded second, [.loaded second.length], none⟩ := by
      rw [load_of_fits hsecond, loaded_loaded hsize hfirst hsecond]
    rw [load_of_fits hfirst, load_of_fits hsecond, Outcome.andThen_of_success rfl, hagain]
    exact ⟨rfl, rfl⟩
  · have hlonger : (program ++ List.replicate k 0).length ≤ programCapacity := by
      rw [List.length_append, List.length_replicate]
      exact hfit
    rw [load_of_fits hlonger, load_of_fits (Nat.le_of_add_right_le hfit)]
    exact ⟨rfl, loaded_zeros hsize hfit⟩

/-- A program that fills memory, one byte more, and a short one after it. -/
theorem loading_to_the_end :
    let m := fresh 10 440 (.cycling [])
    let full : List UInt8 := List.replicate 3584 0xAA
    m.memory.size = 4096 ∧ full.length ≤ 3584 ∧
      (m.load full).failure = none ∧ (m.load full).state.memory.get 0x1FF = m.memory.get 0x1FF ∧
      (m.load full).state.memory.get 0xFFF = 0xAA ∧
      m.load (0xAA :: full) = .fail m (.complaint (.oversized 3585 3584)) ∧
      m.loadNumbers [0x12, 256] = .fail m .notBytes ∧
      ((m.load full).andThen (load · [0x12])).state = (m.load [0x12, 0]).state := by
  intro m full
  have hsize : m.memory.size = 4096 := (wellFormed_fresh 10 440 (.cycling [])).memory_size
  have hfull : full.length = 3584 := List.length_replicate
  obtain ⟨hfits, hbig, hnumbers, _, hagain, hzeros⟩ := loading_is_exact hsize
  obtain ⟨hok, _, _, hbelow, hbytes, _⟩ := hfits full (Nat.le_of_eq hfull)
  refine ⟨hsize, Nat.le_of_eq hfull, hok, hbelow 0x1FF (by decide), ?_, ?_, ?_, ?_⟩
  · have hlast := hbytes 3583 (by omega)
    rw [List.getElem_replicate] at hlast
    exact hlast
  · have hlonger := hbig (0xAA :: full) (by rw [List.length_cons]; omega)
    rw [List.length_cons, hfull] at hlonger
    exact hlonger
  · exact hnumbers [0x12, 256] ⟨256, by simp, by decide⟩
  · rw [(hagain full [0x12] (Nat.le_of_eq hfull) (by decide)).2]
    exact (hzeros [0x12] 1 (by decide)).2.symm

end Chip8.Machine
