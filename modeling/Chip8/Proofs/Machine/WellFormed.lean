import Chip8.Machine
import Chip8.Proofs.Screen.Flip

/-! # Well-formed machines

    **`WellFormed`** is what holds of a machine in every state it can reach: banks of the
    right size, numbers in their ranges, a complete screen of zeros and ones, and a
    register to fill exactly while execution is suspended.

    On a well-formed machine no access to memory or registers fails, so accesses are
    functions: **`register_eq`**, **`setRegister_eq`**, **`peek_eq`** and **`poke_eq`**
    replace the checked accesses by **`byteAt`**, **`withRegister`** and **`withByte`**, and
    **`peek_given`**, **`register_given`**, **`setRegister_change`** and **`poke_change`** do so
    within a longer operation. -/

namespace Chip8.Machine

/-- What holds of a machine in every state it can reach. -/
structure WellFormed (m : Machine) : Prop where
  memory_size : m.memory.size = memorySize
  registers_size : m.registers.size = registerCount
  pc_range : 0 ≤ m.pc ∧ m.pc < memorySize
  index_range : 0 ≤ m.index ∧ m.index < 65536
  stack_length : m.stack.length ≤ stackDepth
  stack_range : ∀ a ∈ m.stack, 0 ≤ a ∧ a < memorySize
  delay_range : 0 ≤ m.delay ∧ m.delay < 256
  sound_range : 0 ≤ m.sound ∧ m.sound < 256
  screen_standard : m.screen.Standard
  /-- Execution is suspended exactly while there is a register to fill. -/
  paused_iff : m.paused = true ↔ m.waiting.isSome = true
  waiting_range : ∀ r ∈ m.waiting, 0 ≤ r ∧ r < registerCount

/-! ## Accesses that cannot fail -/

/-- The byte in memory that an address selects, without a check. -/
def byteAt (m : Machine) (address : Int) : Nat := m.memory.get (addressOf address).toNat

def withRegister (m : Machine) (r value : Nat) : Machine :=
  { m with registers := m.registers.put r value }

def withByte (m : Machine) (address : Int) (value : Nat) : Machine :=
  { m with memory := m.memory.put (addressOf address).toNat value }

theorem addressOf_range (a : Int) : 0 ≤ addressOf a ∧ addressOf a < memorySize := by
  have h₀ : (0 : Int) < memorySize := by decide
  exact ⟨Int.emod_nonneg a (Int.ne_of_gt h₀), Int.emod_lt_of_pos a h₀⟩

theorem addressOf_of_range {a : Int} (h : 0 ≤ a ∧ a < memorySize) : addressOf a = a :=
  Int.emod_eq_of_lt h.1 h.2

theorem addressOf_add (a b : Int) : addressOf (addressOf a + b) = addressOf (a + b) :=
  Int.emod_add_emod a memorySize b

theorem byteAt_lt (m : Machine) (address : Int) : m.byteAt address < 256 := Bank.get_lt _ _

theorem byte_range {value : Nat} (h : value < 256) :
    0 ≤ (value : Int) ∧ (value : Int) < 256 :=
  ⟨Int.natCast_nonneg _, Int.ofNat_lt.2 h⟩

variable {m : Machine}

namespace WellFormed

theorem register_eq (h : m.WellFormed) {r : Nat} (hr : r < registerCount) :
    m.register r = .ok (m.registers.get r) := by
  have hread : m.registers.read r = .ok (m.registers.get r) := by
    have hlt : (r : Int) < m.registers.size := by rw [h.registers_size]; omega
    exact Bank.read_of_lt (Int.natCast_nonneg r) hlt
  rw [register, hread]
  rfl

theorem setRegister_eq (h : m.WellFormed) {r : Nat} (hr : r < registerCount) {value : Int}
    (hv : 0 ≤ value ∧ value < 256) :
    m.setRegister r value = .ok (m.withRegister r value.toNat) := by
  have hwrite : m.registers.write r value = .ok (m.registers.put r value.toNat) := by
    have hlt : (r : Int) < m.registers.size := by rw [h.registers_size]; omega
    exact Bank.write_of_lt (Int.natCast_nonneg r) hlt hv
  rw [setRegister, hwrite]
  rfl

theorem peek_eq (h : m.WellFormed) (address : Int) :
    m.peek address = .ok (m.byteAt address) := by
  obtain ⟨h₀, hlt⟩ := addressOf_range address
  rw [← h.memory_size] at hlt
  rw [peek, Bank.read_of_lt h₀ hlt]
  rfl

theorem poke_eq (h : m.WellFormed) (address : Int) {value : Int} (hv : 0 ≤ value ∧ value < 256) :
    m.poke address value = .ok (m.withByte address value.toNat) := by
  obtain ⟨h₀, hlt⟩ := addressOf_range address
  rw [← h.memory_size] at hlt
  rw [poke, Bank.write_of_lt h₀ hlt hv]
  rfl

/-! ## Accesses within a longer operation -/

variable {α σ : Type}

theorem peek_bind (h : m.WellFormed) (address : Int) (next : Nat → Except Failure α) :
    m.peek address >>= next = next (m.byteAt address) := by
  rw [h.peek_eq]
  rfl

theorem peek_given (h : m.WellFormed) (address : Int) (s : σ)
    (next : Nat → Outcome Failure Log.Entry σ) :
    .given s (m.peek address) next = next (m.byteAt address) := by
  rw [h.peek_eq]
  rfl

theorem register_given (h : m.WellFormed) {r : Nat} (hr : r < registerCount) (s : σ)
    (next : Nat → Outcome Failure Log.Entry σ) :
    .given s (m.register r) next = next (m.registers.get r) := by
  rw [h.register_eq hr]
  rfl

theorem setRegister_change (h : m.WellFormed) {r : Nat} (hr : r < registerCount) {value : Int}
    (hv : 0 ≤ value ∧ value < 256) :
    (.change m (m.setRegister r value) : Outcome Failure Log.Entry Machine) =
      .done (m.withRegister r value.toNat) := by
  rw [h.setRegister_eq hr hv]
  rfl

theorem poke_change (h : m.WellFormed) (address : Int) {value : Int}
    (hv : 0 ≤ value ∧ value < 256) :
    (.change m (m.poke address value) : Outcome Failure Log.Entry Machine) =
      .done (m.withByte address value.toNat) := by
  rw [h.poke_eq address hv]
  rfl

/-! ## What keeps a machine well-formed -/

theorem withRegister (h : m.WellFormed) (r value : Nat) : (m.withRegister r value).WellFormed :=
  { h with registers_size := (Bank.size_put _ _ _).trans h.registers_size }

theorem withByte (h : m.WellFormed) (address : Int) (value : Nat) :
    (m.withByte address value).WellFormed :=
  { h with memory_size := (Bank.size_put _ _ _).trans h.memory_size }

theorem withPc (h : m.WellFormed) {pc : Int} (hpc : 0 ≤ pc ∧ pc < memorySize) :
    WellFormed { m with pc } :=
  { h with pc_range := hpc }

theorem withIndex (h : m.WellFormed) {index : Int} (hi : 0 ≤ index ∧ index < 65536) :
    WellFormed { m with index } :=
  { h with index_range := hi }

theorem withTimers (h : m.WellFormed) {delay sound : Int} (hd : 0 ≤ delay ∧ delay < 256)
    (hs : 0 ≤ sound ∧ sound < 256) : WellFormed { m with delay, sound } :=
  { h with
    delay_range := hd
    sound_range := hs }

theorem withScreen (h : m.WellFormed) {screen : Screen} (hs : screen.Standard) :
    WellFormed { m with screen } :=
  { h with screen_standard := hs }

theorem withRandom (h : m.WellFormed) (random : RandomStream) : WellFormed { m with random } :=
  { h with }

theorem withKeypad (h : m.WellFormed) (keypad : Keypad) : WellFormed { m with keypad } :=
  { h with }

theorem advance (h : m.WellFormed) : m.advance.WellFormed := h.withPc (addressOf_range _)

theorem skipIf (h : m.WellFormed) (condition : Bool) : (m.skipIf condition).WellFormed := by
  cases condition with
  | false => exact h
  | true => exact h.advance

theorem waiting_eq_none (h : m.WellFormed) (hp : m.paused = false) : m.waiting = none := by
  rw [← Option.not_isSome_iff_eq_none, ← h.paused_iff, hp]
  exact Bool.false_ne_true

theorem paused_eq_false (h : m.WellFormed) (hw : m.waiting = none) : m.paused = false := by
  rw [← Bool.not_eq_true, h.paused_iff, hw]
  exact Bool.false_ne_true

end WellFormed

/-! ## A machine that has just been switched on -/

theorem size_withFont (h : m.memory.size = memorySize) : m.withFont.memory.size = memorySize := by
  have hfont : fontStart + font.length ≤ m.memory.size := by
    rw [h]
    decide
  exact (Bank.size_splice hfont rfl).trans h

/-- **A FRESH MACHINE IS WELL-FORMED.** -/
theorem wellFormed_fresh (speed toneHz : Int) (random : RandomStream) :
    (fresh speed toneHz random).WellFormed where
  memory_size := size_withFont (Bank.size_zeros _)
  registers_size := Bank.size_zeros _
  pc_range := by
    show (0 : Int) ≤ programStart ∧ (programStart : Int) < memorySize
    decide
  index_range := by
    show (0 : Int) ≤ 0 ∧ (0 : Int) < 65536
    decide
  stack_length := Nat.zero_le _
  stack_range := fun a ha => nomatch ha
  delay_range := by
    show (0 : Int) ≤ 0 ∧ (0 : Int) < 256
    decide
  sound_range := by
    show (0 : Int) ≤ 0 ∧ (0 : Int) < 256
    decide
  screen_standard := Screen.standard_dark
  paused_iff := ⟨fun h => (nomatch h), fun h => (nomatch h)⟩
  waiting_range := fun r hr => nomatch hr

end Chip8.Machine
