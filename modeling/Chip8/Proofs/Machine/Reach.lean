import Chip8.Proofs.Instruction.Shapes
import Chip8.Proofs.Machine.Step

/-! # How far instructions reach

    Every operation leaves alone the parts that it does not reach, and reaches no further into
    the others than it must: into memory, a window of three bytes or of as many as there are
    registers to store, which wraps around the end (**`get_memory_effect`**); into the
    registers, the one that it names and the flags (**`get_registers_effect`**); into the
    stack, the top (**`stack_effect`**).

    **`FrameLaw`** says the same of words: which of them reach a part, and how far.  It holds
    of every word that is carried out, whether or not that succeeds
    (**`frameLaw_execute`**). -/

namespace Chip8

open Machine

/-! ## Windows of memory -/

namespace Machine

variable {m : Machine}

theorem get_withByte_of_ne {address : Int} {a : Nat} (ha : a ≠ (addressOf address).toNat)
    (value : Nat) : (m.withByte address value).memory.get a = m.memory.get a :=
  Bank.get_put_of_ne _ ha value

theorem get_withRegister_of_ne {r r' : Nat} (hr : r' ≠ r) (value : Nat) :
    (m.withRegister r value).registers.get r' = m.registers.get r' :=
  Bank.get_put_of_ne _ hr value

/-- Storing registers writes as many cells from the index register on. -/
theorem get_storing {count a : Nat}
    (ha : ∀ j < count, a ≠ (addressOf (m.index + j)).toNat) :
    (m.storing count).get a = m.memory.get a := by
  induction count with
  | zero => rfl
  | succ k ih =>
      rw [storing, Bank.get_put_of_ne _ (ha k (Nat.lt_succ_self k))]
      exact ih fun j hj => ha j (Nat.lt_succ_of_lt hj)

theorem get_loading {count r : Nat} (hr : count ≤ r) :
    (m.loading count).get r = m.registers.get r := by
  induction count with
  | zero => rfl
  | succ k ih =>
      rw [loading, Bank.get_put_of_ne _ (Nat.ne_of_gt hr)]
      exact ih (Nat.le_of_succ_le hr)

end Machine

namespace Instruction

variable {m : Machine}

/-- The number of cells, from the index register on, that an instruction stores to. -/
def stored (i : Instruction) : Nat :=
  match i.operation with
  | .decimal => 3
  | .store   => i.x + 1
  | _        => 0

/-- Memory changes in the window of the instruction only. -/
theorem get_memory_effect (i : Instruction) {a : Nat}
    (ha : ∀ j < i.stored, a ≠ (addressOf (m.index + j)).toNat) :
    (i.effect m).memory.get a = m.memory.get a := by
  by_cases hreach : .memory ∈ i.operation.reach
  -- two operations reach memory, each through a loop or a chain of single cells
  · cases hop : i.operation <;> rw [hop] at hreach <;> first
      | exact absurd hreach (by decide)
      | simp only [effect, stored, hop] at ha ⊢
    case decimal =>
        have h₀ : a ≠ (addressOf m.index).toNat := Int.add_zero m.index ▸ ha 0 (by decide)
        have h₁ : a ≠ (addressOf (m.index + 1)).toNat := ha 1 (by decide)
        have h₂ : a ≠ (addressOf (m.index + 2)).toNat := ha 2 (by decide)
        rw [get_withByte_of_ne h₂, get_withByte_of_ne h₁, get_withByte_of_ne h₀]
    case store => exact get_storing ha
  · exact congrArg (Bank.get · a) (same_effect i m hreach)

/-! ## Registers -/

/-- The operations whose result goes to the register that they name. -/
def results : List Operation :=
  [.setByte, .addByte, .move, .or, .and, .xor, .add, .sub, .shr, .subn, .shl, .random, .readDelay]

/-- The operations that set the flag register. -/
def flagging : List Operation := [.add, .sub, .shr, .subn, .shl, .draw]

/-- Registers change only where the result, the flag or the bytes loaded go. -/
theorem get_registers_effect (i : Instruction) {r : Nat}
    (hx : i.operation ∈ results → r ≠ i.x) (hflag : i.operation ∈ flagging → r ≠ flagRegister)
    (hload : i.operation = .load → i.x < r) :
    (i.effect m).registers.get r = m.registers.get r := by
  have hflagged (raised : Bool) (result : Nat) (hx : r ≠ i.x) (hf : r ≠ flagRegister) :
      (i.flagged m raised result).registers.get r = m.registers.get r :=
    (get_withRegister_of_ne hx result).trans (get_withRegister_of_ne hf raised.toNat)
  by_cases hreach : .registers ∈ i.operation.reach
  · cases hop : i.operation <;> rw [hop] at hreach hx hflag <;> first
      | exact absurd hreach (by decide)
      | simp only [effect, hop]
    case draw => exact get_withRegister_of_ne (hflag (by decide)) _
    case load => exact get_loading (hload hop)
    all_goals first
      | exact get_withRegister_of_ne (hx (by decide)) _
      | exact hflagged _ _ (hx (by decide)) (hflag (by decide))
  · exact congrArg (Bank.get · r) (same_effect i m hreach)

/-! ## The stack -/

/-- The stack changes by one push or one pop. -/
theorem stack_effect (i : Instruction) (hs : i.stackFault? m = none) :
    (i.operation = .call ∧ (i.effect m).stack = m.pc :: m.stack) ∨
    (i.operation = .ret ∧ m.stack = (i.effect m).pc :: (i.effect m).stack) ∨
    (i.operation ≠ .call ∧ i.operation ≠ .ret ∧ (i.effect m).stack = m.stack) := by
  by_cases hcall : i.operation = .call
  · refine Or.inl ⟨hcall, ?_⟩
    simp only [effect, hcall]
  by_cases hret : i.operation = .ret
  · refine Or.inr (Or.inl ⟨hret, ?_⟩)
    cases hstack : m.stack with
    | nil => simp only [stackFault?, hret, hstack, if_true, reduceCtorEq] at hs
    | cons top rest => simp only [effect, hret, hstack, List.headD_cons, List.tail_cons]
  · have hreach : .stack ∉ i.operation.reach := by
      cases hop : i.operation <;> first | decide | contradiction
    exact Or.inr (Or.inr ⟨hcall, hret, same_effect i m hreach⟩)

end Instruction

/-! ## The frame law -/

/-- The words that reach a part. -/
def Part.shapes : Part → List Shape
  | .memory    => [.tail 0xF 0x33, .tail 0xF 0x55]
  | .registers => [.top 0x6, .top 0x7, .ends 0x8 0x0, .ends 0x8 0x1, .ends 0x8 0x2, .ends 0x8 0x3,
      .ends 0x8 0x4, .ends 0x8 0x5, .ends 0x8 0x6, .ends 0x8 0x7, .ends 0x8 0xE, .top 0xC,
      .top 0xD, .tail 0xF 0x07, .tail 0xF 0x65]
  | .index     => [.top 0xA, .tail 0xF 0x1E, .tail 0xF 0x29]
  | .stack     => [.top 0x2, .whole 0x00EE]
  | .delay     => [.tail 0xF 0x15]
  | .sound     => [.tail 0xF 0x18]
  | .screen    => [.whole 0x00E0, .top 0xD]
  | .wait      => [.tail 0xF 0x0A]
  | .random    => [.top 0xC]

theorem shapes_of_reach :
    ∀ row ∈ instructionSet, ∀ p ∈ row.operation.reach, row.shape ∈ p.shapes := by
  decide

namespace Opcode

/-- The cells that a word stores to: three digits, or the registers up to the one it names,
    from the index register on and around the end of memory. -/
def Stores (op : Opcode) (index : Int) (a : Nat) : Prop :=
  ∃ j : Nat, a = (addressOf (index + j)).toNat ∧
    (op.fits (.tail 0xF 0x33) ∧ j < 3 ∨ op.fits (.tail 0xF 0x55) ∧ j ≤ op.x)

/-- The registers that a word sets: the one that it names to a result, the last to a flag, or
    all up to the one that it names to bytes of memory. -/
def Sets (op : Opcode) (r : Nat) : Prop :=
  (r = op.x ∧ op.among [.top 0x6, .top 0x7, .ends 0x8 0x0, .ends 0x8 0x1, .ends 0x8 0x2,
    .ends 0x8 0x3, .ends 0x8 0x4, .ends 0x8 0x5, .ends 0x8 0x6, .ends 0x8 0x7, .ends 0x8 0xE,
    .top 0xC, .tail 0xF 0x07]) ∨
  (r = flagRegister ∧ op.among [.ends 0x8 0x4, .ends 0x8 0x5, .ends 0x8 0x6, .ends 0x8 0x7,
    .ends 0x8 0xE, .top 0xD]) ∨
  (r ≤ op.x ∧ op.fits (.tail 0xF 0x65))

end Opcode

/-- What carrying out a word may have done to a machine. -/
structure FrameLaw (op : Opcode) (m m' : Machine) : Prop where
  /-- No part changes but by a word that reaches it. -/
  parts : ∀ p : Part, ¬ op.among p.shapes → p.Same m m'
  memory : ∀ a, ¬ op.Stores m.index a → m'.memory.get a = m.memory.get a
  registers : ∀ r, ¬ op.Sets r → m'.registers.get r = m.registers.get r
  /-- One address is pushed, that of the next word, or one is popped and gone to. -/
  stack : m'.stack = m.stack ∨
    (op.fits (.top 0x2) ∧ m'.stack = addressOf (m.pc + 2) :: m.stack) ∨
    (op.fits (.whole 0x00EE) ∧ m.stack = m'.pc :: m'.stack)
  /-- One number is drawn, whatever becomes of it. -/
  random : m'.random = if op.fits (.top 0xC) then m.random.advance else m.random
  keypad : m'.keypad = m.keypad

namespace Machine

variable {m : Machine} {op : Opcode} {i : Instruction}

theorem not_reach_of_not_among (hdec : decode op = some i) {p : Part}
    (hp : ¬ op.among p.shapes) : p ∉ i.operation.reach := by
  intro hmem
  obtain ⟨row, hrow, hop, hfits⟩ := row_of_decode hdec
  exact hp ⟨row.shape, shapes_of_reach row hrow p (hop ▸ hmem), hfits⟩

theorem window_of_stored (hdec : decode op = some i) {j : Nat} (hj : j < i.stored) :
    op.fits (.tail 0xF 0x33) ∧ j < 3 ∨ op.fits (.tail 0xF 0x55) ∧ j ≤ op.x := by
  have hx : i.x = op.x := congrArg Opcode.x (opcode_of_decode hdec)
  by_cases hdecimal : i.operation = .decimal
  · simp only [Instruction.stored, hdecimal] at hj
    exact Or.inl ⟨fits_of_decode (by decide) hdec hdecimal, hj⟩
  by_cases hstore : i.operation = .store
  · simp only [Instruction.stored, hstore] at hj
    exact Or.inr ⟨fits_of_decode (by decide) hdec hstore, by omega⟩
  · have hnone : i.stored = 0 := by
      cases hop : i.operation <;> first | contradiction | simp only [Instruction.stored, hop]
    omega

/-- **INSTRUCTIONS OBEY THE FRAME LAW OF THEIR WORDS.** -/
theorem frameLaw_effect (hdec : decode op = some i) (hs : i.stackFault? m = none) :
    FrameLaw op m (i.effect m.advance) where
  parts := by
    intro p hp
    have hsame := Instruction.same_effect i m.advance (not_reach_of_not_among hdec hp)
    cases p <;> exact hsame
  memory := by
    intro a ha
    refine Instruction.get_memory_effect (m := m.advance) i ?_
    intro j hj heq
    exact ha ⟨j, heq, window_of_stored hdec hj⟩
  registers := by
    intro r hr
    have hx : i.x = op.x := congrArg Opcode.x (opcode_of_decode hdec)
    refine Instruction.get_registers_effect (m := m.advance) i ?_ ?_ ?_
    · intro hop heq
      exact hr (Or.inl ⟨heq.trans hx, among_of_decode (by decide) hdec hop⟩)
    · intro hop heq
      exact hr (Or.inr (Or.inl ⟨heq, among_of_decode (by decide) hdec hop⟩))
    · intro hop
      refine Nat.lt_of_not_le fun hle => hr (Or.inr (Or.inr ⟨hx ▸ hle, ?_⟩))
      exact fits_of_decode (by decide) hdec hop
  stack := by
    rcases Instruction.stack_effect (m := m.advance) i hs with
      ⟨hop, hpush⟩ | ⟨hop, hpop⟩ | ⟨_, _, hsame⟩
    · exact Or.inr (Or.inl ⟨fits_of_decode (by decide) hdec hop, hpush⟩)
    · exact Or.inr (Or.inr ⟨fits_of_decode (by decide) hdec hop, hpop⟩)
    · exact Or.inl hsame
  random := by
    by_cases hfits : op.fits (.top 0xC)
    · have hrow := decode_of_fits (o := .random) (by decide) (by decide) hfits
      obtain rfl : ⟨.random, op⟩ = i := Option.some.inj (hrow.symm.trans hdec)
      rw [if_pos hfits]
      rfl
    · have hreach : .random ∉ i.operation.reach := by
        refine not_reach_of_not_among hdec ?_
        rintro ⟨s, hs, hfits'⟩
        obtain rfl := List.mem_singleton.1 hs
        exact hfits hfits'
      rw [if_neg hfits]
      exact Instruction.same_effect i m.advance hreach
  keypad := (Instruction.outside_effect i m.advance).keypad

/-- A word that fails leaves everything but the program counter as it was. -/
theorem frameLaw_of_fault (hrandom : ¬ op.fits (.top 0xC)) : FrameLaw op m m.advance where
  parts p _ := by
    have hsame := Part.Same.refl m p
    cases p <;> exact hsame
  memory _ _ := rfl
  registers _ _ := rfl
  stack := Or.inl rfl
  random := (if_neg hrandom).symm
  keypad := rfl

/-- **WHAT CARRYING OUT A WORD CHANGES**, whether or not it fails. -/
theorem frameLaw_execute (h : m.WellFormed) (op : Opcode) :
    FrameLaw op m (m.execute op).state := by
  have hdraws (hfits : op.fits (.top 0xC)) : decode op = some ⟨.random, op⟩ :=
    decode_of_fits (by decide) (by decide) hfits
  rcases execute_cases h op with ⟨i, hdec, hs, he⟩ | ⟨i, reason, hdec, hs, he⟩ | ⟨hdec, he⟩
  · rw [he]
    exact frameLaw_effect hdec hs
  · rw [he]
    refine frameLaw_of_fault fun hfits => ?_
    obtain rfl : ⟨.random, op⟩ = i := Option.some.inj ((hdraws hfits).symm.trans hdec)
    exact nomatch hs
  · rw [he]
    exact frameLaw_of_fault fun hfits => nomatch (hdraws hfits).symm.trans hdec

/-- **WHAT A STEP THAT COMPLETES DOES TO THE STACK**: a call pushes the address of the next
    word, a return goes to the address that it pops, and nothing else touches the stack. -/
theorem stack_step (h : m.WellFormed) (he : m.step.failure = none) :
    (m.word.fits (.top 0x2) ∧ m.step.state.stack = addressOf (m.pc + 2) :: m.stack) ∨
    (m.word.fits (.whole 0x00EE) ∧ m.stack = m.step.state.pc :: m.step.state.stack) ∨
    (¬ m.word.fits (.top 0x2) ∧ ¬ m.word.fits (.whole 0x00EE) ∧
      m.step.state.stack = m.stack) := by
  obtain ⟨i, hdec, hs, hstep⟩ := step_success h he
  rw [hstep]
  rcases Instruction.stack_effect (m := m.advance) i hs with
    ⟨hop, hpush⟩ | ⟨hop, hpop⟩ | ⟨hcall, hret, hsame⟩
  · exact Or.inl ⟨fits_of_decode (by decide) hdec hop, hpush⟩
  · exact Or.inr (Or.inl ⟨fits_of_decode (by decide) hdec hop, hpop⟩)
  · refine Or.inr (Or.inr ⟨fun hfits => hcall ?_, fun hfits => hret ?_, hsame⟩)
    · exact operation_of_fits (by decide) (by decide) hfits hdec
    · exact operation_of_fits (by decide) (by decide) hfits hdec

/-- A step carries out the word at the program counter, and counts it or halts. -/
theorem step_execute (h : m.WellFormed) :
    m.step.state = { (m.execute m.word).state with
      executed := m.step.state.executed
      halted := m.step.state.halted } := by
  simp only [step, fetch_eq h]
  split <;> rfl

/-- **WHAT A STEP CHANGES**, whether or not it fails. -/
theorem frameLaw_step (h : m.WellFormed) : FrameLaw m.word m m.step.state := by
  have hlaw := frameLaw_execute h m.word
  -- the count and the halt are no part that a program changes
  rw [step_execute h]
  refine { hlaw with parts := ?_ }
  intro p hp
  have hsame := hlaw.parts p hp
  cases p <;> exact hsame

end Machine

end Chip8
