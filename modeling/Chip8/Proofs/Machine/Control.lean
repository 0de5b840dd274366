import Chip8.Proofs.Keypad.Changes
import Chip8.Proofs.Machine.Load
import Chip8.Proofs.Machine.Reach

/-! # Control flow

    Most words lead to the word behind them.  The others are the jumps, the calls and the returns,
    and the words that skip.  These come in pairs (**`Condition`**): both ask the same of their
    operands, one of them skips if the answer is yes and the other if it is no
    (**`execute_skips`**, **`execute_goes_on`**), and neither does anything else.

    **`control_flow_is_exact`** says where every word leads that does not fail, and what comes of
    a skip in front of a jump. -/

namespace Chip8

open Machine

/-! ## Words that skip -/

/-- What a word that skips asks of its operands. -/
inductive Condition where
  /-- Is a register equal to a byte? -/
  | byte
  /-- Are two registers equal? -/
  | registers
  /-- Is the key held whose number is in a register? -/
  | key
  deriving DecidableEq

namespace Condition

/-- The words that skip on an answer. -/
def shape : Condition → Bool → Shape
  | .byte,      true  => .top 0x3
  | .byte,      false => .top 0x4
  | .registers, true  => .ends 0x5 0x0
  | .registers, false => .ends 0x9 0x0
  | .key,       true  => .tail 0xE 0x9E
  | .key,       false => .tail 0xE 0xA1

/-- The operation of the words that skip on an answer. -/
def operation : Condition → Bool → Operation
  | .byte,      true  => .skipEqByte
  | .byte,      false => .skipNeByte
  | .registers, true  => .skipEqReg
  | .registers, false => .skipNeReg
  | .key,       true  => .skipHeld
  | .key,       false => .skipNotHeld

/-- Whether the answer is yes.  A number above fifteen is that of no key, and no such key is
    held. -/
def Holds (m : Machine) (op : Opcode) : Condition → Prop
  | .byte      => m.registers.get op.x = op.kk
  | .registers => m.registers.get op.x = m.registers.get op.y
  | .key       => ∃ k : Key, k.val = m.registers.get op.x ∧ m.keypad.holds k = true

/-- Whether two words have the operands of a condition in common. -/
def SameOperands (op op' : Opcode) : Condition → Prop
  | .byte      => op.x = op'.x ∧ op.kk = op'.kk
  | .registers => op.x = op'.x ∧ op.y = op'.y
  | .key       => op.x = op'.x

/-- The answer, as an instruction finds it. -/
def found (m : Machine) (op : Opcode) : Condition → Bool
  | .byte      => m.registers.get op.x == op.kk
  | .registers => m.registers.get op.x == m.registers.get op.y
  | .key       => m.keypad.isHeld (m.registers.get op.x)

variable {m : Machine} {op op' : Opcode} {c : Condition} {answer : Bool}

theorem row_mem (c : Condition) (answer : Bool) :
    ⟨c.operation answer, c.shape answer⟩ ∈ instructionSet := by
  cases c <;> cases answer <;> decide

theorem operation_ne_sys (c : Condition) (answer : Bool) : c.operation answer ≠ .sys := by
  cases c <;> cases answer <;> decide

theorem found_iff : c.found m op = true ↔ c.Holds m op := by
  cases c with
  | byte => exact beq_iff_eq
  | registers => exact beq_iff_eq
  | key => simp only [found, Holds, Keypad.isHeld_iff, Int.natCast_inj]

theorem found_eq (ha : c.Holds m op ↔ answer = true) : c.found m op = answer :=
  Bool.eq_iff_iff.2 (found_iff.trans ha)

theorem found_ne (ha : ¬ (c.Holds m op ↔ answer = true)) : c.found m op ≠ answer := by
  rintro rfl
  exact ha found_iff.symm

theorem holds_congr (h : c.SameOperands op op') : c.Holds m op ↔ c.Holds m op' := by
  cases c with
  | byte => rw [Holds, Holds, h.1, h.2]
  | registers => rw [Holds, Holds, h.1, h.2]
  | key => rw [Holds, Holds, show op.x = op'.x from h]

theorem not_holds_key (h : 15 < m.registers.get op.x) : ¬ key.Holds m op := by
  rintro ⟨k, hk, _⟩
  omega

/-- An instruction that skips does so on the answer of its own. -/
theorem effect_eq (c : Condition) (answer : Bool) (op : Opcode) (m : Machine) :
    Instruction.effect ⟨c.operation answer, op⟩ m = m.skipIf (c.found m op == answer) := by
  cases c <;> cases answer <;>
    simp [operation, found, Instruction.effect, Instruction.x, Instruction.y, Instruction.kk, bne]

end Condition

/-- Whether a word skips on a machine: it asks something, and the answer is the one that it skips
    on. -/
def Opcode.Skips (op : Opcode) (m : Machine) : Prop :=
  ∃ (c : Condition) (answer : Bool), op.fits (c.shape answer) ∧ (c.Holds m op ↔ answer = true)

/-- An outcome that went to an address and did nothing else. -/
structure GoesTo (m : Machine) (pc : Int) (o : Outcome Failure Log.Entry Machine) : Prop where
  success : o.failure = none
  state : o.state = { m with pc }

namespace Machine

variable {m : Machine} {op op' : Opcode} {c : Condition} {answer : Bool}

/-- The word behind the next one is two words ahead. -/
theorem advance_advance (m : Machine) :
    m.advance.advance = { m with pc := addressOf (m.pc + 4) } := by
  have hpc : addressOf (addressOf (m.pc + 2) + 2) = addressOf (m.pc + 4) := by
    rw [addressOf_add, Int.add_assoc]
    rfl
  rw [advance, advance, hpc]

/-- All that comes of a word that asks something is a skip, or not even that. -/
theorem execute_of_asks (h : m.WellFormed) (hfits : op.fits (c.shape answer)) :
    ∃ notes, m.execute op = ⟨m.advance.skipIf (c.found m op == answer), notes, none⟩ := by
  have hdec : decode op = some ⟨c.operation answer, op⟩ :=
    decode_of_fits (c.row_mem answer) (c.operation_ne_sys answer) hfits
  have hs : Instruction.stackFault? ⟨c.operation answer, op⟩ m = none := by
    cases c <;> cases answer <;> rfl
  have hfound : c.found m.advance op = c.found m op := by
    cases c <;> rfl
  rw [execute_of_decode h hdec hs, c.effect_eq, hfound]
  exact ⟨_, rfl⟩

/-- **A WORD SKIPS ON THE ANSWER OF ITS OWN**, and does nothing else. -/
theorem execute_skips (h : m.WellFormed) (hfits : op.fits (c.shape answer))
    (ha : c.Holds m op ↔ answer = true) : GoesTo m (addressOf (m.pc + 4)) (m.execute op) := by
  obtain ⟨notes, he⟩ := execute_of_asks h hfits
  rw [he, Condition.found_eq ha, beq_self_eq_true]
  exact ⟨rfl, m.advance_advance⟩

/-- On the other one it only goes on. -/
theorem execute_goes_on (h : m.WellFormed) (hfits : op.fits (c.shape answer))
    (ha : ¬ (c.Holds m op ↔ answer = true)) :
    GoesTo m (addressOf (m.pc + 2)) (m.execute op) := by
  obtain ⟨notes, he⟩ := execute_of_asks h hfits
  rw [he, beq_false_of_ne (Condition.found_ne ha)]
  exact ⟨rfl, rfl⟩

/-! ## Where words lead -/

/-- The operations that set the program counter and ask nothing. -/
def leaps : List Operation := [.jump, .call, .ret, .jumpOffset]

/-- No other operation goes anywhere. -/
theorem pc_effect {i : Instruction} (hleap : i.operation ∉ leaps)
    (hasks : ∀ c answer, i.operation ≠ Condition.operation c answer) : (i.effect m).pc = m.pc := by
  cases hop : i.operation <;> rw [hop] at hleap hasks <;> first
    | exact absurd (by decide) hleap
    | simp only [Instruction.effect, hop]
  -- what is left of the others asks something, or keeps the program counter
  case skipEqByte => exact absurd rfl (hasks .byte true)
  case skipNeByte => exact absurd rfl (hasks .byte false)
  case skipEqReg => exact absurd rfl (hasks .registers true)
  case skipNeReg => exact absurd rfl (hasks .registers false)
  case skipHeld => exact absurd rfl (hasks .key true)
  case skipNotHeld => exact absurd rfl (hasks .key false)
  all_goals rfl

/-- A word that is carried out has the effect of the row whose shape it has. -/
theorem execute_of_fits (h : m.WellFormed) (hok : (m.execute op).failure = none) {o : Operation}
    {s : Shape} (hrow : ⟨o, s⟩ ∈ instructionSet) (hsys : o ≠ .sys) (hfits : op.fits s) :
    Instruction.stackFault? ⟨o, op⟩ m = none ∧
      (m.execute op).state = Instruction.effect ⟨o, op⟩ m.advance := by
  obtain ⟨i, hdec, hs, he⟩ := execute_success h hok
  have hrow := decode_of_fits hrow hsys hfits
  obtain rfl : ⟨o, op⟩ = i := Option.some.inj (hrow.symm.trans hdec)
  exact ⟨hs, congrArg Outcome.state he⟩

/-- A return that is carried out goes to the top of the stack. -/
theorem pc_execute_ret (h : m.WellFormed) (hok : (m.execute op).failure = none)
    (hfits : op.fits (.whole 0x00EE)) : m.stack.head? = some (m.execute op).state.pc := by
  obtain ⟨hs, hstate⟩ := execute_of_fits h hok (o := .ret) (by decide) (by decide) hfits
  rcases Instruction.stack_effect (m := m.advance) ⟨.ret, op⟩ hs with
    ⟨hop, _⟩ | ⟨_, hpop⟩ | ⟨_, hop, _⟩
  · exact nomatch hop
  · rw [show m.stack = _ from hpop, hstate]
    rfl
  · exact absurd rfl hop

/-- **WHERE A WORD LEADS** that is carried out, if it is neither a jump nor a return and does not
    skip. -/
theorem pc_execute (h : m.WellFormed) (hok : (m.execute op).failure = none)
    (hleap : ¬ op.among [.top 0x1, .top 0x2, .whole 0x00EE, .top 0xB]) (hskip : ¬ op.Skips m) :
    (m.execute op).state.pc = addressOf (m.pc + 2) := by
  obtain ⟨i, hdec, _, he⟩ := execute_success h hok
  by_cases hasks : ∃ c answer, i.operation = Condition.operation c answer
  · obtain ⟨c, answer, hop⟩ := hasks
    have hfits : op.fits (c.shape answer) := fits_of_decode (c.row_mem answer) hdec hop
    have hgo := execute_goes_on h hfits fun ha => hskip ⟨c, answer, hfits, ha⟩
    rw [hgo.state]
  · have hop : i.operation ∉ leaps := fun hop => hleap (among_of_decode (by decide) hdec hop)
    rw [he]
    exact pc_effect hop fun c answer hop => hasks ⟨c, answer, hop⟩

/-- A step goes where its word goes, and counts it. -/
theorem step_of_goesTo (h : m.WellFormed) {pc : Int} (hgo : GoesTo m pc (m.execute m.word)) :
    m.step.failure = none ∧ m.step.state = { m with pc, executed := m.executed + 1 } := by
  simp only [step, fetch_eq h, hgo.success, hgo.state, and_self]

/-- A jump goes to its address. -/
theorem execute_jump (h : m.WellFormed) (hfits : op.fits (.top 0x1)) :
    GoesTo m op.nnn (m.execute op) := by
  have hdec : decode op = some ⟨.jump, op⟩ := decode_of_fits (by decide) (by decide) hfits
  rw [execute_of_decode h hdec rfl]
  exact ⟨rfl, rfl⟩

/-- The word behind the one at the program counter. -/
theorem word_at_next (m : Machine) (count : Nat) :
    ({ m with pc := addressOf (m.pc + 2), executed := count } : Machine).word =
      (256 * m.byteAt (m.pc + 2) + m.byteAt (m.pc + 3) : Nat) := by
  have hlow : addressOf (addressOf (m.pc + 2)) = addressOf (m.pc + 2) :=
    addressOf_of_range (addressOf_range (m.pc + 2))
  have hhigh : addressOf (addressOf (m.pc + 2) + 1) = addressOf (m.pc + 3) := by
    rw [addressOf_add, Int.add_assoc]
    rfl
  simp only [word, byteAt, hlow, hhigh]

/-- A step that does nothing leads to the word behind, and if that is a jump, to where it goes. -/
theorem steps_to_jump (h : m.WellFormed)
    (hgo : GoesTo m (addressOf (m.pc + 2)) (m.execute m.word)) :
    let jump : Opcode := (256 * m.byteAt (m.pc + 2) + m.byteAt (m.pc + 3) : Nat)
    jump.fits (.top 0x1) → (m.step.andThen step).failure = none ∧
      (m.step.andThen step).state = { m with pc := jump.nnn, executed := m.executed + 2 } := by
  intro jump hjump
  obtain ⟨hok, hstate⟩ := step_of_goesTo h hgo
  have hword : m.step.state.word = jump := by
    rw [hstate, word_at_next]
  have hgo' : GoesTo m.step.state jump.nnn (m.step.state.execute m.step.state.word) := by
    rw [hword]
    exact execute_jump (wellFormed_step h) hjump
  obtain ⟨hok', hstate'⟩ := step_of_goesTo (wellFormed_step h) hgo'
  rw [Outcome.andThen_of_success hok]
  refine ⟨hok', hstate'.trans ?_⟩
  rw [hstate]

/-! ## Control flow is exact -/

/-- **CONTROL FLOW IS EXACT.**  On a well-formed machine, with addresses modulo 4096:

    * a word that is carried out leads to `nnn` if it is `1nnn` or `2nnn`, to the sum of `nnn` and
      the first register if it is `Bnnn`, to the top of the stack if it is `00EE`, to the fourth
      address from the program counter if it skips, and in all other cases to the second;
    * of two words that ask the same of the same operands and skip on different answers, one
      skips and the other does not; neither fails nor changes anything but the program counter.
      A register above fifteen holds the number of no key that is held;
    * if the word at the program counter asks something and the one behind it is a jump, then a
      step goes past the jump if the first word skips, and two steps go where the jump goes if
      it does not. -/
theorem control_flow_is_exact (h : m.WellFormed) :
    (∀ op : Opcode, (m.execute op).failure = none →
      let next := (m.execute op).state.pc
      (op.fits (.top 0x1) ∨ op.fits (.top 0x2) → next = op.nnn) ∧
      (op.fits (.top 0xB) → next = (op.nnn + m.registers.get 0 : Int) % 4096) ∧
      (op.fits (.whole 0x00EE) → m.stack.head? = some next) ∧
      (op.Skips m → next = (m.pc + 4) % 4096) ∧
      (¬ op.among [.top 0x1, .top 0x2, .whole 0x00EE, .top 0xB] → ¬ op.Skips m →
        next = (m.pc + 2) % 4096)) ∧
    (∀ (c : Condition) (op op' : Opcode), op.fits (c.shape true) → op'.fits (c.shape false) →
      c.SameOperands op op' →
      (c.Holds m op → GoesTo m ((m.pc + 4) % 4096) (m.execute op) ∧
        GoesTo m ((m.pc + 2) % 4096) (m.execute op')) ∧
      (¬ c.Holds m op → GoesTo m ((m.pc + 2) % 4096) (m.execute op) ∧
        GoesTo m ((m.pc + 4) % 4096) (m.execute op'))) ∧
    (∀ op : Opcode, 15 < m.registers.get op.x → ¬ Condition.key.Holds m op) ∧
    (∀ (c : Condition) (answer : Bool),
      let jump : Opcode := (256 * m.byteAt (m.pc + 2) + m.byteAt (m.pc + 3) : Nat)
      m.word.fits (c.shape answer) → jump.fits (.top 0x1) →
      (m.word.Skips m → m.step.failure = none ∧
        m.step.state = { m with pc := (m.pc + 4) % 4096, executed := m.executed + 1 }) ∧
      (¬ m.word.Skips m → (m.step.andThen step).failure = none ∧
        (m.step.andThen step).state = { m with pc := jump.nnn, executed := m.executed + 2 })) := by
  refine ⟨?_, ?_, fun _ => Condition.not_holds_key, ?_⟩
  · intro op hok next
    have hpc {o : Operation} {s : Shape} (hrow : ⟨o, s⟩ ∈ instructionSet) (hsys : o ≠ .sys)
        (hfits : op.fits s) : next = (Instruction.effect ⟨o, op⟩ m.advance).pc :=
      congrArg Machine.pc (execute_of_fits h hok hrow hsys hfits).2
    refine ⟨?_, ?_, pc_execute_ret h hok, ?_, pc_execute h hok⟩
    · rintro (hfits | hfits)
      · exact hpc (o := .jump) (by decide) (by decide) hfits
      · exact hpc (o := .call) (by decide) (by decide) hfits
    · intro hfits
      exact hpc (o := .jumpOffset) (by decide) (by decide) hfits
    · rintro ⟨c, answer, hfits, ha⟩
      exact congrArg Machine.pc (execute_skips h hfits ha).state
  · intro c op op' hfits hfits' hsame
    have hholds := Condition.holds_congr (m := m) hsame
    constructor
    · intro hyes
      refine ⟨execute_skips h hfits (by simp [hyes]), execute_goes_on h hfits' ?_⟩
      simp [← hholds, hyes]
    · intro hno
      refine ⟨execute_goes_on h hfits (by simp [hno]), execute_skips h hfits' ?_⟩
      simp [← hholds, hno]
  · intro c answer jump hfits hjump
    constructor
    · rintro ⟨c, answer, hfits, ha⟩
      exact step_of_goesTo h (execute_skips h hfits ha)
    · intro hskip
      have hgo := execute_goes_on h hfits fun ha => hskip ⟨c, answer, hfits, ha⟩
      exact steps_to_jump h hgo hjump

/-- A word in the last two cells of memory that asks whether the first register is one, and does
    not skip the jump in the first two cells; the word that asks the same and does. -/
theorem jump_across_the_end :
    let m : Machine :=
      { ((((fresh 10 440 (.cycling [])).withByte 0xFFE 0x30).withByte 0xFFF 0x01).withByte
        0x000 0x12).withByte 0x001 0x34 with pc := 0xFFE }
    m.WellFormed ∧ m.word = 0x3001 ∧
      GoesTo m 0x000 (m.execute 0x3001) ∧ GoesTo m 0x002 (m.execute 0x4001) ∧
      (m.step.andThen step).failure = none ∧
      (m.step.andThen step).state = { m with pc := 0x234, executed := 2 } := by
  intro m
  have hfresh : (fresh 10 440 (.cycling [])).WellFormed := wellFormed_fresh 10 440 (.cycling [])
  have h : m.WellFormed :=
    ((((hfresh.withByte 0xFFE 0x30).withByte 0xFFF 0x01).withByte 0x000 0x12).withByte
      0x001 0x34).withPc (by decide)
  have hcell (i : Nat) : m.memory.get i = if i = 1 then 0x34 else if i = 0 then 0x12 else
      if i = 0xFFF then 0x01 else if i = 0xFFE then 0x30 else (font.getD i 0).toNat := by
    have hsize : (fresh 10 440 (.cycling [])).memory.size = 4096 := hfresh.memory_size
    rw [← get_fresh 10 440 (.cycling [])]
    simp only [m, withByte]
    rw [Bank.get_put, Bank.get_put, Bank.get_put, Bank.get_put]
    · rfl
    all_goals simp only [Bank.size_put, hsize]; decide
  have hword : m.word = 0x3001 := by
    rw [word, byteAt, byteAt, hcell, hcell]
    rfl
  have hjump : (256 * m.byteAt (m.pc + 2) + m.byteAt (m.pc + 3) : Nat) = 0x1234 := by
    rw [byteAt, byteAt, hcell, hcell]
    rfl
  have hno : ¬ Condition.byte.Holds m 0x3001 := by
    have hzero : m.registers.get 0 = 0 := Bank.get_zeros _ _
    show m.registers.get 0 ≠ 1
    rw [hzero]
    decide
  obtain ⟨hleads, hdual, _, hjumps⟩ := control_flow_is_exact h
  obtain ⟨hstay, hskip⟩ :=
    (hdual .byte 0x3001 0x4001 (by decide) (by decide) ⟨rfl, rfl⟩).2 hno
  have hskips : ¬ Opcode.Skips 0x3001 m := by
    intro hskips
    obtain ⟨_, _, _, hahead, _⟩ := hleads 0x3001 hstay.success
    have hpc : (0x000 : Int) = 0x002 := (congrArg Machine.pc hstay.state).symm.trans (hahead hskips)
    exact absurd hpc (by decide)
  have hsteps := hjumps .byte true
  rw [hword, hjump] at hsteps
  obtain ⟨hok, hstate⟩ := (hsteps (by decide) (by decide)).2 hskips
  exact ⟨h, hword, hstay, hskip, hok, hstate⟩

end Machine

end Chip8
