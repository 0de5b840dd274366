import Chip8.Machine.Cycle
import Chip8.Proofs.Machine.Effect

/-! # What a step does

    A step of a well-formed machine takes one of three ways (**`step_cases`**): the
    instruction completes, the stack has no room or nothing on it for it, or the word at
    the program counter is no instruction.  In the last two the machine is
    **`stopped`**: past the word, halted, and otherwise as it was.

    What holds of every step follows from that: it keeps a machine well-formed
    (**`wellFormed_step`**) and fails with nothing but one of the three faults, which
    halts the machine (**`step_failure`**). -/

namespace Chip8.Machine

open Instruction

variable {m : Machine}

/-- The word at the program counter, read without checks. -/
def word (m : Machine) : Opcode := (256 * m.byteAt m.pc + m.byteAt (m.pc + 1) : Nat)

theorem word_congr {m' : Machine} (hmemory : m'.memory = m.memory) (hpc : m'.pc = m.pc) :
    m'.word = m.word := by
  rw [word, word, byteAt, byteAt, byteAt, byteAt, hmemory, hpc]

/-- The machine after an instruction has been carried out and counted. -/
def completed (m : Machine) (i : Instruction) : Machine :=
  { i.effect m.advance with executed := m.executed + 1 }

def stopped (m : Machine) : Machine := { m.advance with halted := true }

theorem fetch_eq (h : m.WellFormed) : m.fetch = .ok m.word := by
  rw [fetch, h.peek_bind, h.peek_bind]
  rfl

theorem addressOf_advance (h : m.WellFormed) : addressOf (m.advance.pc - 2) = m.pc := by
  obtain ⟨h₀, hlt⟩ := h.pc_range
  simp only [advance, addressOf, memorySize] at hlt ⊢
  omega

/-- **WHAT CARRYING OUT A WORD DOES**: the effect of the instruction, or a fault that
    leaves the machine past the word and otherwise as it was. -/
theorem execute_cases (h : m.WellFormed) (op : Opcode) :
    (∃ i, decode op = some i ∧ i.stackFault? m = none ∧
      m.execute op = ⟨i.effect m.advance, .trace m.pc i :: i.notes, none⟩) ∨
    (∃ i reason, decode op = some i ∧ i.stackFault? m = some reason ∧
      m.execute op = ⟨m.advance, [.trace m.pc i], some (.fault ⟨reason, op, m.pc⟩)⟩) ∨
    (decode op = none ∧
      m.execute op = ⟨m.advance, [], some (.fault ⟨.unknownOpcode, op, m.pc⟩)⟩) := by
  cases hdec : decode op with
  | none =>
      refine Or.inr (Or.inr ⟨rfl, ?_⟩)
      rw [execute, hdec]
      rfl
  | some i =>
      have happly := apply_eq h.advance i
      rw [show i.stackFault? m.advance = i.stackFault? m from rfl] at happly
      cases hs : i.stackFault? m with
      | none =>
          refine Or.inl ⟨i, rfl, hs, ?_⟩
          rw [hs] at happly
          simp only [execute, hdec, happly]
          rfl
      | some reason =>
          refine Or.inr (Or.inl ⟨i, reason, rfl, hs, ?_⟩)
          have hfault : i.faultAt reason m.advance = .fault ⟨reason, op, m.pc⟩ := by
            rw [faultAt, addressOf_advance h, opcode_of_decode hdec]
          rw [hs] at happly
          simp only [execute, hdec, happly, hfault]
          rfl

theorem execute_of_decode (h : m.WellFormed) {op : Opcode} {i : Instruction}
    (hdec : decode op = some i) (hs : i.stackFault? m = none) :
    m.execute op = ⟨i.effect m.advance, .trace m.pc i :: i.notes, none⟩ := by
  rcases execute_cases h op with ⟨i', hdec', _, he⟩ | ⟨i', reason, hdec', hs', _⟩ | ⟨hdec', _⟩
  · obtain rfl : i' = i := Option.some.inj (hdec'.symm.trans hdec)
    exact he
  · obtain rfl : i' = i := Option.some.inj (hdec'.symm.trans hdec)
    exact nomatch hs'.symm.trans hs
  · exact nomatch hdec'.symm.trans hdec

theorem execute_success (h : m.WellFormed) {op : Opcode} (hok : (m.execute op).failure = none) :
    ∃ i, decode op = some i ∧ i.stackFault? m = none ∧
      m.execute op = ⟨i.effect m.advance, .trace m.pc i :: i.notes, none⟩ := by
  rcases execute_cases h op with ⟨i, hdec, hs, he⟩ | ⟨i, reason, _, _, he⟩ | ⟨_, he⟩
  · exact ⟨i, hdec, hs, he⟩
  · rw [he] at hok
    exact nomatch hok
  · rw [he] at hok
    exact nomatch hok

/-- **WHAT A STEP DOES.** -/
theorem step_cases (h : m.WellFormed) :
    (∃ i, decode m.word = some i ∧ i.stackFault? m = none ∧
      m.step = ⟨m.completed i, .trace m.pc i :: i.notes, none⟩) ∨
    (∃ i reason, decode m.word = some i ∧ i.stackFault? m = some reason ∧
      m.step = ⟨m.stopped, [.trace m.pc i, .halted ⟨reason, m.word, m.pc⟩],
        some (.fault ⟨reason, m.word, m.pc⟩)⟩) ∨
    (decode m.word = none ∧
      m.step = ⟨m.stopped, [.halted ⟨.unknownOpcode, m.word, m.pc⟩],
        some (.fault ⟨.unknownOpcode, m.word, m.pc⟩)⟩) := by
  rcases execute_cases h m.word with ⟨i, hdec, hs, he⟩ | ⟨i, reason, hdec, hs, he⟩ | ⟨hdec, he⟩
  · refine Or.inl ⟨i, hdec, hs, ?_⟩
    have hcount : (i.effect m.advance).executed = m.executed :=
      (outside_effect i m.advance).executed
    simp only [step, fetch_eq h, he, hcount]
    rfl
  · refine Or.inr (Or.inl ⟨i, reason, hdec, hs, ?_⟩)
    simp only [step, fetch_eq h, he]
    rfl
  · refine Or.inr (Or.inr ⟨hdec, ?_⟩)
    simp only [step, fetch_eq h, he]
    rfl

theorem stackFault?_cases {i : Instruction} {reason : Fault.Reason}
    (hs : i.stackFault? m = some reason) : reason = .stackOverflow ∨ reason = .stackUnderflow := by
  cases hop : i.operation <;> simp only [stackFault?, hop, reduceCtorEq] at hs
  case ret =>
      by_cases hempty : m.stack = []
      · rw [if_pos hempty] at hs
        exact Or.inr (Option.some.inj hs).symm
      · rw [if_neg hempty] at hs
        cases hs
  case call =>
      by_cases hfull : stackDepth ≤ m.stack.length
      · rw [if_pos hfull] at hs
        exact Or.inl (Option.some.inj hs).symm
      · rw [if_neg hfull] at hs
        cases hs

/-! ## Steps and the invariant -/

theorem wellFormed_completed (h : m.WellFormed) {i : Instruction} (hs : i.stackFault? m = none) :
    (m.completed i).WellFormed :=
  { wellFormed_effect h.advance i hs with }

theorem wellFormed_stopped (h : m.WellFormed) : m.stopped.WellFormed :=
  { h.advance with }

/-- **STEPS KEEP A MACHINE WELL-FORMED**, those that fail among them. -/
theorem wellFormed_step (h : m.WellFormed) : m.step.state.WellFormed := by
  rcases step_cases h with ⟨i, _, hs, he⟩ | ⟨i, reason, _, _, he⟩ | ⟨_, he⟩
  · rw [he]
    exact wellFormed_completed h hs
  · rw [he]
    exact wellFormed_stopped h
  · rw [he]
    exact wellFormed_stopped h

theorem wellFormed_execute (h : m.WellFormed) (op : Opcode) : (m.execute op).state.WellFormed := by
  rcases execute_cases h op with ⟨i, _, hs, he⟩ | ⟨i, reason, _, _, he⟩ | ⟨_, he⟩
  · rw [he]
    exact wellFormed_effect h.advance i hs
  · rw [he]
    exact h.advance
  · rw [he]
    exact h.advance

theorem step_success (h : m.WellFormed) (hok : m.step.failure = none) :
    ∃ i, decode m.word = some i ∧ i.stackFault? m = none ∧
      m.step = ⟨m.completed i, .trace m.pc i :: i.notes, none⟩ := by
  rcases step_cases h with ⟨i, hdec, hs, he⟩ | ⟨i, reason, _, _, he⟩ | ⟨_, he⟩
  · exact ⟨i, hdec, hs, he⟩
  · rw [he] at hok
    exact nomatch hok
  · rw [he] at hok
    exact nomatch hok

theorem step_of_decode (h : m.WellFormed) {i : Instruction} (hdec : decode m.word = some i)
    (hs : i.stackFault? m = none) :
    m.step = ⟨m.completed i, .trace m.pc i :: i.notes, none⟩ := by
  rcases step_cases h with ⟨i', hdec', _, he⟩ | ⟨i', reason, hdec', hs', _⟩ | ⟨hdec', _⟩
  · obtain rfl : i' = i := Option.some.inj (hdec'.symm.trans hdec)
    exact he
  · obtain rfl : i' = i := Option.some.inj (hdec'.symm.trans hdec)
    exact nomatch hs'.symm.trans hs
  · exact nomatch hdec'.symm.trans hdec

/-- **A STEP FAILS WITH A FAULT ONLY**: the word is no instruction, the stack is full or
    it is empty.  The fault names the word and its address, and the machine is stopped. -/
theorem step_failure (h : m.WellFormed) {e : Failure} (hfail : m.step.failure = some e) :
    ∃ reason, e = .fault ⟨reason, m.word, m.pc⟩ ∧ m.step.state = m.stopped ∧
      (reason = .unknownOpcode ∨ reason = .stackOverflow ∨ reason = .stackUnderflow) := by
  rcases step_cases h with ⟨i, _, _, he⟩ | ⟨i, reason, _, hs, he⟩ | ⟨_, he⟩
  · rw [he] at hfail
    exact nomatch hfail
  · rw [he] at hfail ⊢
    exact ⟨reason, (Option.some.inj hfail).symm, rfl, Or.inr (stackFault?_cases hs)⟩
  · rw [he] at hfail ⊢
    exact ⟨.unknownOpcode, (Option.some.inj hfail).symm, rfl, Or.inl rfl⟩

theorem step_of_unknown (h : m.WellFormed) (hdec : decode m.word = none) :
    m.step.failure = some (.fault ⟨.unknownOpcode, m.word, m.pc⟩) := by
  rcases step_cases h with ⟨i, hi, _, _⟩ | ⟨i, _, hi, _, _⟩ | ⟨_, he⟩
  · exact nomatch hdec.symm.trans hi
  · exact nomatch hdec.symm.trans hi
  · rw [he]

/-! ## What a step leaves alone -/

theorem host_completed (m : Machine) (i : Instruction) : SameHost m (m.completed i) :=
  { (outside_effect i m.advance).toSameHost with }

theorem halted_completed (m : Machine) (i : Instruction) : (m.completed i).halted = m.halted :=
  (outside_effect i m.advance).halted

theorem host_step (h : m.WellFormed) : SameHost m m.step.state := by
  rcases step_cases h with ⟨i, _, _, he⟩ | ⟨i, reason, _, _, he⟩ | ⟨_, he⟩
  · rw [he]
    exact host_completed m i
  · rw [he]
    exact { SameHost.refl m with }
  · rw [he]
    exact { SameHost.refl m with }

end Chip8.Machine
