import Chip8.Proofs.Instruction.Shapes
import Chip8.Proofs.Machine.Load
import Chip8.Proofs.Machine.Step

/-! # Which steps fault

    Whether a step fails is decided by the word at the program counter and by the height of
    the stack alone (**`fault?`**, **`step_failure_eq`**).  **`fault_exact`** says for each
    of the three faults exactly when it is raised, what it carries, and that nothing but the
    program counter and the halt is different behind it. -/

namespace Chip8.Machine

open Instruction

variable {m : Machine} {i : Instruction}

/-- The reason for which the next step fails, if it does. -/
def fault? (m : Machine) : Option Fault.Reason :=
  match decode m.word with
  | none   => some .unknownOpcode
  | some i => i.stackFault? m

/-- The next step fails for a reason. -/
def Raises (m : Machine) (reason : Fault.Reason) : Prop :=
  ∃ f, m.step.failure = some (.fault f) ∧ f.reason = reason

/-- **A STEP FAILS EXACTLY IF THERE IS A REASON**, and then with the fault that names the word
    and its address. -/
theorem step_failure_eq (h : m.WellFormed) :
    m.step.failure = m.fault?.map fun reason => .fault ⟨reason, m.word, m.pc⟩ := by
  rcases step_cases h with ⟨i, hdec, hs, he⟩ | ⟨i, reason, hdec, hs, he⟩ | ⟨hdec, he⟩
  · have hnone : m.fault? = none := by simp only [fault?, hdec, hs]
    rw [he, hnone]
    rfl
  · have hsome : m.fault? = some reason := by simp only [fault?, hdec, hs]
    rw [he, hsome]
    rfl
  · have hsome : m.fault? = some .unknownOpcode := by simp only [fault?, hdec]
    rw [he, hsome]
    rfl

theorem raises_iff (h : m.WellFormed) {reason : Fault.Reason} :
    m.Raises reason ↔ m.fault? = some reason := by
  rw [Raises, step_failure_eq h]
  constructor
  · rintro ⟨f, hf, rfl⟩
    obtain ⟨reason, hreason, hfault⟩ := Option.map_eq_some_iff.1 hf
    obtain rfl : (⟨reason, m.word, m.pc⟩ : Fault) = f := by
      injection hfault with hcomplaint
      injection hcomplaint
    exact hreason
  · intro hreason
    rw [hreason]
    exact ⟨⟨reason, m.word, m.pc⟩, rfl, rfl⟩

/-! ## The three reasons -/

theorem stackFault?_eq_overflow :
    i.stackFault? m = some .stackOverflow ↔ i.operation = .call ∧ stackDepth ≤ m.stack.length := by
  cases hop : i.operation <;> simp [stackFault?, hop]

theorem stackFault?_eq_underflow :
    i.stackFault? m = some .stackUnderflow ↔ i.operation = .ret ∧ m.stack = [] := by
  cases hop : i.operation <;> simp [stackFault?, hop]

theorem fault?_eq_unknown : m.fault? = some .unknownOpcode ↔ ¬ m.word.Documented := by
  rw [← decode_eq_none_iff]
  cases hdec : decode m.word with
  | none => simp only [fault?, hdec]
  | some i =>
      simp only [fault?, hdec, reduceCtorEq, iff_false]
      intro hs
      rcases stackFault?_cases hs with hreason | hreason <;> exact nomatch hreason

/-- A reason that only one operation has is a reason to fail for the words of its row only. -/
theorem fault?_eq_of_row {o : Operation} {s : Shape} {reason : Fault.Reason} {p : Prop}
    (hrow : ⟨o, s⟩ ∈ instructionSet) (hsys : o ≠ .sys) (hreason : reason ≠ .unknownOpcode)
    (hfault : ∀ i : Instruction, i.stackFault? m = some reason ↔ i.operation = o ∧ p) :
    m.fault? = some reason ↔ m.word.fits s ∧ p := by
  constructor
  · intro hf
    cases hdec : decode m.word with
    | none =>
        simp only [fault?, hdec] at hf
        exact absurd (Option.some.inj hf).symm hreason
    | some i =>
        simp only [fault?, hdec] at hf
        obtain ⟨hop, hp⟩ := (hfault i).1 hf
        exact ⟨fits_of_decode hrow hdec hop, hp⟩
  · rintro ⟨hfits, hp⟩
    have hdec : decode m.word = some ⟨o, m.word⟩ := decode_of_fits hrow hsys hfits
    simp only [fault?, hdec]
    exact (hfault _).2 ⟨rfl, hp⟩

theorem fault?_eq_overflow :
    m.fault? = some .stackOverflow ↔ m.word.fits (.top 0x2) ∧ stackDepth ≤ m.stack.length :=
  fault?_eq_of_row (by decide) (by decide) (by decide) fun _ => stackFault?_eq_overflow

theorem fault?_eq_underflow :
    m.fault? = some .stackUnderflow ↔ m.word.fits (.whole 0x00EE) ∧ m.stack = [] :=
  fault?_eq_of_row (by decide) (by decide) (by decide) fun _ => stackFault?_eq_underflow

/-! ## Faults are exact and atomic -/

/-- **FAULTS ARE EXACT AND ATOMIC.**  With `w` the word at the program counter, high byte
    first, where the last address of memory is followed by the first:

    * a step raises an unknown opcode exactly if `w` is not documented, a stack overflow
      exactly if `w` is `2nnn` and the stack is full, a stack underflow exactly if `w` is
      `00EE` and the stack is empty, and in all other cases nothing;
    * whatever it raises is one of these, and carries `w` and the address of `w`;
    * behind it the program counter stands past the word, the machine is halted, and nothing
      else is different. -/
theorem fault_exact (h : m.WellFormed) :
    let w : Opcode := (256 * m.memory.get (addressOf m.pc).toNat
      + m.memory.get (addressOf (m.pc + 1)).toNat : Nat)
    (m.Raises .unknownOpcode ↔ ¬ w.Documented) ∧
    (m.Raises .stackOverflow ↔ w.fits (.top 0x2) ∧ m.stack.length = stackDepth) ∧
    (m.Raises .stackUnderflow ↔ w.fits (.whole 0x00EE) ∧ m.stack = []) ∧
    (m.step.failure = none ↔ w.Documented ∧
      ¬ (w.fits (.top 0x2) ∧ m.stack.length = stackDepth) ∧
      ¬ (w.fits (.whole 0x00EE) ∧ m.stack = [])) ∧
    ∀ e, m.step.failure = some e →
      (∃ reason, e = .fault ⟨reason, w, m.pc⟩ ∧
        (reason = .unknownOpcode ∨ reason = .stackOverflow ∨ reason = .stackUnderflow)) ∧
      m.step.state = { m with pc := addressOf (m.pc + 2), halted := true } := by
  intro w
  have hfull : m.stack.length = stackDepth ↔ stackDepth ≤ m.stack.length := by
    have hlen := h.stack_length
    omega
  have hunknown : m.Raises .unknownOpcode ↔ ¬ w.Documented :=
    (raises_iff h).trans fault?_eq_unknown
  have hoverflow : m.Raises .stackOverflow ↔ w.fits (.top 0x2) ∧ m.stack.length = stackDepth := by
    rw [hfull]
    exact (raises_iff h).trans fault?_eq_overflow
  have hunderflow : m.Raises .stackUnderflow ↔ w.fits (.whole 0x00EE) ∧ m.stack = [] :=
    (raises_iff h).trans fault?_eq_underflow
  have hfailure : ∀ e, m.step.failure = some e →
      (∃ reason, e = .fault ⟨reason, w, m.pc⟩ ∧
        (reason = .unknownOpcode ∨ reason = .stackOverflow ∨ reason = .stackUnderflow)) ∧
      m.step.state = { m with pc := addressOf (m.pc + 2), halted := true } := by
    intro e he
    obtain ⟨reason, hfault, hstate, hreason⟩ := step_failure h he
    exact ⟨⟨reason, hfault, hreason⟩, hstate⟩
  refine ⟨hunknown, hoverflow, hunderflow, ?_, hfailure⟩
  rw [← hoverflow, ← hunderflow, ← not_not (a := w.Documented), ← hunknown]
  constructor
  · intro hnone
    have hraises (reason : Fault.Reason) : ¬ m.Raises reason := by
      rintro ⟨f, hf, _⟩
      exact nomatch hnone.symm.trans hf
    exact ⟨hraises _, hraises _, hraises _⟩
  · rintro ⟨hno, hno', hno''⟩
    cases he : m.step.failure with
    | none => rfl
    | some e =>
        -- whatever is raised is one of the three
        obtain ⟨⟨reason, rfl, hreason⟩, _⟩ := hfailure e he
        rcases hreason with rfl | rfl | rfl
        · exact absurd ⟨_, he, rfl⟩ hno
        · exact absurd ⟨_, he, rfl⟩ hno'
        · exact absurd ⟨_, he, rfl⟩ hno''

/-- A return that lies across the end of memory, with nothing on the stack. -/
theorem fault_across_the_end :
    let m : Machine := { (fresh 10 440 (.cycling [])).withByte 0 0xEE with pc := 0xFFF }
    m.WellFormed ∧ m.Raises .stackUnderflow ∧
      m.step.state = { m with pc := 0x001, halted := true } := by
  intro m
  have hfresh : (fresh 10 440 (.cycling [])).WellFormed := wellFormed_fresh 10 440 (.cycling [])
  have h : m.WellFormed := (hfresh.withByte 0 0xEE).withPc (by decide)
  have hcell (i : Nat) : m.memory.get i = if i = 0 then 0xEE else (font.getD i 0).toNat := by
    have hsize : 0 < (fresh 10 440 (.cycling [])).memory.size := by
      rw [hfresh.memory_size]
      decide
    rw [← get_fresh 10 440 (.cycling [])]
    exact Bank.get_put _ hsize 0xEE i
  have hword : (256 * m.memory.get (addressOf m.pc).toNat
      + m.memory.get (addressOf (m.pc + 1)).toNat : Nat) = 0x00EE := by
    rw [hcell, hcell]
    rfl
  obtain ⟨_, _, hunderflow, _, hfailure⟩ := fault_exact h
  rw [hword] at hunderflow
  obtain ⟨f, hf, hreason⟩ := hunderflow.2 ⟨by decide, rfl⟩
  exact ⟨h, ⟨f, hf, hreason⟩, (hfailure _ hf).2⟩

end Chip8.Machine
