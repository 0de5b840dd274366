import Chip8.Proofs.Instruction.Shapes
import Chip8.Proofs.Machine.Cycle

/-! # The steps of a batch

    **`strides`** lists the machines from which a batch takes the steps that complete; the
    word that such a machine reads is the instruction that is carried out.

    * **`batch_add`** and **`strides_add`**: a batch is cut in two at any place,
    * **`played`** is a batch for a machine that may be halted, and
      **`played_add`** says that then it does not matter where it is cut. -/

namespace Chip8.Machine

variable {m : Machine}

/-- The machines from which the steps of a batch are taken, those that complete, in order. -/
def strides : Nat → Machine → List Machine
  | 0,     _ => []
  | n + 1, m =>
      if m.paused = false ∧ m.step.failure = none then m :: strides n m.step.state else []

theorem strides_of_paused (hp : m.paused = true) (n : Nat) : strides n m = [] := by
  cases n with
  | zero => rfl
  | succ n => exact if_neg fun hgo => Bool.false_ne_true (hgo.1.symm.trans hp)

theorem strides_of_failure {e : Failure} (he : m.step.failure = some e) (n : Nat) :
    strides n m = [] := by
  cases n with
  | zero => rfl
  | succ n => exact if_neg fun hgo => nomatch hgo.2.symm.trans he

theorem strides_of_success (hp : m.paused = false) (he : m.step.failure = none) (n : Nat) :
    strides (n + 1) m = m :: strides n m.step.state :=
  if_pos ⟨hp, he⟩

/-- What every step that completes keeps holds of the machines from which steps are taken. -/
theorem strides_forall {P : Machine → Prop}
    (hstep : ∀ s, P s → s.paused = false → s.step.failure = none → P s.step.state) (hm : P m)
    (n : Nat) : ∀ t ∈ strides n m, P t := by
  induction n generalizing m with
  | zero => exact fun t ht => nomatch ht
  | succ n ih =>
      intro t ht
      by_cases hgo : m.paused = false ∧ m.step.failure = none
      · rw [strides_of_success hgo.1 hgo.2] at ht
        rcases List.mem_cons.1 ht with rfl | hmem
        · exact hm
        · exact ih (hstep m hm hgo.1 hgo.2) t hmem
      · rw [strides, if_neg hgo] at ht
        cases ht

/-- **WHAT A BATCH DOES STEP BY STEP**: a relation that puts up with every step from a machine
    of some kind, and with every step that fails, relates the two ends of a batch that takes
    its steps from machines of that kind. -/
theorem batch_relates {R : Machine → Machine → Prop} {Q : Machine → Prop}
    (hrefl : ∀ m, R m m) (htrans : ∀ {m m' m''}, R m m' → R m' m'' → R m m'')
    (hstep : ∀ m, m.WellFormed → (m.step.failure = none → Q m) → R m m.step.state) (n : Nat)
    (h : m.WellFormed) (hkind : ∀ t ∈ strides n m, Q t) : R m (batch n m).state := by
  induction n generalizing m with
  | zero => exact hrefl m
  | succ n ih =>
      cases hp : m.paused with
      | true =>
          rw [batch_of_paused hp]
          exact hrefl m
      | false =>
          cases he : m.step.failure with
          | some e =>
              rw [batch_succ_of_failure hp he]
              exact hstep m h fun hnone => nomatch hnone.symm.trans he
          | none =>
              rw [strides_of_success hp he] at hkind
              obtain ⟨hfirst, hrest⟩ := List.forall_mem_cons.1 hkind
              rw [batch_succ_of_success hp he]
              exact htrans (hstep m h fun _ => hfirst) (ih (wellFormed_step h) hrest)

/-! ## A program that jumps to itself -/

/-- The machine stands at a word that jumps to itself. -/
structure AtLoop (m : Machine) : Prop where
  wellFormed : m.WellFormed
  pc : m.pc = programStart
  word : m.word = (0x1200 : Nat)

theorem AtLoop.step (h : AtLoop m) :
    m.step.failure = none ∧ m.step.state = m.completed ⟨.jump, m.word⟩ := by
  have hjump : decode m.word = some ⟨.jump, m.word⟩ := by
    rw [h.word]
    rfl
  rw [step_of_decode h.wellFormed hjump rfl]
  exact ⟨rfl, rfl⟩

theorem AtLoop.step_state (h : AtLoop m) : AtLoop m.step.state := by
  obtain ⟨_, hstate⟩ := h.step
  have hthere : m.step.state.pc = programStart := by
    rw [hstate]
    show ((Opcode.nnn m.word : Nat) : Int) = _
    rw [h.word]
    rfl
  have hmemory : m.step.state.memory = m.memory := by
    rw [hstate]
    rfl
  refine ⟨wellFormed_step h.wellFormed, hthere, ?_⟩
  rw [Machine.word, hthere, byteAt, byteAt, hmemory, ← h.pc]
  exact h.word

/-- The strides of a program that jumps to itself are all at that jump. -/
theorem word_of_strides_of_loop (h : m.WellFormed) (hpc : m.pc = programStart)
    (hword : m.word = (0x1200 : Nat)) (n : Nat) :
    ∀ t ∈ strides n m, t.word = (0x1200 : Nat) := by
  intro t ht
  exact (strides_forall (fun _ hs _ _ => hs.step_state) (AtLoop.mk h hpc hword) n t ht).word

theorem AtLoop.batch (h : AtLoop m) (hh : m.halted = false) (hp : m.paused = false) (n : Nat) :
    (Machine.batch n m).failure = none ∧ AtLoop (Machine.batch n m).state ∧
      (Machine.batch n m).state.halted = false ∧ (Machine.batch n m).state.paused = false := by
  have hkept : ∀ s : Machine, AtLoop s ∧ s.halted = false ∧ s.paused = false →
      s.paused = false → s.step.failure = none →
      AtLoop s.step.state ∧ s.step.state.halted = false ∧ s.step.state.paused = false := by
    rintro s ⟨hs, hrun, _⟩ hgo _
    refine ⟨hs.step_state, ?_, ?_⟩
    · rw [hs.step.2]
      exact hrun
    · rw [hs.step.2]
      exact hgo
  rcases batch_cases hkept n m ⟨h, hh, hp⟩ with ⟨hnone, hend⟩ | ⟨s, e, hs, _, hfail, _⟩
  · exact ⟨hnone, hend⟩
  · exact nomatch hs.1.step.1.symm.trans hfail

/-! ## Cutting a batch in two -/

theorem batch_add (n k : Nat) (m : Machine) :
    batch (n + k) m = (batch n m).andThen (batch k) := by
  induction n generalizing m with
  | zero => rw [Nat.zero_add, batch, Outcome.done_andThen]
  | succ n ih =>
      cases hp : m.paused with
      | true =>
          rw [batch_of_paused hp, batch_of_paused hp, Outcome.done_andThen, batch_of_paused hp]
      | false =>
          have hsame : batch (n + k) = fun s => (batch n s).andThen (batch k) := funext ih
          rw [Nat.add_right_comm]
          simp only [batch, hp, Bool.false_eq_true, if_false, hsame, Outcome.andThen_assoc]

theorem batch_add_of_failure {n : Nat} {e : Failure} (he : (batch n m).failure = some e)
    (k : Nat) : batch (n + k) m = batch n m := by
  rw [batch_add]
  simp only [Outcome.andThen, he]

theorem batch_add_of_success {n : Nat} (he : (batch n m).failure = none) (k : Nat) :
    (batch (n + k) m).state = (batch k (batch n m).state).state := by
  rw [batch_add]
  simp only [Outcome.andThen, he]

theorem strides_add (n k : Nat) (m : Machine) :
    strides (n + k) m = strides n m ++
      if (batch n m).failure = none then strides k (batch n m).state else [] := by
  induction n generalizing m with
  | zero =>
      rw [Nat.zero_add]
      rfl
  | succ n ih =>
      rw [Nat.add_right_comm]
      cases hp : m.paused with
      | true =>
          rw [strides_of_paused hp, strides_of_paused hp, batch_of_paused hp]
          simp only [Outcome.done, if_true, strides_of_paused hp, List.append_nil]
      | false =>
          cases he : m.step.failure with
          | some e =>
              rw [strides_of_failure he, strides_of_failure he, batch_succ_of_failure hp he, he]
              rfl
          | none =>
              rw [strides_of_success hp he, strides_of_success hp he, batch_succ_of_success hp he,
                ih, List.cons_append]
              rfl

/-! ## Machines that may be halted -/

/-- The machine after up to a number of steps, none if it is halted. -/
def played (n : Nat) (m : Machine) : Machine := if m.halted then m else (batch n m).state

theorem played_of_halted (hh : m.halted = true) (n : Nat) : played n m = m := if_pos hh

theorem played_of_running (hh : m.halted = false) (n : Nat) :
    played n m = (batch n m).state := by
  rw [played, hh]
  rfl

/-- **WHERE A BATCH IS CUT DOES NOT MATTER**: a fault in the first part halts the machine, so
    the second part takes no step. -/
theorem played_add (h : m.WellFormed) (n k : Nat) :
    played (n + k) m = played k (played n m) := by
  cases hh : m.halted with
  | true => rw [played_of_halted hh, played_of_halted hh, played_of_halted hh]
  | false =>
      rw [played_of_running hh, played_of_running hh]
      cases he : (batch n m).failure with
      | some e => rw [batch_add_of_failure he, played_of_halted (halted_batch h he)]
      | none => rw [batch_add_of_success he, played_of_running (running_batch h hh he)]

end Chip8.Machine
