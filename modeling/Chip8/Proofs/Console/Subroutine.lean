import Chip8.Proofs.Console.Run
import Chip8.Proofs.Machine.Reach

/-! # Subroutines

    A call pushes the address of the word behind it, a return goes to the address on top of
    the stack and pops it, and nothing else touches the stack: no other instruction, and no
    key.  So the stack of the caller, with the return address on top of it, lies unchanged
    below whatever a subroutine does, until the stack is as high as it was before the call
    (**`kept_below`**), and the step that makes it so returns to the caller
    (**`subroutine_returns`**). -/

namespace Chip8.Console

open Machine

variable {c c' : Console}

/-! ## Steps with keys behind them -/

/-- A step that completes, and then any calls that concern keys. -/
def StepsTo (c c' : Console) : Prop :=
  c.step.failure = none ∧ ∃ keys : List KeyCall, c' = c.step.state.run (keys.map .keys)

/-- Calls that concern keys change nothing but the keypad, the registers and the wait. -/
theorem run_keys_eq (h : c.machine.WellFormed) (keys : List KeyCall) :
    (c.run (keys.map .keys)).machine = { c.machine with
      registers := (c.run (keys.map .keys)).machine.registers
      paused := (c.run (keys.map .keys)).machine.paused
      waiting := (c.run (keys.map .keys)).machine.waiting
      keypad := (c.run (keys.map .keys)).machine.keypad } := by
  induction keys generalizing c with
  | nil => rfl
  | cons call rest ih =>
      have hcall : (c.perform (.keys call)).state
          = c.afterKeys (call.plan c.machine.keypad).1 := performKeys_state h call
      rw [List.map_cons, run, hcall]
      refine (ih (wellFormed_afterKeys h _)).trans ?_
      rw [afterKeys_eq c]

/-- Keys do not touch the program counter and the stack. -/
theorem stack_stepsTo (h : c.machine.WellFormed) (hstep : c.StepsTo c') :
    c'.machine.WellFormed ∧ c'.machine.pc = c.machine.step.state.pc ∧
      c'.machine.stack = c.machine.step.state.stack := by
  obtain ⟨_, keys, rfl⟩ := hstep
  have hstate : c.step.state.machine.WellFormed := wellFormed_step h
  refine ⟨wellFormed_run hstate _, ?_, ?_⟩
  · rw [run_keys_eq hstate]
    rfl
  · rw [run_keys_eq hstate]
    rfl

/-- **ONE STEP AND THE STACK.** -/
theorem stack_cases (h : c.machine.WellFormed) (hstep : c.StepsTo c') :
    (c.machine.word.fits (.top 0x2) ∧
      c'.machine.stack = addressOf (c.machine.pc + 2) :: c.machine.stack) ∨
    (c.machine.word.fits (.whole 0x00EE) ∧
      c.machine.stack = c'.machine.pc :: c'.machine.stack) ∨
    (¬ c.machine.word.fits (.top 0x2) ∧ ¬ c.machine.word.fits (.whole 0x00EE) ∧
      c'.machine.stack = c.machine.stack) := by
  obtain ⟨_, hpc, hstack⟩ := stack_stepsTo h hstep
  have hok : c.machine.step.failure = none := hstep.1
  rw [hpc, hstack]
  exact stack_step h hok

/-! ## Runs -/

/-- A run of steps that complete, from a well-formed machine, with keys anywhere in between. -/
structure StepRun (n : Nat) (s : Nat → Console) : Prop where
  wellFormed : (s 0).machine.WellFormed
  steps : ∀ k < n, (s k).StepsTo (s (k + 1))

/-- The number of calls among the first steps of a run. -/
def calls (s : Nat → Console) (k : Nat) : Nat :=
  (List.range k).countP fun j => (s j).machine.word.fits (.top 0x2)

/-- The number of returns among the first steps of a run. -/
def returns (s : Nat → Console) (k : Nat) : Nat :=
  (List.range k).countP fun j => (s j).machine.word.fits (.whole 0x00EE)

variable {n : Nat} {s : Nat → Console}

theorem calls_succ (s : Nat → Console) (k : Nat) :
    calls s (k + 1) = calls s k + if (s k).machine.word.fits (.top 0x2) then 1 else 0 := by
  simp only [calls, List.range_succ, List.countP_append, List.countP_singleton, decide_eq_true_eq]

theorem returns_succ (s : Nat → Console) (k : Nat) :
    returns s (k + 1) = returns s k + if (s k).machine.word.fits (.whole 0x00EE) then 1 else 0 := by
  simp only [returns, List.range_succ, List.countP_append, List.countP_singleton,
    decide_eq_true_eq]

theorem StepRun.wellFormed_at (h : StepRun n s) :
    ∀ k ≤ n, (s k).machine.WellFormed := by
  intro k
  induction k with
  | zero => exact fun _ => h.wellFormed
  | succ k ih =>
      intro hk
      exact (stack_stepsTo (ih (Nat.le_of_succ_le hk)) (h.steps k hk)).1

theorem StepRun.cases_at (h : StepRun n s) {k : Nat} (hk : k < n) :
    ((s k).machine.word.fits (.top 0x2) ∧
      (s (k + 1)).machine.stack = addressOf ((s k).machine.pc + 2) :: (s k).machine.stack) ∨
    ((s k).machine.word.fits (.whole 0x00EE) ∧
      (s k).machine.stack = (s (k + 1)).machine.pc :: (s (k + 1)).machine.stack) ∨
    (¬ (s k).machine.word.fits (.top 0x2) ∧ ¬ (s k).machine.word.fits (.whole 0x00EE) ∧
      (s (k + 1)).machine.stack = (s k).machine.stack) :=
  stack_cases (h.wellFormed_at k (Nat.le_of_lt hk)) (h.steps k hk)

/-- **THE HEIGHT OF THE STACK** counts the calls that have not returned. -/
theorem StepRun.height (h : StepRun n s) :
    ∀ k ≤ n, (s k).machine.stack.length + returns s k
      = (s 0).machine.stack.length + calls s k := by
  intro k
  induction k with
  | zero => exact fun _ => rfl
  | succ k ih =>
      intro hk
      have hbefore := ih (Nat.le_of_succ_le hk)
      rw [calls_succ, returns_succ]
      rcases h.cases_at hk with ⟨hcall, hpush⟩ | ⟨hret, hpop⟩ | ⟨hcall, hret, hsame⟩
      · have hret : ¬ (s k).machine.word.fits (.whole 0x00EE) :=
          Opcode.not_fits_of_apart (by decide) hcall
        rw [if_pos hcall, if_neg hret, hpush, List.length_cons]
        omega
      · have hcall : ¬ (s k).machine.word.fits (.top 0x2) :=
          Opcode.not_fits_of_apart (by decide) hret
        rw [hpop, List.length_cons] at hbefore
        rw [if_neg hcall, if_pos hret]
        omega
      · rw [if_neg hcall, if_neg hret, hsame]
        exact hbefore

/-- A list that is too long for the rest of another, and at its end, is all of it. -/
theorem eq_of_suffix_cons {α : Type} {l rest : List α} {a : α} (hsuffix : l <:+ a :: rest)
    (hlen : rest.length < l.length) : l = a :: rest := by
  rcases List.suffix_cons_iff.1 hsuffix with heq | hrest
  · exact heq
  · exact absurd hrest.length_le (Nat.not_le.2 hlen)

/-- **WHAT LIES BELOW A SUBROUTINE STAYS THERE**: the return address and the stack of the
    caller, as long as the stack is higher than before the call. -/
theorem StepRun.kept_below (h : StepRun n s) (hcall : (s 0).machine.word.fits (.top 0x2))
    (habove : ∀ k, 1 ≤ k → k < n → (s 0).machine.stack.length < (s k).machine.stack.length) :
    ∀ k, k + 1 < n →
      addressOf ((s 0).machine.pc + 2) :: (s 0).machine.stack <:+ (s (k + 1)).machine.stack := by
  intro k
  induction k with
  | zero =>
      intro hk
      rcases h.cases_at (Nat.lt_of_succ_lt hk) with ⟨_, hpush⟩ | ⟨hret, _⟩ | ⟨hnot, _, _⟩
      · exact hpush ▸ List.suffix_refl _
      · exact absurd hret (Opcode.not_fits_of_apart (by decide) hcall)
      · exact absurd hcall hnot
  | succ k ih =>
      intro hk
      have hbelow := ih (Nat.lt_of_succ_lt hk)
      rcases h.cases_at (Nat.lt_of_succ_lt hk) with ⟨_, hpush⟩ | ⟨_, hpop⟩ | ⟨_, _, hsame⟩
      · rw [hpush]
        exact hbelow.trans (List.suffix_cons _ _)
      · rw [hpop] at hbelow
        rcases List.suffix_cons_iff.1 hbelow with heq | hrest
        · -- popping the return address would leave the stack as low as before the call
          have hlow := congrArg List.length heq
          have hhigh := habove (k + 1 + 1) (by omega) hk
          simp only [List.length_cons] at hlow
          omega
        · exact hrest
      · rw [hsame]
        exact hbelow

/-- **SUBROUTINES RETURN TO THEIR CALLERS.**  Over every run of steps that complete, with keys
    anywhere in between:

    * if the first step is a call, and the stack is higher than before it until the last step
      has been taken, and then as high as before it, then the last step is a return, to the
      word behind the call, and leaves the stack of the caller as it was;
    * at any time the height of the stack is what it was at first, plus the calls and minus
      the returns since, and the stack is never higher than it may be. -/
theorem subroutine_returns (h : StepRun n s) :
    (2 ≤ n → (s 0).machine.word.fits (.top 0x2) →
      (∀ k, 1 ≤ k → k < n → (s 0).machine.stack.length < (s k).machine.stack.length) →
      (s n).machine.stack.length = (s 0).machine.stack.length →
      (s (n - 1)).machine.word.fits (.whole 0x00EE) ∧
      (s n).machine.pc = addressOf ((s 0).machine.pc + 2) ∧
      (s n).machine.stack = (s 0).machine.stack) ∧
    ∀ k ≤ n, (s k).machine.stack.length + returns s k = (s 0).machine.stack.length + calls s k ∧
      (s k).machine.stack.length ≤ stackDepth := by
  refine ⟨?_, fun k hk => ⟨h.height k hk, (h.wellFormed_at k hk).stack_length⟩⟩
  intro hn hcall habove hlevel
  obtain ⟨k, rfl⟩ : ∃ k, n = k + 2 := ⟨n - 2, by omega⟩
  have hhigh := habove (k + 1) (by omega) (by omega)
  have hbelow := h.kept_below hcall habove k (by omega)
  -- only a return lowers the stack
  have hlast : k + 1 < k + 2 := Nat.lt_succ_self _
  change (s (k + 1 + 1)).machine.stack.length = _ at hlevel
  rcases h.cases_at hlast with ⟨_, hpush⟩ | ⟨hret, hpop⟩ | ⟨_, _, hsame⟩
  · have hlen := congrArg List.length hpush
    rw [List.length_cons] at hlen
    omega
  · rw [hpop] at hbelow
    have hlen : (s (k + 1 + 1)).machine.stack.length
        < (addressOf ((s 0).machine.pc + 2) :: (s 0).machine.stack).length := by
      rw [List.length_cons]
      omega
    obtain ⟨hpc, hstack⟩ := List.cons.inj (eq_of_suffix_cons hbelow hlen)
    exact ⟨hret, hpc.symm, hstack.symm⟩
  · have hlen := congrArg List.length hsame
    omega

/-- The consoles after any number of steps, without keys. -/
def stepped (c : Console) : Nat → Console
  | 0     => c
  | k + 1 => (c.stepped k).step.state

/-- The two steps of a program that calls a subroutine which returns at once. -/
theorem stepRun_call_return
    (hloaded : c.machine = (Machine.fresh 10 440 (.cycling [])).loaded
      [0x22, 0x04, 0x00, 0x00, 0x00, 0xEE]) :
    StepRun 2 c.stepped ∧ (c.stepped 0).machine.word.fits (.top 0x2) ∧
      (∀ k, 1 ≤ k → k < 2 →
        (c.stepped 0).machine.stack.length < (c.stepped k).machine.stack.length) ∧
      (c.stepped 2).machine.stack.length = (c.stepped 0).machine.stack.length := by
  have hfresh := Machine.wellFormed_fresh 10 440 (.cycling [])
  have hfit : [(0x22 : UInt8), 0x04, 0x00, 0x00, 0x00, 0xEE].length ≤ programCapacity := by
    decide
  have hc : c.machine.WellFormed := hloaded ▸ wellFormed_loaded hfresh hfit
  have hpc : c.machine.pc = programStart := hloaded ▸ rfl
  have hstack : c.machine.stack = [] := hloaded ▸ rfl
  have hword : c.machine.word = (0x2204 : Nat) := hloaded ▸ word_loaded hfresh rfl hfit
  -- the call
  have hcall : c.machine.step = ⟨c.machine.completed ⟨.call, (0x2204 : Nat)⟩,
      [.trace c.machine.pc ⟨.call, (0x2204 : Nat)⟩], none⟩ := by
    refine step_of_decode hc (by rw [hword]; rfl) ?_
    simp only [Instruction.stackFault?, hstack]
    rfl
  have hd : c.machine.step.state.WellFormed := wellFormed_step hc
  have hpushed : c.machine.step.state.stack = [0x202] := by
    rw [hcall]
    show addressOf (c.machine.pc + 2) :: c.machine.stack = _
    rw [hstack, hpc]
    rfl
  -- the return
  have hdword : c.machine.step.state.word = (0x00EE : Nat) := by
    rw [hcall]
    exact word_in_loaded (i := 4) hfresh hfit (hloaded ▸ rfl) rfl (by decide)
  have hreturn : c.machine.step.state.step
      = ⟨c.machine.step.state.completed ⟨.ret, (0x00EE : Nat)⟩,
        [.trace c.machine.step.state.pc ⟨.ret, (0x00EE : Nat)⟩], none⟩ := by
    refine step_of_decode hd (by rw [hdword]; rfl) ?_
    simp only [Instruction.stackFault?, hpushed]
    rfl
  have hpopped : c.machine.step.state.step.state.stack = [] := by
    rw [hreturn]
    show c.machine.step.state.stack.tail = _
    rw [hpushed]
    rfl
  refine ⟨⟨hc, ?_⟩, hword ▸ by decide, ?_, ?_⟩
  · intro k hk
    obtain rfl | rfl : k = 0 ∨ k = 1 := by omega
    · exact ⟨congrArg Outcome.failure hcall, [], rfl⟩
    · exact ⟨congrArg Outcome.failure hreturn, [], rfl⟩
  · intro k hk hlt
    obtain rfl : k = 1 := by omega
    show c.machine.stack.length < c.machine.step.state.stack.length
    rw [hstack, hpushed]
    decide
  · show c.machine.step.state.step.state.stack.length = c.machine.stack.length
    rw [hpopped, hstack]

/-- A subroutine that returns at once goes back to the word behind the call. -/
theorem call_and_return :
    let s := ((fresh 10 440 (.cycling [])).run
      [.load [0x22, 0x04, 0x00, 0x00, 0x00, 0xEE]]).stepped
    StepRun 2 s ∧ (s 0).machine.word.fits (.top 0x2) ∧
      (s 1).machine.word.fits (.whole 0x00EE) ∧
      (s 2).machine.pc = addressOf ((s 0).machine.pc + 2) ∧
      (s 2).machine.stack = (s 0).machine.stack := by
  intro s
  obtain ⟨hrun, hcall, habove, hlevel⟩ :=
    stepRun_call_return (machine_run_load (fresh 10 440 (.cycling [])) (by decide))
  exact ⟨hrun, hcall, (subroutine_returns hrun).1 (Nat.le_refl 2) hcall habove hlevel⟩

end Chip8.Console
