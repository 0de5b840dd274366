import Chip8.Proofs.Console.Keys
import Chip8.Proofs.Machine.Cycle
import Chip8.Proofs.Machine.Load

/-! # Runs of a console

    A run is any list of calls (**`Call`**), each made whatever became of the one before:
    a call that fails leaves the console as it stood when it failed, and the run goes on
    from there.

    Every call keeps the machine well-formed (**`wellFormed_perform`**), and so does every
    run (**`wellFormed_run`**): whatever is called on a console that has just been switched
    on, the next step can fail with nothing but a fault. -/

namespace Chip8.Console

/-- A call on a console. -/
inductive Call where
  | cycle
  | step
  /-- An opcode carried out as if it had been fetched. -/
  | execute (op : Opcode)
  | tickTimers
  | settleAudio
  | load (program : List UInt8)
  | keys (call : KeyCall)
  deriving DecidableEq, Repr

def perform (c : Console) : Call → Result
  | .cycle        => c.cycle
  | .step         => c.step
  | .execute op   => c.onMachine (·.execute op)
  | .tickTimers   => .done { c with machine := c.machine.tickTimers }
  | .settleAudio  => c.settleAudio
  | .load program => c.onMachine (·.load program)
  | .keys call    => c.performKeys call

/-- The console after calls, each made whatever became of the one before. -/
def run (c : Console) : List Call → Console
  | []            => c
  | call :: calls => (c.perform call).state.run calls

/-- What the calls of a run report, in order. -/
def runReports (c : Console) : List Call → List Report
  | []            => []
  | call :: calls => (c.perform call).reports ++ (c.perform call).state.runReports calls

/-- What the calls of a run raise, call by call. -/
def failures (c : Console) : List Call → List (Option Failure)
  | []            => []
  | call :: calls => (c.perform call).failure :: (c.perform call).state.failures calls

variable {c : Console}

theorem run_preserves {P : Console → Prop} {K : Call → Prop}
    (hcall : ∀ c call, P c → K call → P (c.perform call).state) :
    ∀ (calls : List Call) (c : Console), (∀ call ∈ calls, K call) → P c → P (c.run calls) := by
  intro calls
  induction calls with
  | nil =>
      intro c _ hc
      exact hc
  | cons call rest ih =>
      intro c hk hc
      have hkind : K call := hk call List.mem_cons_self
      have hrest : ∀ call ∈ rest, K call := fun call hm => hk call (List.mem_cons_of_mem _ hm)
      exact ih (c.perform call).state hrest (hcall c call hc hkind)

theorem machine_run_load (c : Console) {program : List UInt8}
    (hfit : program.length ≤ programCapacity) :
    (c.run [.load program]).machine = c.machine.loaded program := by
  show (c.machine.load program).state = _
  rw [Machine.load_of_fits hfit]

/-! ## The invariant -/

/-- **EVERY CALL KEEPS THE MACHINE WELL-FORMED**, whether or not it fails. -/
theorem wellFormed_perform (h : c.machine.WellFormed) (call : Call) :
    (c.perform call).state.machine.WellFormed := by
  cases call with
  | cycle => exact Machine.wellFormed_cycle h
  | step => exact Machine.wellFormed_step h
  | execute op => exact Machine.wellFormed_execute h op
  | tickTimers => exact Machine.wellFormed_tickTimers h
  | settleAudio => exact h
  | load program => exact Machine.wellFormed_load h program
  | keys call =>
      show (c.performKeys call).state.machine.WellFormed
      rw [performKeys_state h]
      exact wellFormed_afterKeys h _

theorem wellFormed_run (h : c.machine.WellFormed) (calls : List Call) :
    (c.run calls).machine.WellFormed :=
  run_preserves (P := fun c => c.machine.WellFormed) (K := fun _ => True)
    (fun _ call hc _ => wellFormed_perform hc call) calls c (fun _ _ => trivial) h

/-- **THE MACHINE INVARIANT**, over runs of any length and of any calls, those that fail
    among them: the machine is well-formed, memory and registers can be read throughout and
    hold bytes, and the next step can fail only with one of the three faults. -/
theorem run_wellFormed (speed toneHz : Int) (random : RandomStream) (calls : List Call) :
    let c := (fresh speed toneHz random).run calls
    c.machine.WellFormed ∧
    (∀ a : Int, 0 ≤ a → a < memorySize → ∃ v < 256, c.machine.memory.read a = .ok v) ∧
    (∀ r : Int, 0 ≤ r → r < registerCount → ∃ v < 256, c.machine.registers.read r = .ok v) ∧
    ∀ e, c.step.failure = some e → ∃ f : Fault, e = .fault f ∧
      (f.reason = .unknownOpcode ∨ f.reason = .stackOverflow ∨ f.reason = .stackUnderflow) := by
  intro c
  have h : c.machine.WellFormed := wellFormed_run (c := fresh speed toneHz random)
    (Machine.wellFormed_fresh speed toneHz random) calls
  refine ⟨h, ?_, ?_, ?_⟩
  · intro a h₀ hlt
    rw [← h.memory_size] at hlt
    exact ⟨_, Bank.get_lt _ _, Bank.read_of_lt h₀ hlt⟩
  · intro r h₀ hlt
    rw [← h.registers_size] at hlt
    exact ⟨_, Bank.get_lt _ _, Bank.read_of_lt h₀ hlt⟩
  -- the checked accesses succeed, so only a fault is left
  · intro e he
    obtain ⟨reason, hfault, _, hreason⟩ := Machine.step_failure h he
    exact ⟨_, hfault, hreason⟩

end Chip8.Console
