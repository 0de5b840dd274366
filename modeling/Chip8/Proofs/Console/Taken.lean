import Chip8.Proofs.Console.Halt
import Chip8.Proofs.Machine.Stride

/-! # The steps of a run

    **`taken`** lists the machines from which the frames of a run take the steps that complete;
    the word that such a machine reads is an instruction that is carried out.  **`carried`**
    adds the steps that are called for one at a time.

    What single steps do to a machine, as far as they are of some kind, the steps of a frame do
    (**`frameLoop_relates`**). -/

namespace Chip8.Console

open Machine

variable {c : Console}

/-- The calls that drive a program: frames, single steps and keys. -/
def Call.isDriven : Call → Bool
  | .cycle | .step | .keys _ => true
  | _                        => false

theorem Call.isDriven_cases {call : Call} (hcall : call.isDriven = true) :
    call = .cycle ∨ call = .step ∨ ∃ keys, call = .keys keys := by
  cases call with
  | cycle => exact Or.inl rfl
  | step => exact Or.inr (Or.inl rfl)
  | keys keys => exact Or.inr (Or.inr ⟨keys, rfl⟩)
  | _ => exact nomatch hcall

theorem Call.isDriven_of_isPlayed {call : Call} (hcall : call.isPlayed = true) :
    call.isDriven = true := by
  rcases isPlayed_cases hcall with rfl | ⟨keys, rfl⟩ <;> rfl

/-- The machines from which a call takes the steps that complete, if it is a frame. -/
def takenBy (c : Console) : Call → List Machine
  | .cycle =>
      if c.machine.halted then [] else Machine.strides c.machine.speed.toNat c.machine.begun
  | _      => []

/-- The machines from which the frames of a run take the steps that complete. -/
def taken (c : Console) : List Call → List Machine
  | []            => []
  | call :: calls => c.takenBy call ++ (c.perform call).state.taken calls

/-- The machines from which a call carries out instructions. -/
def carriedBy (c : Console) : Call → List Machine
  | .step => if c.machine.step.failure = none then [c.machine] else []
  | call  => c.takenBy call

/-- The machines from which the frames and the single steps of a run carry out instructions. -/
def carried (c : Console) : List Call → List Machine
  | []            => []
  | call :: calls => c.carriedBy call ++ (c.perform call).state.carried calls

theorem carried_of_played {calls : List Call} (hcalls : ∀ call ∈ calls, call.isPlayed = true) :
    c.carried calls = c.taken calls := by
  induction calls generalizing c with
  | nil => rfl
  | cons call rest ih =>
      obtain ⟨hplayed, hrest⟩ := List.forall_mem_cons.1 hcalls
      have hfirst : c.carriedBy call = c.takenBy call := by
        rcases Call.isPlayed_cases hplayed with rfl | ⟨keys, rfl⟩ <;> rfl
      rw [carried, taken, hfirst, ih hrest]

theorem frameLoop_relates {R : Machine → Machine → Prop} {Q : Machine → Prop}
    (hrefl : ∀ m, R m m) (htrans : ∀ {m m' m''}, R m m' → R m' m'' → R m m'')
    (hstep : ∀ m, m.WellFormed → (m.step.failure = none → Q m) → R m m.step.state)
    (h : c.machine.WellFormed) (hkind : ∀ t ∈ c.takenBy .cycle, Q t) :
    R c.machine.begun (frameLoop c.machine.begun).2.state := by
  cases hh : c.machine.halted with
  | true =>
      rw [frameLoop_of_halted (m := c.machine.begun) hh]
      exact hrefl _
  | false =>
      rw [takenBy, hh] at hkind
      rw [frameLoop_eq_batch (m := c.machine.begun) hh]
      exact batch_relates hrefl htrans hstep _ (wellFormed_begun h) hkind

/-! ## A program that jumps to itself -/

/-- The machine runs at a word that jumps to itself. -/
structure Looping (c : Console) : Prop where
  atLoop : AtLoop c.machine
  running : c.machine.halted = false
  paused : c.machine.paused = false

theorem looping_of_loaded {m : Machine} (h : m.WellFormed) (hc : c.machine.WellFormed)
    (hmemory : c.machine.memory = (m.loaded [0x12, 0x00]).memory)
    (hpc : c.machine.pc = programStart) (hh : c.machine.halted = false)
    (hp : c.machine.paused = false) : c.Looping :=
  ⟨⟨hc, hpc, word_in_loaded (i := 0) h (by decide) hmemory hpc (by decide)⟩, hh, hp⟩

theorem Looping.frame (h : c.Looping) :
    c.cycle.failure = none ∧ c.cycle.state.Looping ∧
      ∀ s ∈ c.takenBy .cycle, s.word = (0x1200 : Nat) := by
  have hbegun : AtLoop c.machine.begun :=
    ⟨wellFormed_begun h.atLoop.wellFormed, h.atLoop.pc, h.atLoop.word⟩
  obtain ⟨hnone, hloop, hrun, hgo⟩ :=
    hbegun.batch h.running h.paused c.machine.speed.toNat
  have hbatch : (frameLoop c.machine.begun).2 = batch c.machine.speed.toNat c.machine.begun :=
    frameLoop_eq_batch (m := c.machine.begun) h.running
  have hticks : settled c.machine.begun (batch c.machine.speed.toNat c.machine.begun)
      = (batch c.machine.speed.toNat c.machine.begun).state.tickTimers :=
    if_pos ⟨h.running, hnone, hgo⟩
  refine ⟨?_, ?_, ?_⟩
  · rw [failure_cycle, cycle_eq, hbatch]
    exact hnone
  · have hstate : c.cycle.state.machine
        = (batch c.machine.speed.toNat c.machine.begun).state.tickTimers.present := by
      show c.machine.cycle.state = _
      rw [cycle_eq, hbatch, hticks]
    have hwell : c.cycle.state.machine.WellFormed := wellFormed_cycle h.atLoop.wellFormed
    rw [hstate] at hwell
    constructor
    · rw [hstate]
      exact ⟨hwell, hloop.pc, hloop.word⟩
    · rw [hstate]
      exact hrun
    · rw [hstate]
      exact hgo
  · intro s hs
    rw [takenBy, h.running] at hs
    exact word_of_strides_of_loop hbegun.wellFormed hbegun.pc hbegun.word _ s hs

theorem Looping.keys (h : c.Looping) (keys : KeyCall) : (c.performKeys keys).state.Looping := by
  have hw := h.atLoop.wellFormed.waiting_eq_none h.paused
  have hfrozen := frozen_afterKeys hw (keys.plan c.machine.keypad).1
  have hwell := wellFormed_afterKeys h.atLoop.wellFormed (keys.plan c.machine.keypad).1
  rw [performKeys_state h.atLoop.wellFormed]
  refine ⟨⟨hwell, hfrozen.pc.trans h.atLoop.pc, ?_⟩, hfrozen.halted.trans h.running,
    hfrozen.paused.trans h.paused⟩
  rw [Machine.word, byteAt, byteAt, hfrozen.memory, hfrozen.pc]
  exact h.atLoop.word

theorem Looping.step (h : c.Looping) : c.step.state.Looping := by
  obtain ⟨_, hstate⟩ := h.atLoop.step
  refine ⟨h.atLoop.step_state, ?_, ?_⟩
  · show c.machine.step.state.halted = false
    rw [hstate]
    exact h.running
  · show c.machine.step.state.paused = false
    rw [hstate]
    exact h.paused

/-- A program that jumps to itself stays at its jump, and nothing else is ever carried out. -/
theorem Looping.word_of_carried (h : c.Looping) {calls : List Call}
    (hcalls : ∀ call ∈ calls, call.isDriven = true) :
    ∀ s ∈ c.carried calls, s.word = (0x1200 : Nat) := by
  induction calls generalizing c with
  | nil => exact fun s hs => nomatch hs
  | cons call rest ih =>
      obtain ⟨hdriven, hrest⟩ := List.forall_mem_cons.1 hcalls
      refine List.forall_mem_append.2 ?_
      rcases Call.isDriven_cases hdriven with rfl | rfl | ⟨keys, rfl⟩
      · obtain ⟨_, hnext, hwords⟩ := h.frame
        exact ⟨hwords, ih hnext hrest⟩
      · refine ⟨?_, ih h.step hrest⟩
        intro s hs
        rw [carriedBy, if_pos h.atLoop.step.1] at hs
        rw [List.mem_singleton.1 hs]
        exact h.atLoop.word
      · exact ⟨fun s hs => (nomatch hs), ih (h.keys keys) hrest⟩

theorem Looping.word_of_taken (h : c.Looping) {calls : List Call}
    (hcalls : ∀ call ∈ calls, call.isPlayed = true) :
    ∀ s ∈ c.taken calls, s.word = (0x1200 : Nat) := by
  rw [← carried_of_played hcalls]
  exact h.word_of_carried fun call hc => Call.isDriven_of_isPlayed (hcalls call hc)

end Chip8.Console
