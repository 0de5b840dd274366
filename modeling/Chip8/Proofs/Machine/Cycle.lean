import Chip8.Proofs.Machine.Load
import Chip8.Proofs.Machine.Step

/-! # Frames and steps

    A frame is a loop over single steps, followed by what is done on every frame.
    **`stepLoop`** is that loop, counting upwards: as long as fewer steps are done than the
    speed says and the machine does not wait, it takes another, and it stops at the first
    that fails.

    * **`batch_eq_stepLoop`** says that the loop is the batch of a frame.
    * **`stepLoop_spec`** is what the loop guarantees about the number of steps.
    * **`cycle_eq`** is the whole frame: the loop, the timers, one command, one picture. -/

namespace Chip8.Machine

open Instruction

variable {m : Machine}

/-! ## Batches -/

theorem batch_succ_of_failure {n : Nat} {e : Failure} (hp : m.paused = false)
    (he : m.step.failure = some e) : batch (n + 1) m = m.step := by
  simp only [batch, hp, Outcome.andThen, he, Bool.false_eq_true, if_false]

theorem batch_succ_of_success {n : Nat} (hp : m.paused = false) (he : m.step.failure = none) :
    batch (n + 1) m = (batch n m.step.state).after m.step.reports := by
  simp only [batch, hp, Outcome.andThen, he, Bool.false_eq_true, if_false, Outcome.after]

theorem batch_of_paused (hp : m.paused = true) (n : Nat) : batch n m = .done m := by
  cases n with
  | zero => rfl
  | succ n => rw [batch, if_pos hp]

/-- **HOW A BATCH ENDS**: with what every step that succeeds keeps, or in a step that fails
    from a machine of which it holds. -/
theorem batch_cases {P : Machine → Prop}
    (hstep : ∀ m, P m → m.paused = false → m.step.failure = none → P m.step.state) :
    ∀ (n : Nat) (m : Machine), P m →
      ((batch n m).failure = none ∧ P (batch n m).state) ∨
      ∃ s e, P s ∧ s.paused = false ∧ s.step.failure = some e ∧
        (batch n m).failure = some e ∧ (batch n m).state = s.step.state := by
  intro n
  induction n with
  | zero =>
      intro m hm
      exact Or.inl ⟨rfl, hm⟩
  | succ n ih =>
      intro m hm
      cases hp : m.paused with
      | true =>
          rw [batch_of_paused hp]
          exact Or.inl ⟨rfl, hm⟩
      | false =>
          cases he : m.step.failure with
          | some e =>
              rw [batch_succ_of_failure hp he]
              exact Or.inr ⟨m, e, hm, hp, he, he, rfl⟩
          | none =>
              rw [batch_succ_of_success hp he]
              exact ih m.step.state (hstep m hm hp he)

theorem wellFormed_batch (h : m.WellFormed) (n : Nat) : (batch n m).state.WellFormed := by
  rcases batch_cases (fun _ hs _ _ => wellFormed_step hs) n m h with
    ⟨_, hend⟩ | ⟨s, e, hs, _, _, _, hend⟩
  · exact hend
  · rw [hend]
    exact wellFormed_step hs

theorem halted_batch (h : m.WellFormed) {n : Nat} {e : Failure}
    (he : (batch n m).failure = some e) : (batch n m).state.halted = true := by
  rcases batch_cases (fun _ hs _ _ => wellFormed_step hs) n m h with
    ⟨hnone, _⟩ | ⟨s, e', hs, _, hstep, _, hend⟩
  · exact nomatch hnone.symm.trans he
  · obtain ⟨reason, _, hstop, _⟩ := step_failure hs hstep
    rw [hend, hstop]
    rfl

theorem running_batch (h : m.WellFormed) (hh : m.halted = false) {n : Nat}
    (he : (batch n m).failure = none) : (batch n m).state.halted = false := by
  have hstep : ∀ s : Machine, s.WellFormed ∧ s.halted = false → s.paused = false →
      s.step.failure = none → s.step.state.WellFormed ∧ s.step.state.halted = false := by
    intro s hs _ hnone
    obtain ⟨i, _, _, he⟩ := step_success hs.1 hnone
    refine ⟨wellFormed_step hs.1, ?_⟩
    rw [he]
    exact (halted_completed s i).trans hs.2
  rcases batch_cases hstep n m ⟨h, hh⟩ with ⟨_, hend⟩ | ⟨s, e, _, _, _, hsome, _⟩
  · exact hend.2
  · exact nomatch he.symm.trans hsome

/-! ## The loop -/

/-- Take steps while fewer than `speed` are done and the machine does not wait, up to the
    first that fails: the number of steps that succeeded, and the outcome. -/
def stepLoop (speed : Int) (done : Nat) (m : Machine) :
    Nat × Outcome Failure Log.Entry Machine :=
  if done < speed ∧ m.paused = false then
    match m.step.failure with
    | some _ => (done, m.step)
    | none   =>
        let rest := stepLoop speed (done + 1) m.step.state
        (rest.1, rest.2.after m.step.reports)
  else (done, .done m)
termination_by (speed - done).toNat

variable {speed : Int} {done : Nat}

theorem stepLoop_of_end (hend : ¬ (done < speed ∧ m.paused = false)) :
    stepLoop speed done m = (done, .done m) := by
  rw [stepLoop, if_neg hend]

theorem stepLoop_of_failure {e : Failure} (hgo : done < speed ∧ m.paused = false)
    (he : m.step.failure = some e) : stepLoop speed done m = (done, m.step) := by
  rw [stepLoop, if_pos hgo, he]

theorem stepLoop_of_success (hgo : done < speed ∧ m.paused = false)
    (he : m.step.failure = none) :
    stepLoop speed done m = ((stepLoop speed (done + 1) m.step.state).1,
      (stepLoop speed (done + 1) m.step.state).2.after m.step.reports) := by
  rw [stepLoop, if_pos hgo, he]

/-- **THE LOOP IS THE BATCH.** -/
theorem batch_eq_stepLoop (speed : Int) :
    ∀ (n : Nat) (done : Nat) (m : Machine), (speed - done).toNat = n →
      batch n m = (stepLoop speed done m).2 := by
  intro n
  -- the batch counts down what the loop has left to count up
  induction n with
  | zero =>
      intro done m hn
      rw [stepLoop_of_end (by omega)]
      rfl
  | succ n ih =>
      intro done m hn
      have hroom : (done : Int) < speed := by omega
      cases hp : m.paused with
      | true =>
          rw [batch_of_paused hp, stepLoop_of_end (by rw [hp]; exact fun h => nomatch h.2)]
      | false =>
          cases he : m.step.failure with
          | some e => rw [batch_succ_of_failure hp he, stepLoop_of_failure ⟨hroom, hp⟩ he]
          | none =>
              rw [batch_succ_of_success hp he, stepLoop_of_success ⟨hroom, hp⟩ he,
                ih (done + 1) m.step.state (by omega)]

/-- What the loop guarantees when it begins with `done` steps behind it. -/
structure LoopSpec (speed : Int) (done : Nat) (m : Machine)
    (r : Nat × Outcome Failure Log.Entry Machine) : Prop where
  done_le : done ≤ r.1
  count_le : (r.1 : Int) ≤ max speed done
  executed : r.2.state.executed + done = m.executed + r.1
  early : (r.1 : Int) < speed → r.2.state.paused = true ∨ r.2.failure.isSome = true

theorem stepLoop_spec (speed : Int) :
    ∀ (n : Nat) (done : Nat) (m : Machine), m.WellFormed → (speed - done).toNat = n →
      LoopSpec speed done m (stepLoop speed done m) := by
  intro n
  induction n with
  | zero =>
      intro done m _ hn
      rw [stepLoop_of_end (by omega)]
      exact ⟨Nat.le_refl _, by omega, rfl, fun hlt => by omega⟩
  | succ n ih =>
      intro done m h hn
      have hroom : (done : Int) < speed := by omega
      cases hp : m.paused with
      | true =>
          rw [stepLoop_of_end (by rw [hp]; exact fun h => nomatch h.2)]
          exact ⟨Nat.le_refl _, by omega, rfl, fun _ => Or.inl hp⟩
      | false =>
          cases he : m.step.failure with
          | some e =>
              obtain ⟨reason, _, hstate, _⟩ := step_failure h he
              rw [stepLoop_of_failure ⟨hroom, hp⟩ he]
              refine ⟨Nat.le_refl _, by omega, ?_, fun _ => Or.inr (by rw [he]; rfl)⟩
              rw [hstate]
              rfl
          | none =>
              -- the step adds one to the count and leaves the rest to the loop
              obtain ⟨i, _, _, hstep⟩ := step_success h he
              have hcount : m.step.state.executed = m.executed + 1 := by rw [hstep]; rfl
              have hrest := ih (done + 1) m.step.state (wellFormed_step h) (by omega)
              have hle := hrest.done_le
              have hmax := hrest.count_le
              have hexec := hrest.executed
              rw [stepLoop_of_success ⟨hroom, hp⟩ he]
              exact ⟨by omega, by omega, by show _ = _; simp only [Outcome.after]; omega,
                hrest.early⟩

/-! ## The frame -/

def Report.command? : Report → Option Command
  | .entry _   => none
  | .command c => some c

def begun (m : Machine) : Machine := { m with cycles := m.cycles + 1 }

/-- The steps of a frame: none on a halted machine. -/
def frameLoop (m : Machine) : Nat × Outcome Failure Log.Entry Machine :=
  if m.halted then (0, .done m) else stepLoop m.speed 0 m

/-- Whether the timers tick at the end of a frame that began at `m`, after the steps `b`:
    not on a halted machine, not after a fault and not while the machine waits. -/
def Ticks (m : Machine) (b : Outcome Failure Log.Entry Machine) : Prop :=
  m.halted = false ∧ b.failure = none ∧ b.state.paused = false

instance (m : Machine) (b : Outcome Failure Log.Entry Machine) : Decidable (Ticks m b) :=
  inferInstanceAs (Decidable (_ ∧ _ ∧ _))

/-- The machine after the steps of a frame and its timers. -/
def settled (m : Machine) (b : Outcome Failure Log.Entry Machine) : Machine :=
  if Ticks m b then b.state.tickTimers else b.state

theorem settled_of_halted (hh : m.halted = true) (b : Outcome Failure Log.Entry Machine) :
    settled m b = b.state :=
  if_neg fun ht => Bool.false_ne_true (ht.1.symm.trans hh)

theorem settled_of_failure {b : Outcome Failure Log.Entry Machine} {e : Failure}
    (he : b.failure = some e) : settled m b = b.state :=
  if_neg fun ht => nomatch ht.2.1.symm.trans he

theorem settled_of_paused {b : Outcome Failure Log.Entry Machine} (hp : b.state.paused = true) :
    settled m b = b.state :=
  if_neg fun ht => Bool.false_ne_true (ht.2.2.symm.trans hp)

theorem work_eq (m : Machine) :
    m.work = ⟨settled m (frameLoop m).2, (frameLoop m).2.reports, (frameLoop m).2.failure⟩ := by
  cases hh : m.halted with
  | true =>
      rw [settled_of_halted hh]
      simp only [work, frameLoop, hh, if_true, Outcome.done]
  | false =>
      have hloop : frameLoop m = stepLoop m.speed 0 m := by
        simp only [frameLoop, hh, Bool.false_eq_true, if_false]
      have hbatch : batch m.speed.toNat m = (stepLoop m.speed 0 m).2 :=
        batch_eq_stepLoop m.speed m.speed.toNat 0 m (by omega)
      simp only [work, hh, Bool.false_eq_true, if_false, hloop, hbatch]
      generalize (stepLoop m.speed 0 m).2 = b
      cases he : b.failure with
      | some e =>
          rw [settled_of_failure he]
          simp only [Outcome.andThen, he]
          rw [← he]
      | none =>
          cases hp : b.state.paused with
          | true =>
              rw [settled_of_paused hp]
              simp only [Outcome.andThen, he, Outcome.done, hp, if_true, List.append_nil]
          | false =>
              have hticks : settled m b = b.state.tickTimers := if_pos ⟨hh, he, hp⟩
              rw [hticks]
              simp only [Outcome.andThen, he, Outcome.done, hp, Bool.false_eq_true, if_false,
                List.append_nil]

/-- A frame is its steps, its timers, one command and one picture. -/
theorem cycle_eq (m : Machine) :
    m.cycle = ⟨(settled m.begun (frameLoop m.begun).2).present,
      (frameLoop m.begun).2.reports.map .entry
        ++ [.command (settled m.begun (frameLoop m.begun).2).audio],
      (frameLoop m.begun).2.failure⟩ := by
  have hmap (entries : List Log.Entry) :
      entries.flatMap (fun e => [Report.entry e]) = entries.map .entry :=
    List.map_eq_flatMap.symm
  rw [cycle, show ({ m with cycles := m.cycles + 1 } : Machine) = m.begun from rfl, work_eq]
  simp only [Outcome.mapReports, Outcome.lastly, Option.or_none, hmap]

/-! ## What a frame keeps and what it guarantees -/

theorem wellFormed_begun (h : m.WellFormed) : m.begun.WellFormed := { h with }

theorem frameLoop_of_halted (hh : m.halted = true) : frameLoop m = (0, .done m) := by
  rw [frameLoop, if_pos hh]

theorem frameLoop_of_running (hh : m.halted = false) :
    frameLoop m = stepLoop m.speed 0 m := by
  rw [frameLoop, hh]
  rfl

theorem frameLoop_eq_batch (hh : m.halted = false) :
    (frameLoop m).2 = batch m.speed.toNat m := by
  rw [frameLoop_of_running hh]
  exact (batch_eq_stepLoop m.speed m.speed.toNat 0 m (by omega)).symm

theorem frameLoop_cases {P : Machine → Prop} (hh : m.halted = false)
    (hstep : ∀ m, P m → m.paused = false → m.step.failure = none → P m.step.state) (hm : P m) :
    ((frameLoop m).2.failure = none ∧ P (frameLoop m).2.state) ∨
    ∃ s e, P s ∧ s.paused = false ∧ s.step.failure = some e ∧
      (frameLoop m).2.failure = some e ∧ (frameLoop m).2.state = s.step.state := by
  rw [frameLoop_eq_batch hh]
  exact batch_cases hstep _ m hm

theorem frameLoop_preserves {P : Machine → Prop} (hstep : ∀ m, P m → P m.step.state) (hm : P m) :
    P (frameLoop m).2.state := by
  cases hh : m.halted with
  | true =>
      rw [frameLoop_of_halted hh]
      exact hm
  | false =>
      rcases frameLoop_cases hh (fun s hs _ _ => hstep s hs) hm with
        ⟨_, hend⟩ | ⟨s, e, hs, _, _, _, hend⟩
      · exact hend
      · rw [hend]
        exact hstep s hs

theorem wellFormed_frameLoop (h : m.WellFormed) : (frameLoop m).2.state.WellFormed :=
  frameLoop_preserves (fun _ h => wellFormed_step h) h

theorem host_frameLoop (h : m.WellFormed) : SameHost m (frameLoop m).2.state := by
  have hboth : (frameLoop m).2.state.WellFormed ∧ SameHost m (frameLoop m).2.state :=
    frameLoop_preserves (P := fun s => s.WellFormed ∧ SameHost m s)
      (fun s hs => ⟨wellFormed_step hs.1, hs.2.trans (host_step hs.1)⟩) ⟨h, .refl m⟩
  exact hboth.2

/-- The steps of a frame fail with faults only, and a fault halts a machine that was running
    and waited for nothing. -/
theorem frameLoop_failure (h : m.WellFormed) {e : Failure}
    (hfail : (frameLoop m).2.failure = some e) :
    ∃ f, e = .fault f ∧ (frameLoop m).2.state.halted = true ∧
      (frameLoop m).2.state.paused = false := by
  cases hh : m.halted with
  | true =>
      rw [frameLoop_of_halted hh] at hfail
      exact nomatch hfail
  | false =>
      rcases frameLoop_cases hh (fun s hs _ _ => wellFormed_step hs) h with
        ⟨hnone, _⟩ | ⟨s, e', hs, hp, hstep, hsome, hstate⟩
      · exact nomatch hnone.symm.trans hfail
      · obtain rfl : e' = e := Option.some.inj (hsome.symm.trans hfail)
        obtain ⟨reason, he, hstop, _⟩ := step_failure hs hstep
        rw [hstate, hstop]
        exact ⟨_, he, rfl, hp⟩

theorem cycle_failure_of_step {e : Failure} (hh : m.halted = false) (hp : m.paused = false)
    (hspeed : 0 < m.speed) (he : m.begun.step.failure = some e) : m.cycle.failure = some e := by
  have hgo : (0 : Nat) < m.begun.speed ∧ m.begun.paused = false := ⟨hspeed, hp⟩
  have hrun : m.begun.halted = false := hh
  rw [cycle_eq, frameLoop_of_running hrun, stepLoop_of_failure hgo he]
  exact he

theorem frameLoop_running (h : m.WellFormed) (hh : m.halted = false)
    (hok : (frameLoop m).2.failure = none) : (frameLoop m).2.state.halted = false := by
  rw [frameLoop_eq_batch hh] at hok ⊢
  exact running_batch h hh hok

theorem frameLoop_spec (h : m.WellFormed) :
    (frameLoop m).2.state.executed = m.executed + (frameLoop m).1 ∧
    ((frameLoop m).1 : Int) ≤ max m.speed 0 ∧
    (m.halted = false → ((frameLoop m).1 : Int) < max m.speed 0 →
      (frameLoop m).2.state.paused = true ∨ (frameLoop m).2.failure.isSome = true) := by
  cases hh : m.halted with
  | true =>
      rw [frameLoop_of_halted hh]
      exact ⟨rfl, Int.le_max_right _ _, fun hrun => nomatch hrun⟩
  | false =>
      have hspec := stepLoop_spec m.speed m.speed.toNat 0 m h (by omega)
      have hmax := hspec.count_le
      rw [frameLoop_of_running hh]
      exact ⟨hspec.executed, hmax, fun _ hlt => hspec.early (by omega)⟩

theorem countDown_eq {timer : Int} (h : 0 ≤ timer) : countDown timer = max 0 (timer - 1) := by
  by_cases hpos : 0 < timer
  · rw [countDown, if_pos hpos]
    omega
  · rw [countDown, if_neg hpos]
    omega

theorem countDown_range {timer : Int} (h : 0 ≤ timer ∧ timer < 256) :
    0 ≤ countDown timer ∧ countDown timer < 256 := by
  have hcount := countDown_eq h.1
  omega

theorem wellFormed_tickTimers (h : m.WellFormed) : m.tickTimers.WellFormed :=
  h.withTimers (countDown_range h.delay_range) (countDown_range h.sound_range)

theorem wellFormed_settled {b : Outcome Failure Log.Entry Machine} (h : b.state.WellFormed) :
    (settled m b).WellFormed := by
  rw [settled]
  split
  · exact wellFormed_tickTimers h
  · exact h

/-- **FRAMES KEEP A MACHINE WELL-FORMED.** -/
theorem wellFormed_cycle (h : m.WellFormed) : m.cycle.state.WellFormed := by
  have hsettled := wellFormed_settled (m := m.begun) (wellFormed_frameLoop (wellFormed_begun h))
  rw [cycle_eq m]
  exact hsettled.withScreen hsettled.screen_standard.present

theorem paused_settled (m : Machine) (b : Outcome Failure Log.Entry Machine) :
    (settled m b).paused = b.state.paused := by
  rw [settled]
  split <;> rfl

theorem halted_settled (m : Machine) (b : Outcome Failure Log.Entry Machine) :
    (settled m b).halted = b.state.halted := by
  rw [settled]
  split <;> rfl

theorem executed_settled (m : Machine) (b : Outcome Failure Log.Entry Machine) :
    (settled m b).executed = b.state.executed := by
  rw [settled]
  split <;> rfl

theorem host_settled (m : Machine) (b : Outcome Failure Log.Entry Machine) :
    SameHost b.state (settled m b) := by
  rw [settled]
  split
  · exact { SameHost.refl b.state with }
  · exact SameHost.refl b.state

theorem commands_entries (entries : List Log.Entry) :
    (entries.map Report.entry).filterMap Report.command? = [] := by
  induction entries with
  | nil => rfl
  | cons e rest ih => exact ih

/-- A frame gives one command, for what the machine is like at its end. -/
theorem commands_cycle (m : Machine) :
    m.cycle.reports.filterMap Report.command? = [m.cycle.state.audio] := by
  rw [cycle_eq, List.filterMap_append, commands_entries]
  rfl

theorem cycle_idle (hidle : m.halted = true ∨ m.paused = true) :
    m.cycle = ⟨m.begun.present, [.command m.audio], none⟩ := by
  have hloop : frameLoop m.begun = (0, .done m.begun) := by
    cases hh : m.begun.halted with
    | true => exact frameLoop_of_halted hh
    | false =>
        have hp : m.begun.paused = true :=
          hidle.resolve_left fun ht => Bool.false_ne_true (hh.symm.trans ht)
        rw [frameLoop_of_running hh]
        exact stepLoop_of_end fun hgo => Bool.false_ne_true (hgo.2.symm.trans hp)
  have hsettled : settled m.begun (.done m.begun) = m.begun := by
    rcases hidle with hh | hp
    · exact settled_of_halted hh _
    · exact settled_of_paused hp
  rw [cycle_eq, hloop, hsettled]
  rfl

/-- Everything that a program can reach is the same in two machines; only the keys, the
    settings and the counters of frames may differ. -/
structure Frozen (m m' : Machine) : Prop where
  registers : m'.registers = m.registers
  index : m'.index = m.index
  pc : m'.pc = m.pc
  memory : m'.memory = m.memory
  stack : m'.stack = m.stack
  delay : m'.delay = m.delay
  sound : m'.sound = m.sound
  pixels : m'.screen.pixels = m.screen.pixels
  paused : m'.paused = m.paused
  waiting : m'.waiting = m.waiting
  halted : m'.halted = m.halted
  executed : m'.executed = m.executed
  random : m'.random = m.random

theorem Frozen.refl (m : Machine) : Frozen m m :=
  ⟨rfl, rfl, rfl, rfl, rfl, rfl, rfl, rfl, rfl, rfl, rfl, rfl, rfl⟩

theorem Frozen.trans {m m' m'' : Machine} (h : Frozen m m') (h' : Frozen m' m'') :
    Frozen m m'' where
  registers := h'.registers.trans h.registers
  index := h'.index.trans h.index
  pc := h'.pc.trans h.pc
  memory := h'.memory.trans h.memory
  stack := h'.stack.trans h.stack
  delay := h'.delay.trans h.delay
  sound := h'.sound.trans h.sound
  pixels := h'.pixels.trans h.pixels
  paused := h'.paused.trans h.paused
  waiting := h'.waiting.trans h.waiting
  halted := h'.halted.trans h.halted
  executed := h'.executed.trans h.executed
  random := h'.random.trans h.random

theorem frozen_cycle (hidle : m.halted = true ∨ m.paused = true) : Frozen m m.cycle.state := by
  rw [cycle_idle hidle]
  exact { Frozen.refl m with }

/-- **A FRAME REFINES SINGLE STEPS.**  With `k` the number of steps that succeed and `b` the
    outcome of the loop over steps:

    * the frame is the loop, followed by the timers if they tick, a command and a picture;
    * `k` instructions are counted, at most as many as the speed says, and fewer on a
      machine that was not halted only at a wait or a fault;
    * both timers count down once, to zero at the lowest, if the machine was not halted,
      no step failed and it does not wait, and otherwise stay as the steps left them;
    * in every case one frame is counted, one picture presented and one command given. -/
theorem cycle_refines_steps (h : m.WellFormed) :
    let k := (frameLoop m.begun).1
    let b := (frameLoop m.begun).2
    let o := m.cycle
    (o.state = (settled m.begun b).present ∧ o.failure = b.failure ∧
      o.reports = b.reports.map .entry ++ [.command (settled m.begun b).audio]) ∧
    (m.halted = true → k = 0 ∧ b = .done m.begun) ∧
    o.state.executed = m.executed + k ∧ (k : Int) ≤ max m.speed 0 ∧
    (m.halted = false → (k : Int) < max m.speed 0 →
      o.state.paused = true ∨ ∃ f, o.failure = some (.fault f)) ∧
    (∀ e, o.failure = some e → ∃ f, e = .fault f ∧ o.state.halted = true) ∧
    (m.halted = false ∧ o.failure = none ∧ o.state.paused = false →
      o.state.delay = max 0 (b.state.delay - 1) ∧ o.state.sound = max 0 (b.state.sound - 1)) ∧
    (¬ (m.halted = false ∧ o.failure = none ∧ o.state.paused = false) →
      o.state.delay = b.state.delay ∧ o.state.sound = b.state.sound) ∧
    o.state.cycles = m.cycles + 1 ∧ o.state.screen.frames = m.screen.frames + 1 ∧
    o.state.screen.stale = true ∧
    o.reports.filterMap Report.command? =
      [if 0 < o.state.sound ∧ o.state.halted = false then .play (.whole m.toneHz) else .stop] := by
  intro k b o
  have hbegun : m.begun.WellFormed := wellFormed_begun h
  have ho : o = ⟨(settled m.begun b).present,
      b.reports.map .entry ++ [.command (settled m.begun b).audio], b.failure⟩ := cycle_eq m
  have hb : b.state.WellFormed := wellFormed_frameLoop hbegun
  have hhost : SameHost m.begun (settled m.begun b) :=
    (host_frameLoop hbegun).trans (host_settled m.begun b)
  obtain ⟨hexec, hmax, hearly⟩ := frameLoop_spec hbegun
  have hpaused : o.state.paused = b.state.paused := by
    rw [ho]
    exact paused_settled m.begun b
  have hfailure : o.failure = b.failure := by rw [ho]
  rw [hpaused, hfailure]
  refine ⟨⟨by rw [ho], rfl, by rw [ho]⟩, ?_, ?_, hmax, ?_, ?_, ?_, ?_, ?_, ?_, ?_, ?_⟩
  -- a halted machine takes no step
  · intro hh
    have hloop : frameLoop m.begun = (0, .done m.begun) := frameLoop_of_halted hh
    exact ⟨congrArg Prod.fst hloop, congrArg Prod.snd hloop⟩
  -- what is counted
  · rw [ho]
    exact (executed_settled m.begun b).trans hexec
  -- why the loop ends early
  · intro hh hlt
    rcases hearly hh hlt with hp | hf
    · exact Or.inl hp
    · obtain ⟨e, he⟩ := Option.isSome_iff_exists.1 hf
      obtain ⟨f, rfl, _⟩ := frameLoop_failure hbegun he
      exact Or.inr ⟨f, he⟩
  -- what a failure is
  · intro e he
    obtain ⟨f, hef, hhalted, _⟩ := frameLoop_failure hbegun he
    refine ⟨f, hef, ?_⟩
    rw [ho]
    exact (halted_settled m.begun b).trans hhalted
  -- the timers tick, or they do not
  · intro hticks
    have hsettled : settled m.begun b = b.state.tickTimers := if_pos hticks
    rw [ho, hsettled]
    exact ⟨countDown_eq hb.delay_range.1, countDown_eq hb.sound_range.1⟩
  · intro hticks
    have hsettled : settled m.begun b = b.state := if_neg hticks
    rw [ho, hsettled]
    exact ⟨rfl, rfl⟩
  -- what happens in every frame
  · rw [ho]
    exact hhost.cycles
  · rw [ho]
    exact congrArg (· + 1) hhost.frames
  · rw [ho]
    rfl
  · have htone : (settled m.begun b).toneHz = m.toneHz := hhost.toneHz
    rw [ho, List.filterMap_append, commands_entries, ← htone]
    rfl

/-- A program that sets the sound timer and then waits for a key, in the last step that there is
    in the frame: all steps are counted, and the timers do not tick. -/
theorem cycle_into_a_wait :
    let program : List UInt8 := [0x60, 0x05, 0xF0, 0x18, 0xF1, 0x0A]
    let m := (fresh 3 440 (.cycling [])).loaded program
    let o := m.cycle
    m.WellFormed ∧ (frameLoop m.begun).1 = 3 ∧ o.failure = none ∧ o.state.executed = 3 ∧
      o.state.cycles = 1 ∧ o.state.paused = true ∧ o.state.waiting = some 1 ∧
      o.state.sound = 5 ∧ o.reports.filterMap Report.command? = [.play (.whole 440)] := by
  intro program m o
  have hfresh := wellFormed_fresh 3 440 (.cycling [])
  have hm : m.WellFormed := wellFormed_loaded hfresh (by decide)
  have hword (s : Machine) (i : Nat) (hmemory : s.memory = m.memory)
      (hpc : s.pc = (programStart + i : Nat)) (hi : i + 1 < programCapacity) :=
    word_in_loaded hfresh (by decide) hmemory hpc hi
  have hpc : m.pc = 512 := rfl
  have hregisters : m.registers = Bank.zeros 16 := rfl
  have hcounts : m.executed = 0 ∧ m.cycles = 0 := ⟨rfl, rfl⟩
  have hsettings : m.speed = 3 ∧ m.toneHz = 440 := ⟨rfl, rfl⟩
  have hgo : m.halted = false ∧ m.paused = false := ⟨rfl, rfl⟩
  clear_value m
  let s₀ := m.begun
  let s₁ := s₀.completed ⟨.setByte, 0x6005⟩
  let s₂ := s₁.completed ⟨.setSound, 0xF018⟩
  let s₃ := s₂.completed ⟨.waitKey, 0xF10A⟩
  have h₀ : s₀.WellFormed := wellFormed_begun hm
  have h₁ : s₁.WellFormed := wellFormed_completed h₀ rfl
  have h₂ : s₂.WellFormed := wellFormed_completed h₁ rfl
  -- what each step reads, and what it comes to
  have hpc₁ : s₁.pc = 514 := congrArg (fun pc => addressOf (pc + 2)) hpc
  have hpc₂ : s₂.pc = 516 := congrArg (fun pc => addressOf (pc + 2)) hpc₁
  have hword₀ : s₀.word = 0x6005 := (hword s₀ 0 rfl hpc (by decide)).trans (by decide)
  have hword₁ : s₁.word = 0xF018 := (hword s₁ 2 rfl hpc₁ (by decide)).trans (by decide)
  have hword₂ : s₂.word = 0xF10A := (hword s₂ 4 rfl hpc₂ (by decide)).trans (by decide)
  have hstep₀ : s₀.step = ⟨s₁, _, none⟩ := step_of_decode h₀ (by rw [hword₀]; decide) rfl
  have hstep₁ : s₁.step = ⟨s₂, _, none⟩ := step_of_decode h₁ (by rw [hword₁]; decide) rfl
  have hstep₂ : s₂.step = ⟨s₃, _, none⟩ := step_of_decode h₂ (by rw [hword₂]; decide) rfl
  have hsound : s₃.sound = 5 := by
    show ((s₁.registers.get 0 : Nat) : Int) = 5
    show (((m.registers.put 0 5).get 0 : Nat) : Int) = 5
    rw [hregisters]
    decide
  have hloop : (frameLoop s₀).1 = 3 ∧ (frameLoop s₀).2.state = s₃ ∧
      (frameLoop s₀).2.failure = none := by
    have hspeed : s₀.speed = 3 := hsettings.1
    have hrun : ¬ s₀.halted = true := (Bool.not_eq_true _).mpr hgo.1
    have hp₀ : s₀.paused = false := hgo.2
    have hp₁ : s₁.paused = false := hgo.2
    have hp₂ : s₂.paused = false := hgo.2
    rw [frameLoop, if_neg hrun, hspeed,
      stepLoop_of_success ⟨by decide, hp₀⟩ (by rw [hstep₀]), hstep₀,
      stepLoop_of_success ⟨by decide, hp₁⟩ (by rw [hstep₁]), hstep₁,
      stepLoop_of_success ⟨by decide, hp₂⟩ (by rw [hstep₂]), hstep₂,
      stepLoop_of_end fun hgo => absurd hgo.1 (by decide)]
    exact ⟨rfl, rfl, rfl⟩
  obtain ⟨hcount, hstate, hfailure⟩ := hloop
  obtain ⟨⟨hend, hsame, _⟩, _, hexec, _, _, _, _, hheld, hcycles, _, _, hcommand⟩ :=
    cycle_refines_steps hm
  -- the machine waits at the end, so the timers stay as the steps left them
  have hstill : settled s₀ (frameLoop s₀).2 = s₃ := by
    rw [settled, if_neg, hstate]
    rintro ⟨_, _, hp⟩
    rw [hstate] at hp
    cases hp
  have hlast : o.state = s₃.present := hend.trans (congrArg present hstill)
  have hplays : 0 < o.state.sound ∧ o.state.halted = false := by
    rw [hlast]
    exact ⟨hsound.symm ▸ (by decide), hgo.1⟩
  refine ⟨hm, hcount, hsame.trans hfailure, ?_, ?_, congrArg paused hlast,
    congrArg waiting hlast, (congrArg sound hlast).trans hsound, ?_⟩
  · rw [hexec, hcounts.1]
    exact congrArg (0 + ·) hcount
  · rw [hcycles, hcounts.2]
  · rw [hcommand, if_pos hplays, hsettings.2]

end Chip8.Machine
