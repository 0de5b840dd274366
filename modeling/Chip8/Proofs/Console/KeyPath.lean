import Chip8.Proofs.Console.Halt
import Chip8.Proofs.Console.Marks

/-! # Waiting for a key, move by move

    **`Moves`** says what a machine does between two moments, together with the marks that
    the log shows of it.  As long as no register waits, the machine may do anything but
    touch the keys; while one waits, nothing but the keys can change, and the first key
    that goes down fills it.  A **`Path`** is any number of moves.

    Frames, key events and thus whole runs are paths (**`path_run`**). -/

namespace Chip8

open Machine

/-- One move, with its marks. -/
inductive Moves (m : Machine) : List Mark → Machine → Prop where
  /-- While no register waits, instructions run, but none that waits for a key. -/
  | works {ms : List Mark} {m' : Machine} (hw : m.waiting = none) (hw' : m'.waiting = none)
      (hkeys : m'.keypad = m.keypad)
      (hms : ∀ mark ∈ ms, ∃ i, mark = .ran i ∧ i.operation ≠ .waitKey) : Moves m ms m'
  /-- An instruction that waits for a key completes. -/
  | waits {i : Instruction} (hw : m.waiting = none) (hi : i.operation = .waitKey) :
      Moves m [.ran i] (m.completed i)
  /-- Nothing happens that a program can reach. -/
  | rests {m' : Machine} (hkeys : m'.keypad = m.keypad) (hfrozen : Frozen m m') : Moves m [] m'
  /-- A key that is held comes up. -/
  | releases {k : Key} (hheld : m.keypad.holds k = true) :
      Moves m [.released k.val] (m.keyed (.up k))
  /-- A key that is up goes down while no register waits. -/
  | presses {k : Key} (hw : m.waiting = none) (hup : m.keypad.holds k = false) :
      Moves m [.pressed k.val] (m.keyed (.down k))
  /-- A key that is up goes down and fills the register that waits. -/
  | resumes {k : Key} {r : Int} (hw : m.waiting = some r) (hup : m.keypad.holds k = false) :
      Moves m [.pressed k.val, .resumed k.val r]
        { (m.keyed (.down k)).withRegister r.toNat k.val with waiting := none, paused := false }

/-- Moves one after the other, with their marks. -/
inductive Path : Machine → List Mark → Machine → Prop where
  | nil (m : Machine) : Path m [] m
  | cons {m m₁ m' : Machine} {ms rest : List Mark} :
      Moves m ms m₁ → Path m₁ rest m' → Path m (ms ++ rest) m'

variable {m m₁ m' : Machine}

theorem path_of_moves {ms : List Mark} (h : Moves m ms m') : Path m ms m' := by
  have hpath := Path.cons h (Path.nil m')
  rw [List.append_nil] at hpath
  exact hpath

theorem path_append {ms rest : List Mark} (h : Path m ms m₁) (h' : Path m₁ rest m') :
    Path m (ms ++ rest) m' := by
  induction h with
  | nil => exact h'
  | cons hmove _ ih =>
      rw [List.append_assoc]
      exact Path.cons hmove (ih h')

/-! ## Steps and frames -/

theorem waiting_completed (m : Machine) {i : Instruction} (hi : i.operation ≠ .waitKey) :
    (m.completed i).waiting = m.waiting :=
  (Instruction.waiting_effect i m.advance hi).2

theorem waiting_completed_wait (m : Machine) {i : Instruction} (hi : i.operation = .waitKey) :
    (m.completed i).waiting = some (i.x : Int) := by
  simp only [completed, Instruction.effect, hi]

theorem moves_step (h : m.WellFormed) (hp : m.paused = false) :
    Moves m (entryMarks m.step.reports) m.step.state := by
  have hw := h.waiting_eq_none hp
  have hkeys := (host_step h).keypad
  rcases step_cases h with ⟨i, _, _, he⟩ | ⟨i, reason, _, hs, he⟩ | ⟨_, he⟩
  · rw [he] at hkeys ⊢
    -- the instruction leaves one mark: its beginning
    have hmarks : entryMarks (.trace m.pc i :: i.notes) = [.ran i] :=
      congrArg (Mark.ran i :: ·) (entryMarks_notes i)
    rw [hmarks]
    by_cases hi : i.operation = .waitKey
    · exact .waits hw hi
    · refine .works hw ((waiting_completed m hi).trans hw) hkeys ?_
      intro mark hmark
      exact ⟨i, List.mem_singleton.1 hmark, hi⟩
  · rw [he] at hkeys ⊢
    -- the stack is none of a wait's business
    have hi : i.operation ≠ .waitKey := by
      intro hop
      rw [Instruction.stackFault?, hop] at hs
      cases hs
    refine .works hw hw hkeys ?_
    intro mark hmark
    exact ⟨i, List.mem_singleton.1 hmark, hi⟩
  · rw [he] at hkeys ⊢
    refine .works hw hw hkeys ?_
    intro mark hmark
    cases hmark

theorem path_batch (n : Nat) (h : m.WellFormed) :
    Path m (entryMarks (batch n m).reports) (batch n m).state := by
  induction n generalizing m with
  | zero => exact Path.nil m
  | succ n ih =>
      cases hp : m.paused with
      | true =>
          rw [batch_of_paused hp]
          exact Path.nil m
      | false =>
          have hstep := moves_step h hp
          cases he : m.step.failure with
          | some e =>
              rw [batch_succ_of_failure hp he]
              exact path_of_moves hstep
          | none =>
              rw [batch_succ_of_success hp he]
              show Path m (entryMarks (m.step.reports ++ _)) _
              rw [entryMarks_append]
              exact Path.cons hstep (ih (wellFormed_step h))

theorem path_frameLoop (h : m.WellFormed) :
    Path m (entryMarks (frameLoop m).2.reports) (frameLoop m).2.state := by
  cases hh : m.halted with
  | true =>
      rw [frameLoop_of_halted hh]
      exact Path.nil m
  | false =>
      rw [frameLoop_eq_batch hh]
      exact path_batch _ h

theorem moves_settled {b : Outcome Failure Log.Entry Machine} (h : b.state.WellFormed) :
    Moves b.state [] (settled m b) := by
  by_cases ht : Ticks m b
  · rw [settled, if_pos ht]
    have hw := h.waiting_eq_none ht.2.2
    refine .works hw hw rfl ?_
    intro mark hmark
    cases hmark
  · rw [settled, if_neg ht]
    exact .rests rfl (Frozen.refl _)

namespace Console

variable {c : Console}

/-- **FRAMES ARE PATHS.** -/
theorem path_cycle (h : c.machine.WellFormed) :
    Path c.machine (marks c.cycle.reports) c.cycle.state.machine := by
  have hbegun := wellFormed_begun h
  have hbegin : Moves c.machine [] c.machine.begun := .rests rfl { Frozen.refl c.machine with }
  have hsettle := moves_settled (m := c.machine.begun) (wellFormed_frameLoop hbegun)
  have hpresent (s : Machine) : Moves s [] s.present := .rests rfl { Frozen.refl s with }
  have hend := Path.cons hsettle (path_of_moves (hpresent _))
  have hpath := Path.cons hbegin (path_append (path_frameLoop hbegun) hend)
  rw [List.nil_append, List.append_nil, List.append_nil] at hpath
  show Path c.machine _ c.machine.cycle.state
  rw [marks_cycle, cycle_eq]
  exact hpath

/-! ## Keys -/

theorem moves_signal (h : c.machine.WellFormed) (hheeds : c.Heeds) {e : KeyEvent}
    (hchange : c.machine.keypad.changedBy e) :
    Moves c.machine (marks (c.signal e).reports) (c.afterKey e).machine := by
  rw [marks_signal h hheeds, machine_afterKey hheeds]
  cases e with
  | up k => exact .releases hchange
  | down k =>
      cases hw : c.machine.waiting with
      | none =>
          have hquiet : c.machine.hearNotes (.down k) = [] := by simp only [hearNotes, hw]
          rw [hquiet, heard_of_not_waiting (m := c.machine.keyed _) hw]
          exact .presses hw hchange
      | some r =>
          rw [entryMarks_hearNotes hw, heard_down (m := c.machine.keyed _) hw]
          exact .resumes hw hchange

theorem keypad_afterKey (c : Console) (e : KeyEvent) :
    (c.afterKey e).machine.keypad = c.machine.keypad.after e := by
  simp only [afterKey, told]
  split
  · exact keypad_heard _ e
  · rfl

/-- **KEY EVENTS ARE PATHS.** -/
theorem path_signalAll {es : List KeyEvent} (h : c.machine.WellFormed) (hheeds : c.Heeds)
    (hes : c.machine.keypad.Genuine es) :
    Path c.machine (marks (signalAll es c).reports) (c.afterKeys es).machine := by
  induction es generalizing c with
  | nil => exact Path.nil _
  | cons e rest ih =>
      obtain ⟨hchange, hrest⟩ := hes
      rw [← keypad_afterKey] at hrest
      have htail := ih (wellFormed_afterKey h e) hheeds hrest
      rw [signalAll_cons h, Outcome.after, marks_append]
      exact Path.cons (moves_signal h hheeds hchange) htail

/-! ## Runs -/

/-- Somebody may be listening besides, but the machine is always reached. -/
structure Ready (c : Console) : Prop where
  wellFormed : c.machine.WellFormed
  heeds : c.Heeds

theorem handlers_perform (h : c.machine.WellFormed) {call : Call} (hcall : call.isPlayed = true) :
    (c.perform call).state.handlers = c.handlers := by
  rcases Call.isPlayed_cases hcall with rfl | ⟨keys, rfl⟩
  · rfl
  · show (c.performKeys keys).state.handlers = c.handlers
    rw [performKeys_state h]
    exact handlers_afterKeys c _

theorem ready_perform (hc : Ready c) {call : Call} (hcall : call.isPlayed = true) :
    Ready (c.perform call).state := by
  refine ⟨wellFormed_perform hc.wellFormed call, ?_⟩
  show Listener.machine ∈ heardBy (c.perform call).state.handlers
  rw [handlers_perform hc.wellFormed hcall]
  exact hc.heeds

theorem ready_run (hc : Ready c) {calls : List Call}
    (hcalls : ∀ call ∈ calls, call.isPlayed = true) : Ready (c.run calls) :=
  run_preserves (P := Ready) (K := fun call => call.isPlayed = true)
    (fun _ _ hd hcall => ready_perform hd hcall) calls c hcalls hc

theorem path_perform (hc : Ready c) {call : Call} (hcall : call.isPlayed = true) :
    Path c.machine (marks (c.perform call).reports) (c.perform call).state.machine := by
  rcases Call.isPlayed_cases hcall with rfl | ⟨keys, rfl⟩
  · exact path_cycle hc.wellFormed
  · show Path c.machine (marks (c.performKeys keys).reports) (c.performKeys keys).state.machine
    rw [performKeys_state hc.wellFormed, performKeys_reports hc.wellFormed]
    exact path_signalAll hc.wellFormed hc.heeds (keys.genuine_plan c.machine.keypad)

/-- **RUNS ARE PATHS.** -/
theorem path_run (hc : Ready c) {calls : List Call}
    (hcalls : ∀ call ∈ calls, call.isPlayed = true) :
    Path c.machine (marks (c.runReports calls)) (c.run calls).machine := by
  induction calls generalizing c with
  | nil => exact Path.nil _
  | cons call rest ih =>
      obtain ⟨hcall, hrest⟩ := List.forall_mem_cons.1 hcalls
      show Path c.machine (marks ((c.perform call).reports ++ _)) _
      rw [marks_append]
      exact path_append (path_perform hc hcall) (ih (ready_perform hc hcall) hrest)

end Console

end Chip8
