import Chip8.Buzzer
import Chip8.Machine.Execute

/-!
# Steps and frames

* **`step`** fetches and carries out one instruction; a fault halts the machine.
* **`batch`** takes steps until a given number is done, the machine waits for a key, or
  a step fails.
* **`cycle`** is one frame: a batch of as many steps as the speed says, unless the
  machine is halted; then one tick of both timers, unless the machine waits or the batch
  failed; and in any case one command to the buzzer and one picture presented.
-/

namespace Chip8.Machine

/-- The word at the program counter, high byte first. -/
def fetch (m : Machine) : Except Failure Opcode := do
  return (256 * (← m.peek m.pc) + (← m.peek (m.pc + 1)) : Nat)

/-- Carry out one instruction. -/
def step (m : Machine) : Outcome Failure Log.Entry Machine :=
  match m.fetch with
  | .error e => .fail m e
  | .ok op   =>
      let o := m.execute op
      match o.failure with
      | none                                => { o with state.executed := o.state.executed + 1 }
      | some (.complaint (.execution f))    =>
          { o with state.halted := true, reports := o.reports ++ [.halted f] }
      | some _                              => o

/-- Take up to a number of steps. -/
def batch : Nat → Machine → Outcome Failure Log.Entry Machine
  | 0,     m => .done m
  | n + 1, m => if m.paused then .done m else m.step.andThen (batch n)

/-- A timer one tick later. -/
def countDown (timer : Int) : Int := if 0 < timer then timer - 1 else timer

/-- Both timers one tick later. -/
def tickTimers (m : Machine) : Machine :=
  { m with delay := countDown m.delay, sound := countDown m.sound }

/-- What the buzzer should be doing. -/
def audio (m : Machine) : Command :=
  if 0 < m.sound ∧ m.halted = false then .play (.whole m.toneHz) else .stop

/-- The picture presented. -/
def present (m : Machine) : Machine := { m with screen := m.screen.present }

/-- What a machine reports during a frame. -/
inductive Report where
  /-- An entry of the log. -/
  | entry (e : Log.Entry)
  /-- A command to the buzzer. -/
  | command (c : Command)
  deriving Repr

/-- The part of a frame that a halted machine leaves out. -/
def work (m : Machine) : Outcome Failure Log.Entry Machine :=
  if m.halted then .done m
  else (batch m.speed.toNat m).andThen fun m => .done (if m.paused then m else m.tickTimers)

/-- One frame. -/
def cycle (m : Machine) : Outcome Failure Report Machine :=
  (({ m with cycles := m.cycles + 1 }.work).mapReports fun e => [Report.entry e]).lastly fun m =>
    ⟨m.present, [Report.command m.audio], none⟩

end Chip8.Machine
