import Chip8.Keypad.Handlers
import Chip8.Machine.Cycle
import Chip8.Machine.Input
import Chip8.Machine.Program

/-!
# The console

A machine joined to a buzzer and to a stack of key handlers.  The machine's own handler
is at the bottom; observers may be pushed on top of it, and may keep key events from
the machine.  The buzzer's device refuses nothing.

* Key changes go to the keypad first, then to the handlers, one event at a time.
* Commands of the machine go to the buzzer in the order in which they are given.
-/

namespace Chip8

/-- Who hears key events. -/
inductive Listener where
  /-- The machine itself. -/
  | machine
  /-- Somebody else, known by a name. -/
  | observer (name : String)
  deriving DecidableEq, Repr

/-- A machine with its buzzer and its key handlers, the newest first. -/
structure Console where
  machine : Machine
  handlers : List (Handler Listener)
  buzzer : Buzzer

namespace Console

/-- What a console reports while it works. -/
inductive Report where
  /-- An entry of the log. -/
  | entry (e : Log.Entry)
  /-- A command to the buzzer. -/
  | command (c : Command)
  /-- A call to the audio device. -/
  | call (c : DeviceCall)
  /-- A key event that an observer heard. -/
  | observed (name : String) (e : KeyEvent)
  deriving Repr

/-- A buzzer's report as a console's. -/
def Report.ofBuzzer : Buzzer.Report → Report
  | .entry e   => .entry e
  | .command c => .command c
  | .call c    => .call c

/-- The outcome of an operation on a console. -/
abbrev Result := Outcome Failure Report Console

/-- What an operation leaves behind that answers yes or no. -/
structure Answered where
  outcome : Result
  /-- The answer, unless the operation fails. -/
  answer : Option Bool

/-- An outcome with an answer, which is given if there is no failure. -/
def Answered.of (outcome : Result) (answer : Bool) : Answered :=
  ⟨outcome, if outcome.failure.isSome then none else some answer⟩

/-- A console around a machine: nobody else listens, and the buzzer is silent. -/
def ofMachine (m : Machine) : Console := ⟨m, [⟨.machine, false⟩], Buzzer.silent⟩

/-- A console that has just been switched on. -/
def fresh (speed toneHz : Int) (random : RandomStream) : Console :=
  ofMachine (Machine.fresh speed toneHz random)

/-- An operation on the machine alone. -/
def onMachine (c : Console) (f : Machine → Outcome Failure Log.Entry Machine) : Result :=
  ((f c.machine).mapState fun machine => { c with machine }).mapReports fun e => [.entry e]

/-! ## Frames -/

/-- Carry out the commands among a machine's reports. -/
def relay : Buzzer → List Machine.Report → Buzzer × List Report
  | b, []                => (b, [])
  | b, .entry e :: rest   =>
      let (b, reports) := relay b rest
      (b, .entry e :: reports)
  | b, .command c :: rest =>
      let o := b.obey Buzzer.willing c
      let (b, reports) := relay o.state rest
      (b, o.reports.map Report.ofBuzzer ++ reports)

/-- One instruction. -/
def step (c : Console) : Result := c.onMachine Machine.step

/-- One frame. -/
def cycle (c : Console) : Result :=
  let o := c.machine.cycle
  let (buzzer, reports) := relay c.buzzer o.reports
  ⟨{ c with machine := o.state, buzzer }, reports, o.failure⟩

/-- Have the buzzer do what the machine wants of it. -/
def settleAudio (c : Console) : Result :=
  let (buzzer, reports) := relay c.buzzer [.command c.machine.audio]
  ⟨{ c with buzzer }, reports, none⟩

/-- Silence the buzzer. -/
def silence (c : Console) : Result :=
  let (buzzer, reports) := relay c.buzzer [.command .stop]
  ⟨{ c with buzzer }, reports, none⟩

/-! ## Keys -/

/-- Let one listener hear an event. -/
def tell (e : KeyEvent) (c : Console) : Listener → Result
  | .machine       => c.onMachine (·.hear e)
  | .observer name => ⟨c, [.observed name e], none⟩

/-- Let listeners hear an event one after the other. -/
def tellAll (e : KeyEvent) : List Listener → Console → Result
  | [],      c => .done c
  | l :: ls, c => (c.tell e l).andThen (tellAll e ls)

/-- The entry that logs a key event. -/
def keyEntry : KeyEvent → Log.Entry
  | .down k => .key true k.val
  | .up k   => .key false k.val

/-- Change one key and let the handlers hear of it. -/
def signal (c : Console) (e : KeyEvent) : Result :=
  let machine := { c.machine with keypad := c.machine.keypad.after e }
  Outcome.after [.entry (keyEntry e)] (tellAll e (heardBy c.handlers) { c with machine })

/-- Change keys one after the other. -/
def signalAll : List KeyEvent → Console → Result
  | [],      c => .done c
  | e :: es, c => (c.signal e).andThen (signalAll es)

/-- Signal the event that a change of a key amounts to, if it amounts to one, and answer
    whether it does. -/
def signalChange (c : Console) : Except NotAKey (Option KeyEvent) → Answered
  | .error e     => ⟨.fail c (.key e), none⟩
  | .ok none     => .of (.done c) false
  | .ok (some e) => .of (c.signal e) true

/-- Press a key, and answer whether that was a change. -/
def press (c : Console) (number : Int) : Answered :=
  c.signalChange (c.machine.keypad.press number)

/-- Release a key, and answer whether that was a change. -/
def release (c : Console) (number : Int) : Answered :=
  c.signalChange (c.machine.keypad.release number)

/-- Make the wanted keys the held ones. -/
def setKeys (c : Console) (wanted : List Int) : Result :=
  let (events, bad) := c.machine.keypad.plan wanted
  (signalAll events c).andThen fun c =>
    match bad with
    | none   => .done c
    | some e => .fail c (.key e)

/-- Release every key. -/
def releaseAll (c : Console) : Result := c.setKeys []

/-! ## Handlers -/

/-- Put an observer on top of the handlers. -/
def observe (c : Console) (name : String) (stops : Bool) : Console :=
  { c with handlers := ⟨.observer name, stops⟩ :: c.handlers }

/-- Take the top handler off. -/
def dropHandler (c : Console) : Result :=
  match c.handlers with
  | []        => .fail c .noHandler
  | _ :: rest => .done { c with handlers := rest }

end Console

end Chip8
