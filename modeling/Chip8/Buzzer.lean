import Chip8.Log
import Chip8.Number.Quantity
import Chip8.Outcome

/-!
# The buzzer

A buzzer sounds one tone at a time through an audio device.  For each tone it has the
device create a player, makes a source, queues it, and plays it in a loop; to fall
silent it pauses the player and deletes it.  Players are numbered from one in the order
in which they are asked for.

* **`play`** does nothing when the tone already sounds, and ends a different one first.
* **`stop`** does nothing in silence.

Any call to the device may be refused.  An operation ends at the refused call, and the
buzzer remembers a player and its frequency only once the player plays.  The log shows
frequencies in whole hertz; one without a whole part sounds, and the log leaves it out.
-/

namespace Chip8

/-- A call to the audio device. -/
inductive DeviceCall where
  /-- Create the player with this number. -/
  | create (player : Nat)
  /-- Make the source of a tone. -/
  | source (frequency : Quantity)
  /-- Queue the source of a tone on a player. -/
  | queue (player : Nat) (frequency : Quantity)
  /-- Let a player play, in a loop or once. -/
  | play (player : Nat) (loop : Bool)
  /-- Pause a player. -/
  | pause (player : Nat)
  /-- Delete a player. -/
  | delete (player : Nat)
  deriving Repr

/-- What a call is named for. -/
def DeviceCall.name : DeviceCall → String
  | .create _  => "create"
  | .source _  => "source"
  | .queue _ _ => "queue"
  | .play _ _  => "play"
  | .pause _   => "pause"
  | .delete _  => "delete"

/-- What a buzzer is told to do. -/
inductive Command where
  | play (frequency : Quantity)
  | stop
  deriving Repr

/-- The buzzer: the player it holds, the tone it sounds, and how many players it has asked
    for so far. -/
structure Buzzer where
  player : Option Nat
  frequency : Option Quantity
  created : Nat
  deriving Repr

namespace Buzzer

/-- What a buzzer reports while it works. -/
inductive Report where
  /-- A command to the buzzer, also one that it gives itself. -/
  | command (c : Command)
  /-- A call to the device. -/
  | call (c : DeviceCall)
  /-- An entry of the log. -/
  | entry (e : Log.Entry)
  deriving Repr

/-- Why an operation of a buzzer fails. -/
inductive Error where
  /-- The device refuses a call. -/
  | refused (c : DeviceCall)
  deriving Repr

/-- The outcome of an operation on a buzzer. -/
abbrev Result := Outcome Error Report Buzzer

/-- A silent buzzer that has asked for nothing yet. -/
def silent : Buzzer := ⟨none, none, 0⟩

/-- Whether a player is held. -/
def playing (b : Buzzer) : Bool := b.player.isSome

/-- Issue calls in order, up to the first that the device refuses: the calls made, the
    refused one among them, and the refusal. -/
def issue (refuses : DeviceCall → Bool) : List DeviceCall → List DeviceCall × Option Error
  | []      => ([], none)
  | c :: cs =>
      if refuses c then ([c], some (.refused c))
      else
        let (made, refusal) := issue refuses cs
        (c :: made, refusal)

/-- The calls that start a tone on a new player. -/
def startCalls (player : Nat) (frequency : Quantity) : List DeviceCall :=
  [.create player, .source frequency, .queue player frequency, .play player true]

/-- The calls that end a tone. -/
def stopCalls (player : Nat) : List DeviceCall := [.pause player, .delete player]

/-- What the log shows of a tone that begins. -/
def onsetNotes (frequency : Quantity) : List Report :=
  match frequency.wholePart with
  | .ok hertz => [.entry (.toneOn hertz)]
  | .error _  => []

/-- Start a tone on a new player. -/
def start (refuses : DeviceCall → Bool) (frequency : Quantity) (b : Buzzer) : Result :=
  let player := b.created + 1
  let asked := { b with created := player }
  match issue refuses (startCalls player frequency) with
  | (made, some refusal) => ⟨asked, made.map .call, some refusal⟩
  | (made, none)         =>
      ⟨{ asked with player := some player, frequency := some frequency },
        made.map .call ++ onsetNotes frequency, none⟩

/-- Fall silent. -/
def stop (refuses : DeviceCall → Bool) (b : Buzzer) : Result :=
  Outcome.after [.command .stop] <|
    match b.player with
    | none        => .done b
    | some player =>
        match issue refuses (stopCalls player) with
        | (made, some refusal) => ⟨b, made.map .call, some refusal⟩
        | (made, none)         =>
            ⟨{ b with player := none, frequency := none },
              made.map .call ++ [.entry .toneOff], none⟩

/-- Sound a tone. -/
def play (refuses : DeviceCall → Bool) (frequency : Quantity) (b : Buzzer) : Result :=
  Outcome.after [.command (.play frequency)] <|
    match b.player with
    | none   => b.start refuses frequency
    | some _ =>
        if b.frequency == some frequency then .done b
        else (b.stop refuses).andThen (start refuses frequency)

/-- Carry out a command. -/
def obey (refuses : DeviceCall → Bool) (b : Buzzer) : Command → Result
  | .play frequency => b.play refuses frequency
  | .stop           => b.stop refuses

/-- A device that refuses nothing. -/
def willing : DeviceCall → Bool := fun _ => false

end Buzzer

end Chip8
