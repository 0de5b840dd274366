import Chip8.Fault
import Chip8.FileTree
import Chip8.Instruction.Mnemonic

/-!
# The log

What the parts of the emulator report while they work.  An entry says what happened;
its level, its source and its text follow from that.  A reader sees the entries at or
above the level in force.
-/

namespace Chip8.Log

/-- How weighty an entry is. -/
inductive Level where
  | debug
  | info
  | warning
  | error
  deriving DecidableEq, Repr

def Level.rank : Level → Nat
  | .debug   => 10
  | .info    => 20
  | .warning => 30
  | .error   => 40

def Level.name : Level → String
  | .debug   => "DEBUG"
  | .info    => "INFO"
  | .warning => "WARNING"
  | .error   => "ERROR"

/-- The levels, the least weighty first. -/
def Level.all : List Level := [.debug, .info, .warning, .error]

/-- The level with a name. -/
def Level.ofName? (name : String) : Option Level := Level.all.find? (·.name == name)

/-- The part that reports. -/
inductive Source where
  | processor
  | screen
  | keypad
  | buzzer
  | window
  | start
  deriving DecidableEq, Repr

def Source.name : Source → String
  | .processor => "chip8.cpu"
  | .screen    => "chip8.display"
  | .keypad    => "chip8.keyboard"
  | .buzzer    => "chip8.speaker"
  | .window    => "chip8.window"
  | .start     => "chip8.cli"

/-- Something that happened. -/
inductive Entry where
  /-- A file is about to be read as a program. -/
  | loading (name : String)
  | loaded (size : Nat)
  /-- An instruction at an address is about to be carried out. -/
  | trace (pc : Int) (instruction : Instruction)
  /-- The machine has stopped for good. -/
  | halted (fault : Fault)
  /-- The machine waits for a key to fill a register. -/
  | awaiting (register : Nat)
  /-- A key has filled the register. -/
  | resumed (key : Nat) (register : Int)
  | cleared
  /-- A key has changed. -/
  | key (down : Bool) (key : Nat)
  | toneOn (hertz : Int)
  | toneOff
  /-- The instruction trace was switched. -/
  | tracing (on : Bool)
  /-- The session ends with a complaint. -/
  | failed (complaint : Complaint)
  /-- The program file cannot be read. -/
  | unreadable (name : String) (error : FileError)
  /-- The program cannot be loaded. -/
  | rejected (name : String) (complaint : Complaint)
  deriving DecidableEq, Repr

namespace Entry

/-- The level of an entry. -/
def level : Entry → Level
  | .trace _ _ | .cleared | .key _ _ | .toneOn _ | .toneOff             => .debug
  | .loading _ | .loaded _ | .awaiting _ | .resumed _ _ | .tracing _    => .info
  | .halted _ | .failed _ | .unreadable _ _ | .rejected _ _             => .error

/-- Who reports an entry. -/
def source : Entry → Source
  | .loading _ | .loaded _ | .trace _ _ | .halted _
  | .awaiting _ | .resumed _ _                       => .processor
  | .cleared                                         => .screen
  | .key _ _                                         => .keypad
  | .toneOn _ | .toneOff                             => .buzzer
  | .tracing _ | .failed _                           => .window
  | .unreadable _ _ | .rejected _ _                  => .start

/-- The text of an entry. -/
def text : Entry → String
  | .loading name           => "Loading ROM: " ++ name
  | .loaded size            => "Loaded " ++ toString size ++ " byte program at 0x200"
  | .trace pc i             => Hex.padded 3 pc ++ ": " ++ i.mnemonic
  | .halted fault           => "Emulation halted: " ++ fault.message
  | .awaiting register      => "Waiting for key press into V" ++ Hex.padded 1 register
  | .resumed k register     =>
      "Key " ++ Hex.padded 1 k ++ " pressed, resuming with V" ++ Hex.padded 1 register
        ++ " = " ++ Hex.padded 1 k
  | .cleared                => "Clear the display (all pixels turned off)"
  | .key down k             =>
      "Key " ++ Hex.padded 1 k ++ (if down then " down" else " up")
  | .toneOn hertz           => "Tone on at " ++ toString hertz ++ " Hz"
  | .toneOff                => "Tone off"
  | .tracing on             => "Instruction trace " ++ (if on then "on" else "off")
  | .failed complaint       => "Emulation error: " ++ complaint.message
  | .unreadable name error  => "Cannot read ROM " ++ name ++ ": " ++ error.message
  | .rejected name complaint => "Cannot load ROM " ++ name ++ ": " ++ complaint.message

/-- Whether an entry is seen under the level in force. -/
def visible (inForce : Level) (e : Entry) : Bool := inForce.rank ≤ e.level.rank

/-- An entry as a line: level, source, text. -/
def line (e : Entry) : String := e.level.name ++ " " ++ e.source.name ++ ": " ++ e.text

/-- An entry as a line for the terminal. -/
def terminalLine (e : Entry) : String :=
  "[" ++ e.level.name ++ "] " ++ e.source.name ++ ": " ++ e.text

end Entry

end Chip8.Log
