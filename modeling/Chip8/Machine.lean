import Chip8.Bank
import Chip8.Keypad
import Chip8.Layout
import Chip8.Log
import Chip8.RandomStream
import Chip8.Screen

/-!
# The machine

The state of a CHIP-8 machine with its screen and its keypad, and why an operation on
it can fail.  Memory and registers are banks, which check every access; the other
numbers are integers, which the instructions keep in their ranges themselves.
-/

namespace Chip8

/-- Why an operation fails. -/
inductive Failure where
  /-- A complaint of the emulator itself. -/
  | complaint (c : Complaint)
  /-- An access to memory or registers that the bank refuses. -/
  | bank (e : Bank.Error)
  /-- An operation that the screen refuses. -/
  | screen (e : Screen.Error)
  /-- A number that is no key. -/
  | key (e : NotAKey)
  /-- A file that cannot be read. -/
  | file (e : FileError)
  /-- A program with a number that is not a byte. -/
  | notBytes
  /-- The stack of handlers has nothing to take off. -/
  | noHandler
  deriving DecidableEq, Repr

/-- The failure that a fault of execution is. -/
def Failure.fault (f : Fault) : Failure := .complaint (.execution f)

/-- A machine. -/
structure Machine where
  memory : Bank
  registers : Bank
  index : Int
  pc : Int
  /-- Return addresses, the latest first. -/
  stack : List Int
  delay : Int
  sound : Int
  /-- Whether execution is suspended. -/
  paused : Bool
  /-- The register that the next key press fills. -/
  waiting : Option Int
  /-- Whether a fault has stopped the machine for good. -/
  halted : Bool
  /-- The number of frames begun. -/
  cycles : Nat
  /-- The number of instructions completed. -/
  executed : Nat
  /-- The number of instructions to a frame. -/
  speed : Int
  /-- The frequency of the buzzer. -/
  toneHz : Int
  screen : Screen
  keypad : Keypad
  random : RandomStream

namespace Machine

/-- The machine with the glyphs in place. -/
def withFont (m : Machine) : Machine :=
  { m with memory := m.memory.splice fontStart (fontStart + font.length) font }

/-- A machine that has just been switched on. -/
def fresh (speed toneHz : Int) (random : RandomStream) : Machine :=
  withFont {
    memory := Bank.zeros memorySize
    registers := Bank.zeros registerCount
    index := 0
    pc := programStart
    stack := []
    delay := 0
    sound := 0
    paused := false
    waiting := none
    halted := false
    cycles := 0
    executed := 0
    speed := speed
    toneHz := toneHz
    screen := Screen.dark screenColumns screenRows
    keypad := Keypad.released
    random := random }

/-- The value of a register. -/
def register (m : Machine) (r : Int) : Except Failure Nat :=
  (m.registers.read r).mapError .bank

/-- The machine with a register set. -/
def setRegister (m : Machine) (r value : Int) : Except Failure Machine := do
  let registers ← (m.registers.write r value).mapError .bank
  return { m with registers }

/-- The byte in memory that an address selects. -/
def peek (m : Machine) (address : Int) : Except Failure Nat :=
  (m.memory.read (addressOf address)).mapError .bank

/-- The machine with the byte that an address selects set. -/
def poke (m : Machine) (address value : Int) : Except Failure Machine := do
  let memory ← (m.memory.write (addressOf address) value).mapError .bank
  return { m with memory }

/-- The machine with the program counter moved past one instruction. -/
def advance (m : Machine) : Machine := { m with pc := addressOf (m.pc + 2) }

/-- The machine moved past one more instruction if a condition holds. -/
def skipIf (m : Machine) (condition : Bool) : Machine :=
  if condition then m.advance else m

end Machine

end Chip8
