import Chip8.Machine
import Chip8.Outcome

/-!
# Carrying out instructions

* **`Instruction.apply`** is the effect of one instruction on a machine whose program
  counter has already moved past it.
* **`Machine.execute`** decodes an opcode, traces the instruction and applies it.

Flags are set before results, so where a result goes to register `F` it replaces the
flag.  Where an access is refused, what has been changed by then stays changed.
-/

namespace Chip8

/-- The register that holds carries, borrows and collisions. -/
def flagRegister : Nat := 15

/-- A flag as a register value. -/
def flag (b : Bool) : Int := if b then 1 else 0

/-- The places of the pixels that a sprite byte has set, from the left. -/
def spriteColumns (byte : Nat) : List Nat :=
  (List.range 8).filter fun column => byte.testBit (7 - column)

namespace Machine

/-- The outcome of an operation on a machine. -/
abbrev Result := Outcome Failure Log.Entry Machine

/-- Draw one row of a sprite, given the machine and whether a pixel has been erased so far. -/
def drawRow (left top : Int) (row : Nat) :
    Machine × Bool → Outcome Failure Log.Entry (Machine × Bool)
  | (m, erased) =>
      .given (m, erased) (m.peek (m.index + row)) fun byte =>
        let points := (spriteColumns byte).map fun (column : Nat) => (left + column, top + row)
        ((m.screen.toggleAll points).mapFailure .screen).mapState fun (screen, now) =>
          ({ m with screen }, erased || now)

/-- Draw the first rows of the sprite at the index register, row by row from the top. -/
def drawRows (left top : Int) : Nat → Machine × Bool → Outcome Failure Log.Entry (Machine × Bool)
  | 0,     drawn => .done drawn
  | h + 1, drawn => (drawRows left top h drawn).andThen (drawRow left top h)

/-- Store the first `count` registers to memory, from the index register on. -/
def storeRegisters (m : Machine) : Nat → Result
  | 0     => .done m
  | k + 1 => (m.storeRegisters k).andThen fun m =>
      .given m (m.register k) fun value => .change m (m.poke (m.index + k) value)

/-- Load the first `count` registers from memory, from the index register on. -/
def loadRegisters (m : Machine) : Nat → Result
  | 0     => .done m
  | k + 1 => (m.loadRegisters k).andThen fun m =>
      .given m (m.peek (m.index + k)) fun value => .change m (m.setRegister k value)

end Machine

namespace Instruction

open Machine

/-- The fault of an instruction on a machine that has moved past it. -/
def faultAt (i : Instruction) (reason : Fault.Reason) (m : Machine) : Failure :=
  .fault ⟨reason, i.opcode, addressOf (m.pc - 2)⟩

/-- A result with a flag, which is set first. -/
def withFlag (i : Instruction) (m : Machine) (raised : Bool) (result : Int) : Result :=
  (Outcome.change m (m.setRegister flagRegister (flag raised))).andThen fun m =>
    .change m (m.setRegister i.x result)

/-- An operation on one register. -/
def onRegister (i : Instruction) (m : Machine) (next : Nat → Result) : Result :=
  .given m (m.register i.x) next

/-- An operation on two registers: both are read before anything is changed. -/
def onRegisters (i : Instruction) (m : Machine) (next : Nat → Nat → Result) : Result :=
  .given m (m.register i.x) fun a => .given m (m.register i.y) fun b => next a b

/-- A register operation without a flag. -/
def combine (i : Instruction) (m : Machine) (result : Nat → Nat → Nat) : Result :=
  i.onRegisters m fun a b => .change m (m.setRegister i.x (result a b))

/-- Carry out an instruction on a machine that has moved past it. -/
def apply (i : Instruction) (m : Machine) : Result :=
  match i.operation with
  | .sys         => .done m
  | .clear       => ⟨{ m with screen := m.screen.clear }, Screen.clearNotes, none⟩
  | .ret         =>
      match m.stack with
      | []          => .fail m (i.faultAt .stackUnderflow m)
      | top :: rest => .done { m with pc := top, stack := rest }
  | .jump        => .done { m with pc := i.nnn }
  | .call        =>
      if stackDepth ≤ m.stack.length then .fail m (i.faultAt .stackOverflow m)
      else .done { m with pc := i.nnn, stack := m.pc :: m.stack }
  | .skipEqByte  => i.onRegister m fun a => .done (m.skipIf (a == i.kk))
  | .skipNeByte  => i.onRegister m fun a => .done (m.skipIf (a != i.kk))
  | .skipEqReg   => i.onRegisters m fun a b => .done (m.skipIf (a == b))
  | .skipNeReg   => i.onRegisters m fun a b => .done (m.skipIf (a != b))
  | .setByte     => .change m (m.setRegister i.x i.kk)
  | .addByte     => i.onRegister m fun a => .change m (m.setRegister i.x ((a + i.kk) % 256 : Nat))
  | .move        => .given m (m.register i.y) fun b => .change m (m.setRegister i.x b)
  | .or          => i.combine m (· ||| ·)
  | .and         => i.combine m (· &&& ·)
  | .xor         => i.combine m (· ^^^ ·)
  | .add         => i.onRegisters m fun a b => i.withFlag m (255 < a + b) ((a + b : Int) % 256)
  | .sub         => i.onRegisters m fun a b => i.withFlag m (b < a) ((a - b : Int) % 256)
  | .subn        => i.onRegisters m fun a b => i.withFlag m (a < b) ((b - a : Int) % 256)
  | .shr         => i.onRegister m fun a => i.withFlag m (a % 2 = 1) (a / 2 : Nat)
  | .shl         => i.onRegister m fun a => i.withFlag m (128 ≤ a) ((2 * a : Int) % 256)
  | .setIndex    => .done { m with index := i.nnn }
  | .jumpOffset  => .given m (m.register 0) fun a => .done { m with pc := addressOf (i.nnn + a) }
  | .random      =>
      let drawn := { m with random := m.random.advance }
      .change drawn (drawn.setRegister i.x (m.random.next.toNat &&& i.kk : Nat))
  | .draw        => i.onRegisters m fun left top =>
      ((drawRows left top i.n (m, false)).andThen fun (m, erased) =>
        (Outcome.change m (m.setRegister flagRegister (flag erased))).mapState
          (·, erased)).mapState Prod.fst
  | .skipHeld    => i.onRegister m fun a => .done (m.skipIf (m.keypad.isHeld a))
  | .skipNotHeld => i.onRegister m fun a => .done (m.skipIf (!m.keypad.isHeld a))
  | .readDelay   => .change m (m.setRegister i.x m.delay)
  | .waitKey     => ⟨{ m with paused := true, waiting := some (i.x : Int) }, [.awaiting i.x], none⟩
  | .setDelay    => i.onRegister m fun a => .done { m with delay := a }
  | .setSound    => i.onRegister m fun a => .done { m with sound := a }
  | .addIndex    => i.onRegister m fun a => .done { m with index := (m.index + a) % 65536 }
  | .glyph       => i.onRegister m fun a => .done { m with index := fontStart + a * glyphSize }
  | .decimal     => i.onRegister m fun value =>
      ((Outcome.change m (m.poke m.index (value / 100 : Nat))).andThen fun m =>
        .change m (m.poke (m.index + 1) (value / 10 % 10 : Nat))).andThen fun m =>
          .change m (m.poke (m.index + 2) (value % 10 : Nat))
  | .store       => m.storeRegisters (i.x + 1)
  | .load        => m.loadRegisters (i.x + 1)

end Instruction

/-- Carry out an opcode as if it had been fetched at the program counter. -/
def Machine.execute (m : Machine) (op : Opcode) : Result :=
  match decode op with
  | none   => .fail m.advance (.fault ⟨.unknownOpcode, op, m.pc⟩)
  | some i => (i.apply m.advance).after [.trace m.pc i]

end Chip8
