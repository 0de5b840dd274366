import Chip8.Opcode

/-!
# The instruction set

The thirty-five operations, the shape of the words that encode each of them, and the
decoder.

* **`Operation`** names what an instruction does.
* **`Shape`** says which nibbles of a word are fixed; the free ones are operands.
* **`instructionSet`** lists one row per operation.  Rows do not overlap, except that
  the two whole words `00E0` and `00EE` also have the shape of `sys`, so they stand
  above it.
* **`decode`** takes the first row whose shape accepts the opcode.
-/

namespace Chip8

/-- What an instruction does. -/
inductive Operation where
  | clear
  | ret
  /-- A call into native code, which does nothing here. -/
  | sys
  | jump
  | call
  /-- Skip the next instruction if a register equals a byte. -/
  | skipEqByte
  /-- Skip the next instruction if a register differs from a byte. -/
  | skipNeByte
  /-- Skip the next instruction if two registers are equal. -/
  | skipEqReg
  | setByte
  /-- Add a byte to a register, without carry. -/
  | addByte
  | move
  | or
  | and
  | xor
  | add
  | sub
  /-- Halve a register. -/
  | shr
  | subn
  /-- Double a register. -/
  | shl
  /-- Skip the next instruction if two registers differ. -/
  | skipNeReg
  | setIndex
  /-- Go to an address offset by register 0. -/
  | jumpOffset
  | random
  | draw
  /-- Skip the next instruction if a key is held. -/
  | skipHeld
  /-- Skip the next instruction unless a key is held. -/
  | skipNotHeld
  | readDelay
  | waitKey
  | setDelay
  | setSound
  | addIndex
  | glyph
  /-- Store the three decimal digits of a register. -/
  | decimal
  /-- Store registers to memory. -/
  | store
  /-- Load registers from memory. -/
  | load
  deriving DecidableEq, Repr

/-- Which nibbles of a word are fixed. -/
inductive Shape where
  /-- The whole word. -/
  | whole (word : Nat)
  /-- The top nibble: `annn`, `axkk`, `axyn`. -/
  | top (a : Nat)
  /-- The top and the low nibble: `axyd`. -/
  | ends (a d : Nat)
  /-- The top nibble and the low byte: `axkk` with `kk` fixed. -/
  | tail (a kk : Nat)
  deriving DecidableEq, Repr

/-- Whether an opcode has a shape. -/
def Shape.accepts (op : Opcode) : Shape → Bool
  | .whole w   => op.word == w
  | .top a     => op.family == a
  | .ends a d  => op.family == a && op.n == d
  | .tail a kk => op.family == a && op.kk == kk

/-- One row of the instruction set. -/
structure Row where
  operation : Operation
  shape : Shape
  deriving DecidableEq, Repr

/-- The instruction set, in order of precedence. -/
def instructionSet : List Row :=
  [ ⟨.clear,       .whole 0x00E0⟩,
    ⟨.ret,         .whole 0x00EE⟩,
    ⟨.sys,         .top 0x0⟩,
    ⟨.jump,        .top 0x1⟩,
    ⟨.call,        .top 0x2⟩,
    ⟨.skipEqByte,  .top 0x3⟩,
    ⟨.skipNeByte,  .top 0x4⟩,
    ⟨.skipEqReg,   .ends 0x5 0x0⟩,
    ⟨.setByte,     .top 0x6⟩,
    ⟨.addByte,     .top 0x7⟩,
    ⟨.move,        .ends 0x8 0x0⟩,
    ⟨.or,          .ends 0x8 0x1⟩,
    ⟨.and,         .ends 0x8 0x2⟩,
    ⟨.xor,         .ends 0x8 0x3⟩,
    ⟨.add,         .ends 0x8 0x4⟩,
    ⟨.sub,         .ends 0x8 0x5⟩,
    ⟨.shr,         .ends 0x8 0x6⟩,
    ⟨.subn,        .ends 0x8 0x7⟩,
    ⟨.shl,         .ends 0x8 0xE⟩,
    ⟨.skipNeReg,   .ends 0x9 0x0⟩,
    ⟨.setIndex,    .top 0xA⟩,
    ⟨.jumpOffset,  .top 0xB⟩,
    ⟨.random,      .top 0xC⟩,
    ⟨.draw,        .top 0xD⟩,
    ⟨.skipHeld,    .tail 0xE 0x9E⟩,
    ⟨.skipNotHeld, .tail 0xE 0xA1⟩,
    ⟨.readDelay,   .tail 0xF 0x07⟩,
    ⟨.waitKey,     .tail 0xF 0x0A⟩,
    ⟨.setDelay,    .tail 0xF 0x15⟩,
    ⟨.setSound,    .tail 0xF 0x18⟩,
    ⟨.addIndex,    .tail 0xF 0x1E⟩,
    ⟨.glyph,       .tail 0xF 0x29⟩,
    ⟨.decimal,     .tail 0xF 0x33⟩,
    ⟨.store,       .tail 0xF 0x55⟩,
    ⟨.load,        .tail 0xF 0x65⟩ ]

/-- A decoded opcode: its operation, and the opcode itself, unmasked, from which the
    operands are read. -/
structure Instruction where
  operation : Operation
  opcode : Opcode
  deriving DecidableEq, Repr

namespace Instruction

def x (i : Instruction) : Nat := i.opcode.x

def y (i : Instruction) : Nat := i.opcode.y

def n (i : Instruction) : Nat := i.opcode.n

def kk (i : Instruction) : Nat := i.opcode.kk

def nnn (i : Instruction) : Nat := i.opcode.nnn

end Instruction

/-- The instruction that an opcode encodes, if it encodes one. -/
def decode (op : Opcode) : Option Instruction :=
  (instructionSet.find? (·.shape.accepts op)).map fun row => ⟨row.operation, op⟩

/-- Decoding keeps the opcode as it came. -/
theorem opcode_of_decode {op : Opcode} {i : Instruction} (h : decode op = some i) :
    i.opcode = op := by
  obtain ⟨row, _, rfl⟩ := Option.map_eq_some_iff.1 h
  rfl

end Chip8
