import Chip8.Instruction
import Chip8.Text.Hex

/-!
# Assembler text

Each operation has a template of fixed text and operand fields; the text of an
instruction is its template with the fields filled in.  Register numbers are single
hexadecimal digits, bytes have two, addresses three, and only the height of a sprite
is written in decimal.
-/

namespace Chip8

/-- A piece of a template. -/
inductive Piece where
  /-- Text that stands as it is. -/
  | text (s : String)
  /-- The first register number. -/
  | x
  /-- The second register number. -/
  | y
  /-- The byte operand, as `0x` and two digits. -/
  | kk
  /-- The address operand, as `0x` and three digits. -/
  | nnn
  /-- The low nibble, in decimal. -/
  | n
  deriving DecidableEq, Repr

/-- The characters a piece stands for in the text of an opcode. -/
def Piece.chars (op : Opcode) : Piece → List Char
  | .text s => s.toList
  | .x      => Hex.paddedChars 1 op.x
  | .y      => Hex.paddedChars 1 op.y
  | .kk     => '0' :: 'x' :: Hex.paddedChars 2 op.kk
  | .nnn    => '0' :: 'x' :: Hex.paddedChars 3 op.nnn
  | .n      => Nat.toDigits 10 op.n

/-- The template of an operation. -/
def Operation.template : Operation → List Piece
  | .clear       => [.text "CLS"]
  | .ret         => [.text "RET"]
  | .sys         => [.text "SYS ", .nnn]
  | .jump        => [.text "JP ", .nnn]
  | .call        => [.text "CALL ", .nnn]
  | .skipEqByte  => [.text "SE V", .x, .text ", ", .kk]
  | .skipNeByte  => [.text "SNE V", .x, .text ", ", .kk]
  | .skipEqReg   => [.text "SE V", .x, .text ", V", .y]
  | .setByte     => [.text "LD V", .x, .text ", ", .kk]
  | .addByte     => [.text "ADD V", .x, .text ", ", .kk]
  | .move        => [.text "LD V", .x, .text ", V", .y]
  | .or          => [.text "OR V", .x, .text ", V", .y]
  | .and         => [.text "AND V", .x, .text ", V", .y]
  | .xor         => [.text "XOR V", .x, .text ", V", .y]
  | .add         => [.text "ADD V", .x, .text ", V", .y]
  | .sub         => [.text "SUB V", .x, .text ", V", .y]
  | .shr         => [.text "SHR V", .x]
  | .subn        => [.text "SUBN V", .x, .text ", V", .y]
  | .shl         => [.text "SHL V", .x]
  | .skipNeReg   => [.text "SNE V", .x, .text ", V", .y]
  | .setIndex    => [.text "LD I, ", .nnn]
  | .jumpOffset  => [.text "JP V0, ", .nnn]
  | .random      => [.text "RND V", .x, .text ", ", .kk]
  | .draw        => [.text "DRW V", .x, .text ", V", .y, .text ", ", .n]
  | .skipHeld    => [.text "SKP V", .x]
  | .skipNotHeld => [.text "SKNP V", .x]
  | .readDelay   => [.text "LD V", .x, .text ", DT"]
  | .waitKey     => [.text "LD V", .x, .text ", K"]
  | .setDelay    => [.text "LD DT, V", .x]
  | .setSound    => [.text "LD ST, V", .x]
  | .addIndex    => [.text "ADD I, V", .x]
  | .glyph       => [.text "LD F, V", .x]
  | .decimal     => [.text "LD B, V", .x]
  | .store       => [.text "LD [I], V", .x]
  | .load        => [.text "LD V", .x, .text ", [I]"]

/-- The text of an instruction as characters. -/
def Instruction.mnemonicChars (i : Instruction) : List Char :=
  i.operation.template.flatMap (Piece.chars i.opcode)

/-- The text of an instruction. -/
def Instruction.mnemonic (i : Instruction) : String :=
  String.ofList i.mnemonicChars

end Chip8
