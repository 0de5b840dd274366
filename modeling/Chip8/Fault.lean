import Chip8.Opcode
import Chip8.Text.Hex

/-! # Faults

    What the emulator itself can complain of: an instruction that cannot be carried
    out, or a program that does not fit.  Each complaint has a category, the
    categories form a tree, and each complaint has one line of text. -/

namespace Chip8

/-- Why an instruction could not be carried out. -/
inductive Fault.Reason where
  /-- No closer description. -/
  | unspecified
  /-- The word is not in the instruction set. -/
  | unknownOpcode
  /-- A call with the return stack full. -/
  | stackOverflow
  /-- A return with the return stack empty. -/
  | stackUnderflow
  deriving DecidableEq, Repr

/-- The words with which a reason is reported. -/
def Fault.Reason.text : Fault.Reason → String
  | .unspecified    => "Execution fault"
  | .unknownOpcode  => "Unknown opcode"
  | .stackOverflow  => "Stack overflow on CALL"
  | .stackUnderflow => "Stack underflow on RET"

/-- A fault of execution, with the opcode at fault and the address it was fetched from. -/
structure Fault where
  reason : Fault.Reason
  opcode : Opcode
  pc : Int
  deriving DecidableEq, Repr

/-- The report of a fault. -/
def Fault.message (f : Fault) : String :=
  f.reason.text ++ ": " ++ Hex.padded 4 f.opcode ++ " at 0x" ++ Hex.padded 3 f.pc

/-- A complaint of the emulator. -/
inductive Complaint where
  /-- A complaint in free text. -/
  | general (text : String)
  /-- A program image larger than the memory left for programs. -/
  | oversized (size capacity : Int)
  /-- A fault of execution. -/
  | execution (fault : Fault)
  deriving DecidableEq, Repr

/-- The report of a complaint. -/
def Complaint.message : Complaint → String
  | .general text            => text
  | .oversized size capacity =>
      "Program of " ++ toString size ++ " bytes exceeds the " ++ toString capacity
        ++ " bytes available at 0x200"
  | .execution fault         => fault.message

namespace Complaint

/-- The kinds of complaint. -/
inductive Category where
  | general
  | oversized
  | execution
  | unknownOpcode
  | stackOverflow
  | stackUnderflow
  deriving DecidableEq, Repr

/-- The kinds a complaint belongs to, from the closest to the most general. -/
def Category.lineage : Category → List Category
  | .general        => [.general]
  | .oversized      => [.oversized, .general]
  | .execution      => [.execution, .general]
  | .unknownOpcode  => [.unknownOpcode, .execution, .general]
  | .stackOverflow  => [.stackOverflow, .execution, .general]
  | .stackUnderflow => [.stackUnderflow, .execution, .general]

/-- The closest kind of a complaint. -/
def category : Complaint → Category
  | .general _      => .general
  | .oversized _ _  => .oversized
  | .execution f    =>
      match f.reason with
      | .unspecified    => .execution
      | .unknownOpcode  => .unknownOpcode
      | .stackOverflow  => .stackOverflow
      | .stackUnderflow => .stackUnderflow

end Complaint

end Chip8
