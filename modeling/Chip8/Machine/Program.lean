import Chip8.Machine
import Chip8.Outcome

/-!
# Loading programs

A program goes to its place in memory and replaces an earlier one: what it leaves of
the memory behind it is zero.  A program that does not fit, or that is not made of
bytes, changes nothing.
-/

namespace Chip8.Machine

/-- Load a program. -/
def load (m : Machine) (program : List UInt8) : Outcome Failure Log.Entry Machine :=
  if programCapacity < program.length then
    .fail m (.complaint (.oversized program.length programCapacity))
  else
    let cleared := m.memory.splice programStart m.memory.size (List.replicate programCapacity 0)
    let memory := cleared.splice programStart (programStart + program.length) program
    ⟨{ m with memory }, [.loaded program.length], none⟩

/-- A number as a byte, if it is one. -/
def byte? (n : Int) : Option UInt8 :=
  if 0 ≤ n ∧ n < 256 then some (UInt8.ofNat n.toNat) else none

/-- Load a program given as numbers. -/
def loadNumbers (m : Machine) (numbers : List Int) : Outcome Failure Log.Entry Machine :=
  match numbers.mapM byte? with
  | none         => .fail m .notBytes
  | some program => m.load program

/-- Load the contents of a file, if it could be read. -/
def loadFile (m : Machine) (name : String) (contents : Except FileError (List UInt8)) :
    Outcome Failure Log.Entry Machine :=
  Outcome.after [.loading name] <|
    match contents with
    | .error e    => .fail m (.file e)
    | .ok program => m.load program

end Chip8.Machine
