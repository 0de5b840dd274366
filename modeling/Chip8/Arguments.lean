import Chip8.Arguments.Scan

/-!
# Command-line arguments

The words of a command line name one program file and set options, in any order.  An
ambiguous word is reported before anything is read; after that the first error counts,
a missing program file comes next, and unrecognized words last.
-/

namespace Chip8

/-- Read a command line. -/
def Arguments.parse (d : Dialect) (words : List String) : Except Stop Arguments := do
  let tokens ← (Token.ofWords words).mapError .usage
  let s ← Scan.run d tokens Scan.start
  s.finish

end Chip8
