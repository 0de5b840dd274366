import Chip8.Boot
import Chip8.Session.Event

/-!
# The command

Starts up from the command line and runs the session in a terminal: host events are
read from standard input, one to a line, and the log and the pictures are written to
standard output.
-/

namespace Chip8.Terminal

/-- The number of a system error, which some calls report negated. -/
def numberOf (code : UInt32) : UInt32 := if code < 0x80000000 then code else 0 - code

/-- Why the system could not read a file. -/
def causeOf : IO.Error → FileError.Cause
  | .noFileOrDirectory _ _ _    => .missing
  | .inappropriateType _ code _ => if numberOf code = 20 then .notDirectory else .isDirectory
  | .permissionDenied _ _ _     => .denied
  | .invalidArgument _ code _   => if numberOf code = 36 then .nameTooLong else .broken
  | _                           => .broken

/-- The contents of a file. -/
def contentsOf (name : String) : IO (Except FileError (List UInt8)) := do
  try
    let bytes ← IO.FS.readBinFile name
    return .ok bytes.toList
  catch e => return .error ⟨causeOf e, name⟩

/-- A stream of bytes scattered by a seed. -/
def scattered (seed : Nat) : RandomStream where
  byte i := (mixHash (hash seed) (hash i)).toUInt8
  drawn := 0

/-- A picture in characters, one to a pixel of the machine. -/
def sketch (screen : Screen) : List String :=
  screen.picture.map fun row => String.ofList (row.map fun lit => if lit then '#' else '.')

/-- The report of a start that breaks off. -/
def breakdown : Breakdown → String
  | .noLevel    => Choice.logLevel.title ++ " has no value"
  | .nothing s  => (Choices.Error.nothing s).message
  | .screen _   => "there is no memory for the screen"
  | .nullInName => "the name of the program file holds a null character"
  | .window _   => "the window cannot be opened"

/-- Write what a session reports. -/
def write (session : Session) : Session.Report → IO Unit
  | .entry e             => IO.println e.terminalLine
  | .call .blit          => (sketch session.console.machine.screen).forM IO.println
  | .call (.drawLabel t) => IO.println t
  | _                    => return ()

/-- Run a session on the lines of standard input, until it closes or they end. -/
partial def converse (input : IO.FS.Stream) (session : Session) : IO Unit := do
  if session.closed then return ()
  let line ← input.getLine
  if line.isEmpty then return ()
  match HostEvent.ofLine? (String.ofList (Integer.strip line.toList)) with
  | none       => converse input session
  | some event =>
      let outcome := session.handle event
      outcome.reports.forM (write outcome.state)
      converse input outcome.state

end Chip8.Terminal

open Chip8 Terminal

/-- The command: start up from the words of the command line, then run the session. -/
def main (words : List String) : IO UInt32 := do
  let boot ← match Boot.accepted .earlier .boundless words with
    | .error boot => pure boot
    | .ok launch  =>
        let seed ← IO.rand 0 0xFFFFFFFF
        let contents ← contentsOf launch.program
        pure (Boot.launch .boundless launch contents (scattered seed) (.finite 0))
  match boot with
  | .help                => Help.lines.forM IO.println
  | .usage reason        => IO.eprintln (Help.errorLine reason)
  | .rejected log        => log.forM fun e => IO.println e.terminalLine
  | .broken e            => IO.eprintln (Help.errorLine (breakdown e))
  | .running log _ session =>
      log.forM fun e => IO.println e.terminalLine
      converse (← IO.getStdin) session
  return boot.status.toUInt32
