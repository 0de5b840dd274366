import Chip8.Arguments
import Chip8.Arguments.Help
import Chip8.Session

/-!
# Starting up

From the words of a command line to a running session: the command line is read, the
settings are checked, the screen is made, the program is read and loaded, and only then a
window opens.  The exit status is 0 after help or a session, 2 for a bad command line, and
1 for a program that cannot be read or loaded, or if starting up breaks off.
-/

namespace Chip8

/-- Why starting up breaks off without a report of its own. -/
inductive Breakdown where
  /-- The level of the log is set to nothing. -/
  | noLevel
  /-- A setting is set to nothing. -/
  | nothing (s : Setting)
  /-- There is no room for the screen. -/
  | screen (e : Screen.Error)
  /-- The name of the program file holds a null character, which no file's name does. -/
  | nullInName
  /-- The window cannot be opened. -/
  | window (e : Session.CreateError)
  deriving DecidableEq, Repr

/-- What is to be launched. -/
structure Launch where
  /-- The name of the program file. -/
  program : String
  settings : Settings
  /-- The level of the log. -/
  level : Log.Level
  deriving DecidableEq, Repr

/-- What starting up comes to. -/
inductive Boot where
  /-- Help was asked for. -/
  | help
  /-- The command line is refused, for the reason given. -/
  | usage (reason : String)
  /-- The program cannot be read or loaded. -/
  | rejected (log : List Log.Entry)
  /-- Starting up breaks off. -/
  | broken (e : Breakdown)
  /-- A session runs, opened by these calls to the host. -/
  | running (log : List Log.Entry) (calls : List HostCall) (session : Session)

namespace Boot

/-- What a command line asks to launch, if that can be tried. -/
def ofArguments (host : HostMemory) (arguments : Arguments) : Except Boot Launch :=
  match arguments.level with
  | none       => .error (.broken .noLevel)
  | some level =>
      match arguments.choices.settings with
      | .error (.nothing s)     => .error (.broken (.nothing s))
      | .error (.notPositive s) => .error (.usage (Choices.Error.notPositive s).message)
      | .ok settings            =>
          match Screen.make host screenColumns screenRows with
          | .error e => .error (.broken (.screen e))
          | .ok _    =>
              if arguments.program.toList.contains '\x00' then .error (.broken .nullInName)
              else .ok ⟨arguments.program, settings, level⟩

/-- What the words of a command line ask to launch, if that can be tried. -/
def accepted (d : Dialect) (host : HostMemory) (words : List String) : Except Boot Launch :=
  match Arguments.parse d words with
  | .error .help      => .error .help
  | .error (.usage e) => .error (.usage e.message)
  | .ok arguments     => ofArguments host arguments

/-- The entry that logs why a program was not loaded. -/
def rejection (name : String) : Failure → List Log.Entry
  | .file e      => [.unreadable name e]
  | .complaint c => [.rejected name c]
  | _            => []

/-- Load the program and open a window. -/
def launch (host : HostMemory) (l : Launch) (contents : Except FileError (List UInt8))
    (random : RandomStream) (clock : Extended) : Boot :=
  let loaded :=
    (Machine.fresh l.settings.speed l.settings.toneHz random).loadFile l.program contents
  let log := loaded.reports.filter (·.visible l.level)
  match loaded.failure with
  | some e => .rejected (log ++ (rejection l.program e).filter (·.visible l.level))
  | none   =>
      match Session.create host (Console.ofMachine loaded.state) l.settings l.level clock with
      | .error e             => .broken (.window e)
      | .ok (session, calls) => .running log (calls ++ [.loop]) session

/-- Start up.  The file that the command line names is looked at only if a launch can be
    tried. -/
def start (d : Dialect) (host : HostMemory) (words : List String)
    (read : String → Except FileError (List UInt8)) (random : RandomStream) (clock : Extended) :
    Boot :=
  match accepted d host words with
  | .error b => b
  | .ok l    => launch host l (read l.program) random clock

/-- The exit status. -/
def status : Boot → Nat
  | .help          => 0
  | .usage _       => 2
  | .rejected _    => 1
  | .broken _      => 1
  | .running _ _ _ => 0

end Boot

end Chip8
