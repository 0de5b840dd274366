import Chip8.Log

/-!
# Options of the command line

The options with their names, and what can be wrong with a command line.
-/

namespace Chip8

/-- The options. -/
inductive Choice where
  | help
  | scale
  | speed
  | timerHz
  | toneHz
  | vsync
  | noStats
  | logLevel
  deriving DecidableEq, Repr

namespace Choice

/-- The names of options, in the order in which they are listed. -/
def names : List (String × Choice) :=
  [ ("-h", .help), ("--help", .help), ("--scale", .scale), ("--speed", .speed),
    ("--hz", .timerHz), ("--tone", .toneHz), ("--vsync", .vsync), ("--no-stats", .noStats),
    ("--log-level", .logLevel) ]

/-- What an option is called in reports. -/
def title : Choice → String
  | .help     => "-h/--help"
  | .scale    => "--scale"
  | .speed    => "--speed"
  | .timerHz  => "--hz"
  | .toneHz   => "--tone"
  | .vsync    => "--vsync"
  | .noStats  => "--no-stats"
  | .logLevel => "--log-level"

end Choice

/-- Why a command line is refused. -/
inductive UsageError where
  /-- A word begins the names of several options. -/
  | ambiguous (word : String) (candidates : List String)
  /-- An option lacks its value. -/
  | noValue (choice : Choice)
  /-- An option that takes no value was given one. -/
  | extraValue (choice : Choice) (value : String)
  /-- A value is not an integer. -/
  | notInteger (choice : Choice) (value : String)
  /-- A value is not a level of the log. -/
  | notLevel (value : String)
  /-- No program file was named. -/
  | noProgram
  /-- Words that mean nothing. -/
  | unrecognized (words : List String)
  deriving DecidableEq, Repr

/-- The report of a refused command line. -/
def UsageError.message : UsageError → String
  | .ambiguous word candidates =>
      "ambiguous option: " ++ word ++ " could match " ++ ", ".intercalate candidates
  | .noValue choice            => "argument " ++ choice.title ++ ": expected one argument"
  | .extraValue choice value   =>
      "argument " ++ choice.title ++ ": ignored explicit argument " ++ Quoted.encode value
  | .notInteger choice value   =>
      "argument " ++ choice.title ++ ": invalid int value: " ++ Quoted.encode value
  | .notLevel value            =>
      "argument " ++ Choice.logLevel.title ++ ": invalid choice: " ++ Quoted.encode value
        ++ " (choose from "
        ++ ", ".intercalate (Log.Level.all.map fun l => Quoted.encode l.name) ++ ")"
  | .noProgram                 => "the following arguments are required: rom"
  | .unrecognized words        => "unrecognized arguments: " ++ " ".intercalate words

end Chip8
