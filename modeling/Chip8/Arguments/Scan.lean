import Chip8.Arguments.Token
import Chip8.Settings
import Chip8.Text.Integer

/-!
# Reading the command line

A **`Scan`** reads the sorted words from the left: an option takes the value joined to it
or the plain word behind it, the first plain word left over is the program file, and
everything else is collected as unrecognized.  Help and errors end it at once.

Not all releases of the reader agree on what is joined to an option without being its
value: two hyphens, and letters behind `-h`.  A **`Dialect`** says what becomes of them.
-/

namespace Chip8

/-- What a command line asks for. -/
structure Arguments where
  /-- The name of the program file. -/
  program : String
  choices : Choices
  /-- The level of the log, unless it is set to nothing. -/
  level : Option Log.Level
  deriving DecidableEq, Repr

/-- Why reading a command line ends early. -/
inductive Stop where
  /-- Help was asked for. -/
  | help
  /-- The command line is refused. -/
  | usage (e : UsageError)
  deriving DecidableEq, Repr

/-- What has been read of a command line so far. -/
structure Scan where
  program : Option String
  choices : Choices
  level : Option Log.Level
  /-- Words that mean nothing, in order. -/
  extras : List String
  deriving DecidableEq, Repr

/-- What releases of the reader do not agree on. -/
structure Dialect where
  /-- Two hyphens joined to an option that takes a value are dropped, which leaves it set to
      nothing.  Otherwise they are its value. -/
  dropsHyphens : Bool
  /-- An equals sign behind `-h` is overlooked, and letters that are no options are refused.
      Otherwise it is the other way round. -/
  refusesLetters : Bool
  deriving DecidableEq, Repr

namespace Dialect

/-- The releases up to a certain one. -/
def earlier : Dialect := ⟨true, true⟩

/-- The releases from then on. -/
def later : Dialect := ⟨false, false⟩

/-- What letters behind `-h` come to.  They are options of one letter, run together: another
    `h` is help again.  What else stands there may be taken for a value, which help cannot
    take. -/
def helpLetters (d : Dialect) (cs : List Char) : Stop :=
  if d.refusesLetters then
    let letters := if cs.head? = some '=' then cs.tail else cs
    let rest := letters.dropWhile (· == 'h')
    if rest.isEmpty && !letters.isEmpty then .help
    else .usage (.extraValue .help (String.ofList rest))
  else
    match cs.dropWhile (· == 'h') with
    | '=' :: value => .usage (.extraValue .help (String.ofList value))
    | '-' :: rest  => .usage (.extraValue .help (String.ofList ('-' :: rest)))
    | _            => .help

end Dialect

namespace Scan

/-- What is chosen unless the command line says otherwise. -/
def defaults : Choices :=
  { scale := some 10, speed := some 10, timerHz := some 60, toneHz := some 440
    vsync := false, showStats := true }

/-- Nothing read yet. -/
def start : Scan := ⟨none, defaults, some .warning, []⟩

/-- One more word that means nothing. -/
def extra (s : Scan) (word : String) : Scan := { s with extras := s.extras ++ [word] }

/-- Set an option that takes a value. -/
def setValue (s : Scan) (c : Choice) (value : String) : Except Stop Scan :=
  let number : Except Stop Int :=
    match Integer.read? value with
    | none   => .error (.usage (.notInteger c value))
    | some n => .ok n
  match c with
  | .scale    => do return { s with choices.scale := some (← number) }
  | .speed    => do return { s with choices.speed := some (← number) }
  | .timerHz  => do return { s with choices.timerHz := some (← number) }
  | .toneHz   => do return { s with choices.toneHz := some (← number) }
  | .logLevel =>
      match Log.Level.ofName? value with
      | none   => .error (.usage (.notLevel value))
      | some l => .ok { s with level := some l }
  | .help | .vsync | .noStats => .error (.usage (.extraValue c value))

/-- Set an option to the value joined to it, or to nothing. -/
def setJoined (s : Scan) (d : Dialect) (c : Choice) (value : String) : Except Stop Scan :=
  if d.dropsHyphens && value == "--" then
    match c with
    | .scale    => .ok { s with choices.scale := none }
    | .speed    => .ok { s with choices.speed := none }
    | .timerHz  => .ok { s with choices.timerHz := none }
    | .toneHz   => .ok { s with choices.toneHz := none }
    | .logLevel => .ok { s with level := none }
    | .help | .vsync | .noStats => s.setValue c value
  else s.setValue c value

/-- Set an option that takes no value, unless it takes one and lacks it. -/
def setBare (s : Scan) : Choice → Except Stop Scan
  | .help    => .error .help
  | .vsync   => .ok { s with choices.vsync := true }
  | .noStats => .ok { s with choices.showStats := false }
  | c        => .error (.usage (.noValue c))

/-- Whether an option takes a value. -/
def takesValue : Choice → Bool
  | .scale | .speed | .timerHz | .toneHz | .logLevel => true
  | .help | .vsync | .noStats                        => false

/-- Name the program file, unless it has been named: then the word means nothing. -/
def takeWord (s : Scan) (word : String) : Scan :=
  match s.program with
  | none   => { s with program := some word }
  | some _ => s.extra word

/-- Read sorted words from the left.  A barrier next to the word that names the program file
    belongs to it; any other barrier means nothing. -/
def run (d : Dialect) : List Token → Scan → Except Stop Scan
  | [], s => .ok s
  | .plain word :: .barrier :: behind, s =>
      if s.program.isNone then run d behind (s.takeWord word)
      else run d (.barrier :: behind) (s.takeWord word)
  | .plain word :: rest, s => run d rest (s.takeWord word)
  | .barrier :: .plain word :: behind, s =>
      if s.program.isNone then run d behind (s.takeWord word)
      else run d (.plain word :: behind) (s.extra "--")
  | .barrier :: rest, s => run d rest (s.extra "--")
  | .unknown word :: rest, s => run d rest (s.extra word)
  | .choice c (some (.equals value)) :: rest, s => do run d rest (← s.setJoined d c value)
  | .choice c (some (.letters letters)) :: rest, s =>
      if c = .help then .error (d.helpLetters letters.toList)
      else do run d rest (← s.setJoined d c letters)
  | .choice c none :: .plain value :: behind, s =>
      if takesValue c then do run d behind (← s.setValue c value)
      else do run d (.plain value :: behind) (← s.setBare c)
  | .choice c none :: rest, s => do run d rest (← s.setBare c)

/-- What was read, if it makes up a command line. -/
def finish (s : Scan) : Except Stop Arguments :=
  match s.program with
  | none         => .error (.usage .noProgram)
  | some program =>
      if s.extras.isEmpty then .ok ⟨program, s.choices, s.level⟩
      else .error (.usage (.unrecognized s.extras))

end Scan

end Chip8
