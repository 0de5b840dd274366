import Chip8.Arguments.Choice
import Chip8.Text.Digit

/-!
# Words of the command line

**`Token.ofWord`** sorts a word by its look alone.  A word that begins with a hyphen is an
option if it is the name of one, or the beginning of exactly one name, with the option's
value perhaps joined to it by an equals sign; a bare hyphen, a negative number and an
unknown word with a space in it are plain words.  Two hyphens alone end the options:
behind them all words are plain.
-/

namespace Chip8

/-- What is written in the same word as an option. -/
inductive Attached where
  /-- A value behind the equals sign that ends the name of an option. -/
  | equals (value : String)
  /-- What stands behind the single letter of an option. -/
  | letters (rest : String)
  deriving DecidableEq, Repr

/-- A word of a command line by its look. -/
inductive Token where
  /-- A plain word. -/
  | plain (word : String)
  /-- An option, perhaps with a value attached. -/
  | choice (c : Choice) (attached : Option Attached)
  /-- What looks like an option and is none. -/
  | unknown (word : String)
  /-- Two hyphens alone, behind which all words are plain. -/
  | barrier
  deriving DecidableEq, Repr

namespace Token

/-- A word cut at its first equals sign. -/
def cut (cs : List Char) : List Char × Option (List Char) :=
  let before := cs.takeWhile (· != '=')
  match cs.drop before.length with
  | []         => (before, none)
  | _ :: after => (before, some after)

/-- Whether characters are decimal digits, at least one. -/
def isNumeral (cs : List Char) : Bool := !cs.isEmpty && cs.all Digit.isDigit

/-- Whether a word looks like a negative number: digits, perhaps with a point before the
    last of them.  A line feed at the end is overlooked. -/
def looksNegative : List Char → Bool
  | '-' :: cs =>
      let body := if cs.getLast? = some '\n' then cs.dropLast else cs
      let whole := body.takeWhile (· != '.')
      match body.drop whole.length with
      | []            => isNumeral whole
      | _ :: fraction => whole.all Digit.isDigit && isNumeral fraction
  | _         => false

/-- The options whose names a word of at least two characters may stand for, with what is
    attached to them.  A word with two hyphens may be cut short; a word with one may have
    letters joined to the name. -/
def candidates (cs : List Char) : List (String × Choice × Option Attached) :=
  if cs.take 2 = ['-', '-'] then
    let (stem, value) := cut cs
    let attached := value.map fun v => Attached.equals (String.ofList v)
    Choice.names.filterMap fun (name, c) =>
      if stem.isPrefixOf name.toList then some (name, c, attached) else none
  else
    Choice.names.filterMap fun (name, c) =>
      if name.toList = cs.take 2 then some (name, c, some (.letters (String.ofList (cs.drop 2))))
      else if cs.isPrefixOf name.toList then some (name, c, none)
      else none

/-- What is attached to a whole name by an equals sign. -/
def attachedTo (name : List Char) (value : List Char) : Attached :=
  if name.take 2 = ['-', '-'] then .equals (String.ofList value)
  else .letters (String.ofList ('=' :: value))

/-- A word before any barrier, by its look. -/
def ofWord (word : String) : Except UsageError Token :=
  let cs := word.toList
  let (stem, value) := cut cs
  if word = "--" then .ok .barrier
  else if cs.head? ≠ some '-' then .ok (.plain word)
  else
    match Choice.names.lookup word, value, Choice.names.lookup (String.ofList stem) with
    | some c, _, _           => .ok (.choice c none)
    | none, some v, some c   => .ok (.choice c (some (attachedTo stem v)))
    | _, _, _                =>
        if cs.length = 1 then .ok (.plain word)
        else
          match candidates cs with
          | [(_, c, attached)] => .ok (.choice c attached)
          | []                 =>
              if looksNegative cs || cs.contains ' ' then .ok (.plain word)
              else .ok (.unknown word)
          | several            => .error (.ambiguous word (several.map (·.1)))

/-- All words by their look: behind the first barrier they are plain. -/
def ofWords : List String → Except UsageError (List Token)
  | []            => .ok []
  | word :: words => do
      match ← ofWord word with
      | .barrier => return .barrier :: words.map .plain
      | token    => return token :: (← ofWords words)

end Token

end Chip8
