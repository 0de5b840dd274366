import Chip8.Host
import Chip8.Number.Binary64
import Chip8.Text.Integer

/-!
# Host events

Everything that can happen to a session, as data.  Events also have a written form, one
to a line, for hosts without a window.
-/

namespace Chip8

/-- What can happen to a session. -/
inductive HostEvent where
  /-- Every scheduled callback is due. -/
  | tick
  /-- One callback is due. -/
  | callback (c : Callback)
  /-- The clock has moved to a time, a binary number of seconds. -/
  | clock (seconds : Extended)
  /-- The window needs a picture. -/
  | draw
  /-- A host key has gone down. -/
  | press (symbol : String)
  /-- A host key has come up. -/
  | release (symbol : String)
  /-- The window is being closed. -/
  | close
  deriving DecidableEq, Repr

namespace HostEvent

/-- The event that a line describes. -/
def ofLine? (line : String) : Option HostEvent :=
  match line.splitOn " " with
  | ["tick"]            => some .tick
  | ["draw"]            => some .draw
  | ["close"]           => some .close
  | ["press", symbol]   => some (.press symbol)
  | ["release", symbol] => some (.release symbol)
  | ["time", seconds]   => (Integer.read? seconds).map fun n => .clock (Binary64.round n)
  | _                   => none

end HostEvent

end Chip8
