import Chip8.Host.Event
import Chip8.Session.Drawing
import Chip8.Session.Keys

/-!
# Sessions as state machines

A session is a state machine over host events: every event has an outcome, whatever
happened before.
-/

namespace Chip8.Session

/-- Handle an event. -/
def handle (s : Session) : HostEvent → Result
  | .tick            => s.tick
  | .callback c      => s.call c
  | .clock seconds   => .done (s.setClock seconds)
  | .draw            => s.draw
  | .press symbol    => s.press symbol
  | .release symbol  => s.release symbol
  | .close           => s.close

end Chip8.Session
