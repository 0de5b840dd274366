import Chip8.Session.Clock

/-!
# Host keys

Sixteen keys of the host's keyboard stand for the keypad, four by four from `1` to `V`.
Escape closes the window, and F1 switches the instruction trace; both only when they go
down.  All other keys mean nothing.
-/

namespace Chip8.Session

/-- The host keys that are keys of the keypad. -/
def keyMap : List (String × Nat) :=
  [ ("_1", 0x1), ("_2", 0x2), ("_3", 0x3), ("_4", 0xC),
    ("Q", 0x4), ("W", 0x5), ("E", 0x6), ("R", 0xD),
    ("A", 0x7), ("S", 0x8), ("D", 0x9), ("F", 0xE),
    ("Z", 0xA), ("X", 0x0), ("C", 0xB), ("V", 0xF) ]

/-- The host key that closes the window. -/
def closeKey : String := "ESCAPE"

/-- The host key that switches the instruction trace. -/
def traceKey : String := "F1"

/-- Switch the instruction trace: on, unless the log already shows everything. -/
def toggleTrace (s : Session) : Result :=
  let level : Log.Level := if s.level.rank ≤ Log.Level.debug.rank then .info else .debug
  ⟨{ s with level }, seen level (.tracing (level == .debug)), none⟩

/-- A host key goes down. -/
def press (s : Session) (symbol : String) : Result :=
  if symbol = closeKey then s.close
  else if symbol = traceKey then s.toggleTrace
  else
    match keyMap.lookup symbol with
    | none   => .done s
    | some k => s.onConsole fun c => (c.press k).outcome

/-- A host key comes up. -/
def release (s : Session) (symbol : String) : Result :=
  match keyMap.lookup symbol with
  | none   => .done s
  | some k => s.onConsole fun c => (c.release k).outcome

end Chip8.Session
