import Chip8.Machine
import Chip8.Outcome

/-!
# Key presses

A machine that waits for a key takes the first press it hears: the key's number goes to
the register it waits for, and it goes on.  It heeds nothing else.
-/

namespace Chip8.Machine

/-- Hear a key event. -/
def hear (m : Machine) : KeyEvent → Outcome Failure Log.Entry Machine
  | .up _   => .done m
  | .down k =>
      match m.waiting with
      | none          => .done m
      | some register =>
          match m.setRegister register k.val with
          | .error e   => .fail m e
          | .ok filled =>
              ⟨{ filled with waiting := none, paused := false }, [.resumed k.val register], none⟩

end Chip8.Machine
