import Chip8.Number.Decimal
import Chip8.Session

/-!
# Frames, statistics, and closing

* **`frame`** runs one frame of the console.  A complaint of the emulator ends the
  session: it is logged and the window is closed within the same frame.
* **`measure`** brings the statistics up to date once a second has passed.
* **`close`** stops the callbacks and silences the buzzer.  A closed session runs no
  more frames.
-/

namespace Chip8.Session

/-- Close the window: nothing is called back any more, and the buzzer falls silent. -/
def close (s : Session) : Result :=
  Outcome.after [.call (.unschedule .frame), .call (.unschedule .statistics)] <|
    ({ s with scheduled := [] }.onConsole Console.silence).andThen fun s =>
      ⟨{ s with closed := true }, [.call .closed], none⟩

/-- Run one frame, unless the window has been closed.  A complaint closes it. -/
def frame (s : Session) : Result :=
  if s.closed then .done s
  else
    let o := s.onConsole Console.cycle
    match o.failure with
    | some (.complaint c) =>
        Outcome.after (o.reports ++ seen s.level (.failed c)) o.state.close
    | _                   => o

/-- How often in a second something happened that happened so many times meanwhile, if at
    least a second has passed. -/
def rate? : Extended → Option (Int → Rat)
  | .finite seconds => if seconds < 1 then none else some fun n => Binary64.nearest (n / seconds)
  | .infinite false => some fun _ => 0
  | _               => none

/-- Bring the statistics up to date, if a second has passed since they last were. -/
def measure (s : Session) : Session :=
  match rate? (Binary64.difference s.clock s.measuredAt) with
  | none      => s
  | some rate =>
      let executed := s.console.machine.executed
      { s with
        frameLabel := frameLabelOf s.settings (Decimal.fixed 1 (rate s.drawn))
        speedLabel := speedLabelOf s.settings
          (Decimal.fixed 0 (rate ((executed : Int) - s.executedThen)))
        drawn := 0
        executedThen := executed
        measuredAt := s.clock }

/-- Answer a callback. -/
def call (s : Session) : Callback → Result
  | .frame      => s.frame
  | .statistics => .done s.measure

/-- Answer callbacks one after the other. -/
def callAll : List Callback → Session → Result
  | [],      s => .done s
  | c :: cs, s => (s.call c).andThen (callAll cs)

/-- Answer every callback that is scheduled now. -/
def tick (s : Session) : Result := callAll s.scheduled s

/-- Set the clock. -/
def setClock (s : Session) (clock : Extended) : Session := { s with clock }

end Chip8.Session
