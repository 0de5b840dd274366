import Chip8.Console
import Chip8.Host
import Chip8.Settings

/-!
# The window session

A console behind a window.  **`Session.create`** makes the window, its image and labels,
and schedules two callbacks: one for every frame, and one a second for the statistics.
Pictures go to the host bottom row first.  Log entries below the level in force are not
reported.
-/

namespace Chip8

/-- A console behind a window. -/
structure Session where
  console : Console
  settings : Settings
  /-- The memory that pictures are made in. -/
  host : HostMemory
  /-- The level of the log in force. -/
  level : Log.Level
  /-- The time, in seconds, as a binary number. -/
  clock : Extended
  /-- When the statistics were last taken. -/
  measuredAt : Extended
  /-- Pictures drawn since then. -/
  drawn : Nat
  /-- Instructions completed by then. -/
  executedThen : Nat
  frameLabel : Label
  speedLabel : Label
  /-- The picture that the host's image holds. -/
  picture : Image
  /-- The callbacks that the clock calls, in the order in which they were scheduled. -/
  scheduled : List Callback
  /-- Whether the window has been closed. -/
  closed : Bool

namespace Session

/-- The title of the window. -/
def title : String := "CHIP-8 Emulator"

/-- What a session reports while it works. -/
inductive Report where
  /-- An entry of the log that is seen. -/
  | entry (e : Log.Entry)
  /-- A call to the host. -/
  | call (c : HostCall)
  deriving Repr

/-- The outcome of an event. -/
abbrev Result := Outcome Failure Report Session

/-- Why a session cannot be created. -/
inductive CreateError where
  /-- The picture cannot be made. -/
  | screen (e : Screen.Error)
  /-- The callbacks cannot be scheduled. -/
  | interval (e : Quantity.Error)
  deriving DecidableEq, Repr

/-- The picture of a machine at a scale, bottom row first. -/
def pictureOf (host : HostMemory) (m : Machine) (scale : Int) : Except Screen.Error Image :=
  m.screen.image host scale true .white

/-- The label that shows pictures to a second. -/
def frameLabelOf (settings : Settings) (text : String) : Label :=
  ⟨"FPS: " ++ text, settings.windowHeight - 15⟩

/-- The label that shows instructions to a second. -/
def speedLabelOf (settings : Settings) (text : String) : Label :=
  ⟨"Instructions/s: " ++ text, settings.windowHeight - 30⟩

/-- Create a session on a console at a time, with the calls that open its window. -/
def create (host : HostMemory) (console : Console) (settings : Settings) (level : Log.Level)
    (clock : Extended) : Except CreateError (Session × List HostCall) := do
  let picture ← (pictureOf host console.machine settings.scale).mapError .screen
  let interval ← settings.interval.mapError .interval
  let frameLabel := frameLabelOf settings "0"
  let speedLabel := speedLabelOf settings "0"
  let session : Session := {
    console, settings, host, level, clock, frameLabel, speedLabel, picture
    measuredAt := clock
    drawn := 0
    executedThen := 0
    scheduled := [.frame, .statistics]
    closed := false }
  return (session,
    [ .window settings.windowWidth settings.windowHeight settings.vsync,
      .image settings.windowWidth settings.windowHeight picture,
      .label frameLabel, .label speedLabel,
      .schedule .frame interval, .schedule .statistics (.real (.finite 1)) ])

/-! ## Reporting -/

/-- The reports of a log entry under a level: none if it is not seen. -/
def seen (level : Log.Level) (e : Log.Entry) : List Report :=
  if e.visible level then [.entry e] else []

/-- A console's report as a session's. -/
def reportOf (level : Log.Level) : Console.Report → List Report
  | .entry e      => seen level e
  | .call c       => [.call (.audio c)]
  | .command _    => []
  | .observed _ _ => []

/-- An operation on the console alone. -/
def onConsole (s : Session) (f : Console → Console.Result) : Result :=
  ((f s.console).mapState fun console => { s with console }).mapReports (reportOf s.level)

end Session

end Chip8
