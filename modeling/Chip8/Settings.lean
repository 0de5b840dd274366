import Chip8.Layout
import Chip8.Number.Quantity

/-!
# Settings of a session

What can be chosen about a session.  Any numbers make settings; a session asks for
positive ones, and **`Choices.settings`** tells whether what was chosen gives them.
-/

namespace Chip8

/-- The settings of a session. -/
structure Settings where
  /-- The side of a pixel in the window. -/
  scale : Int
  /-- Instructions to a frame. -/
  speed : Int
  /-- Frames, and timer ticks, to a second. -/
  timerHz : Int
  /-- The frequency of the buzzer. -/
  toneHz : Int
  /-- Whether drawing waits for the display. -/
  vsync : Bool
  /-- Whether the statistics are shown. -/
  showStats : Bool
  deriving DecidableEq, Repr

namespace Settings

/-- The settings unless others are chosen. -/
def standard : Settings :=
  { scale := 10, speed := 10, timerHz := 60, toneHz := 440, vsync := false, showStats := true }

/-- The width of the window. -/
def windowWidth (s : Settings) : Int := screenColumns * s.scale

/-- The height of the window. -/
def windowHeight (s : Settings) : Int := screenRows * s.scale

/-- The seconds between two frames. -/
def interval (s : Settings) : Except Quantity.Error Quantity :=
  Quantity.dividedBy (.real (.finite 1)) (.whole s.timerHz)

end Settings

/-! ## Choosing -/

/-- A setting that is a number. -/
inductive Setting where
  | scale
  | speed
  | timerHz
  | toneHz
  deriving DecidableEq, Repr

/-- What a setting is called in reports. -/
def Setting.title : Setting → String
  | .scale   => "--scale"
  | .speed   => "--speed"
  | .timerHz => "--timer-hz"
  | .toneHz  => "--tone-hz"

/-- Settings as they are chosen: a number may also be set to nothing. -/
structure Choices where
  scale : Option Int
  speed : Option Int
  timerHz : Option Int
  toneHz : Option Int
  vsync : Bool
  showStats : Bool
  deriving DecidableEq, Repr

/-- The choice of the given settings. -/
def Settings.choices (s : Settings) : Choices :=
  { scale := s.scale, speed := s.speed, timerHz := s.timerHz, toneHz := s.toneHz
    vsync := s.vsync, showStats := s.showStats }

namespace Choices

/-- Why a session cannot run with the settings chosen. -/
inductive Error where
  /-- A setting must be positive and is not. -/
  | notPositive (s : Setting)
  /-- A setting is set to nothing. -/
  | nothing (s : Setting)
  deriving DecidableEq, Repr

/-- The report of settings that a session cannot run with. -/
def Error.message : Error → String
  | .notPositive s => s.title ++ " must be positive"
  | .nothing s     => s.title ++ " has no value"

/-- The number chosen for a setting, if it is positive. -/
def positive (s : Setting) : Option Int → Except Error Int
  | none   => .error (.nothing s)
  | some n => if n ≤ 0 then .error (.notPositive s) else .ok n

theorem positive_eq_ok {s : Setting} {chosen : Option Int} {n : Int} :
    positive s chosen = .ok n ↔ chosen = some n ∧ 0 < n := by
  cases chosen with
  | none   => simp [positive]
  | some m =>
      by_cases h : m ≤ 0
      · simp only [positive, h, if_true, Option.some.injEq, reduceCtorEq, false_iff]
        omega
      · simp only [positive, h, if_false, Option.some.injEq, Except.ok.injEq]
        omega

/-- The settings chosen, if a session can run with them; else the first that it cannot run
    with. -/
def settings (c : Choices) : Except Error Settings := do
  let scale ← positive .scale c.scale
  let speed ← positive .speed c.speed
  let timerHz ← positive .timerHz c.timerHz
  let toneHz ← positive .toneHz c.toneHz
  return { scale, speed, timerHz, toneHz, vsync := c.vsync, showStats := c.showStats }

end Choices

end Chip8
