import Chip8.Buzzer
import Chip8.Screen.Image

/-!
# The host

What a session asks of the system around it: a window with an image and two lines of
text, callbacks at intervals, and an audio device.
-/

namespace Chip8

/-- What the clock calls back for. -/
inductive Callback where
  /-- A frame. -/
  | frame
  /-- The statistics. -/
  | statistics
  deriving DecidableEq, Repr

/-- A line of text in the window. -/
structure Label where
  text : String
  /-- How far above the bottom of the window it stands. -/
  height : Int
  deriving DecidableEq, Repr

namespace Label

/-- The size of the letters. -/
def fontSize : Nat := 12

/-- How far from the left a label begins. -/
def left : Nat := 5

/-- Which point of a label its place fixes: left and centre. -/
def anchor : String × String := ("left", "center")

/-- The colour of labels. -/
def pixel : Pixel := ⟨.white, 255⟩

end Label

/-- A call to the host. -/
inductive HostCall where
  /-- Open the window. -/
  | window (width height : Int) (vsync : Bool)
  /-- Make the image that the window shows. -/
  | image (width height : Int) (picture : Image)
  /-- Replace the picture of the image; a row of it has `pitch` bytes. -/
  | upload (pitch : Int) (picture : Image)
  /-- Wipe the window. -/
  | wipe
  /-- Show the image in the corner of the window. -/
  | blit
  /-- Make a label. -/
  | label (l : Label)
  /-- Show a label. -/
  | drawLabel (text : String)
  /-- Have a callback called at an interval in seconds. -/
  | schedule (c : Callback) (interval : Quantity)
  /-- Have a callback called no more. -/
  | unschedule (c : Callback)
  /-- Close the window. -/
  | closed
  /-- Wait for events until the window is closed. -/
  | loop
  /-- A call to the audio device. -/
  | audio (c : DeviceCall)
  deriving Repr

end Chip8
