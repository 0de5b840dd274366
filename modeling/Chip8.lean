import Chip8.Buzzer.Tone
import Chip8.Main
import Chip8.Proofs.Screen.Flip
import Chip8.Proofs.Screen.Calls
import Chip8.Proofs.Screen.Images
import Chip8.Proofs.Machine.Effect
import Chip8.Proofs.Machine.Cycle
import Chip8.Proofs.Machine.Painting
import Chip8.Proofs.Console.Keys
import Chip8.Proofs.Console.Run
import Chip8.Proofs.Console.Halt
import Chip8.Proofs.Console.Marks
import Chip8.Proofs.Console.KeyPath
import Chip8.Proofs.Console.KeyWait
import Chip8.Proofs.Instruction.Shapes
import Chip8.Proofs.Machine.Fault
import Chip8.Proofs.Machine.Course
import Chip8.Proofs.Console.Speed
import Chip8.Proofs.Machine.Reach
import Chip8.Proofs.Console.Subroutine
import Chip8.Proofs.Console.Stores
import Chip8.Proofs.Console.Timers
import Chip8.Proofs.Buzzer.Ledger
import Chip8.Proofs.Console.Sound
import Chip8.Proofs.Console.NetKeys
import Chip8.Proofs.Console.Replay
import Chip8.Proofs.Console.Unseen
import Chip8.Proofs.Console.Rest
import Chip8.Proofs.Session.Events
import Chip8.Proofs.Session.Picture
import Chip8.Proofs.Session.Close
import Chip8.Proofs.Buzzer.Lives
import Chip8.Proofs.Console.Trace
import Chip8.Proofs.Machine.Mark
import Chip8.Proofs.Session.Presentation
import Chip8.Proofs.Boot.Interval
import Chip8.Proofs.Boot.Start
import Chip8.Proofs.Machine.Decoding
import Chip8.Proofs.Machine.Arithmetic
import Chip8.Proofs.Machine.Drawing
import Chip8.Proofs.Machine.Redrawing
import Chip8.Proofs.Console.ManyKeys
import Chip8.Proofs.Console.Saving
import Chip8.Proofs.Screen.Canvas
import Chip8.Proofs.Buzzer.Refusals
import Chip8.Proofs.Buzzer.Held
import Chip8.Proofs.Machine.Reload
import Chip8.Proofs.Machine.Control
import Chip8.Proofs.Instruction.Texts
import Chip8.Proofs.Machine.Listing
import Chip8.Proofs.Console.Digits
import Chip8.Proofs.Session.HostKeys
import Chip8.Proofs.Arguments.RoundTrip
