/-! # Help

    The text that answers a request for help, line by line, and the name under which
    errors of the command line are reported. -/

namespace Chip8.Help

/-- The name of the command. -/
def command : String := "chip8"

/-- The lines of the help text. -/
def lines : List String :=
  [ "usage: chip8 [-h] [--scale SCALE] [--speed SPEED] [--hz TIMER_HZ]",
    "             [--tone TONE_HZ] [--vsync] [--no-stats]",
    "             [--log-level \x7bDEBUG,INFO,WARNING,ERROR\x7d]",
    "             rom",
    "",
    "Run a CHIP-8 program.",
    "",
    "positional arguments:",
    "  rom                   Filename of the program image to load at 0x200.",
    "",
    "options:",
    "  -h, --help            show this help message and exit",
    "  --scale SCALE         Size of an individual pixel (e.g. 10 = a 10x10",
    "                        square).",
    "  --speed SPEED         Instructions executed per frame.",
    "  --hz TIMER_HZ         Frames (and timer decrements) per second.",
    "  --tone TONE_HZ        Buzzer frequency in Hz.",
    "  --vsync               Enable vertical sync.",
    "  --no-stats            Hide the FPS / instructions-per-second overlay.",
    "  --log-level \x7bDEBUG,INFO,WARNING,ERROR\x7d",
    "                        Logging level; DEBUG traces every instruction." ]

/-- The line that reports an error of the command line. -/
def errorLine (message : String) : String := command ++ ": error: " ++ message

end Chip8.Help
