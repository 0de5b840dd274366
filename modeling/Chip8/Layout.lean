/-! # Machine layout

    Sizes and addresses that every part of the machine agrees on, and the built-in
    glyphs of the sixteen hexadecimal digits. -/

namespace Chip8

def memorySize : Nat := 4096

/-- Where programs are loaded and started. -/
def programStart : Nat := 0x200

/-- The number of bytes between the start of a program and the end of memory. -/
def programCapacity : Nat := memorySize - programStart

def registerCount : Nat := 16

/-- The number of return addresses that the stack holds. -/
def stackDepth : Nat := 16

def screenColumns : Nat := 64

def screenRows : Nat := 32

/-- Where the glyphs are kept. -/
def fontStart : Nat := 0

def glyphSize : Nat := 5

/-- The address that a number selects: only its low twelve bits reach memory. -/
def addressOf (i : Int) : Int := i % memorySize

/-- The glyphs of the digits `0` to `F`, five rows of pixels each. -/
def font : List UInt8 :=
  [ 0xF0, 0x90, 0x90, 0x90, 0xF0,
    0x20, 0x60, 0x20, 0x20, 0x70,
    0xF0, 0x10, 0xF0, 0x80, 0xF0,
    0xF0, 0x10, 0xF0, 0x10, 0xF0,
    0x90, 0x90, 0xF0, 0x10, 0x10,
    0xF0, 0x80, 0xF0, 0x10, 0xF0,
    0xF0, 0x80, 0xF0, 0x90, 0xF0,
    0xF0, 0x10, 0x20, 0x40, 0x40,
    0xF0, 0x90, 0xF0, 0x90, 0xF0,
    0xF0, 0x90, 0xF0, 0x10, 0xF0,
    0xF0, 0x90, 0xF0, 0x90, 0x90,
    0xE0, 0x90, 0xE0, 0x90, 0xE0,
    0xF0, 0x80, 0x80, 0x80, 0xF0,
    0xE0, 0x90, 0x90, 0x90, 0xE0,
    0xF0, 0x80, 0xF0, 0x80, 0xF0,
    0xF0, 0x80, 0xF0, 0x80, 0x80 ]

end Chip8
