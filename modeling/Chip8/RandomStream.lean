/-! # Random streams

    A stream of random bytes is fixed in advance; drawing from it moves on by one. -/

namespace Chip8

/-- A stream of bytes and how many have been drawn. -/
structure RandomStream where
  byte : Nat → UInt8
  drawn : Nat

namespace RandomStream

/-- The byte that is drawn next. -/
def next (r : RandomStream) : UInt8 := r.byte r.drawn

/-- The stream after one draw. -/
def advance (r : RandomStream) : RandomStream := { r with drawn := r.drawn + 1 }

/-- The stream that goes round a list of numbers, of which only the low eight bits count;
    an empty list gives zeros. -/
def cycling (numbers : List Int) : RandomStream where
  byte i := UInt8.ofNat ((numbers.getD (i % numbers.length) 0) % 256).toNat
  drawn := 0

end RandomStream

end Chip8
