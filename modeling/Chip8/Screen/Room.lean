import Chip8.Number.Word

/-! # Room for pixels

    Screens and images are kept in tables of bytes.  **`Room.check`** says whether there
    is room for a table with given sides, the outermost first.  Every side must be a word
    and not shorter than nothing; the number of bytes must be a word too, where a side of
    no length counts as one; and the host must have memory for the table, which one with a
    side of no length does not need. -/

namespace Chip8

/-- The memory of the host: for how many bytes at once there is room.  It does not matter
    when, or how often, it is asked. -/
structure HostMemory where
  grants : Nat → Bool

/-- Memory without an end. -/
def HostMemory.boundless : HostMemory := ⟨fun _ => true⟩

namespace Room

/-- Why there is no room for a table. -/
inductive Error where
  /-- A side is no machine word. -/
  | beyondWord
  /-- A side would be shorter than nothing. -/
  | negativeSide
  /-- The number of bytes is no machine word. -/
  | tooLarge
  /-- The host has not that much memory. -/
  | noMemory (sides : List Nat)
  deriving DecidableEq, Repr

/-- The number of bytes in a table that has `bytes` bytes for every place among the given
    sides; a side of no length counts as one. -/
def extent (bytes : Nat) : List Int → Except Error Nat
  | []            => .ok bytes
  | side :: sides =>
      if side = 0 then extent bytes sides
      else if side < 0 then .error .negativeSide
      else if Word.holds (bytes * side) then extent (bytes * side.toNat) sides
      else .error .tooLarge

/-- Whether a host has room for a table. -/
def check (host : HostMemory) (sides : List Int) : Except Error Unit :=
  if sides.all Word.holds then
    match extent 1 sides with
    | .error e  => .error e
    | .ok bytes =>
        if host.grants bytes || sides.contains 0 then .ok ()
        else .error (.noMemory (sides.map Int.toNat))
  else .error .beyondWord

end Room

end Chip8
