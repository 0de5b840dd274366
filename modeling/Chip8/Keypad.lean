/-! # The keypad

    Sixteen keys, each held or not.  Pressing a key that is up and releasing one that
    is down are the only changes, and each is reported as one event; holding a key
    down reports nothing more.  A number outside the keypad is refused by name.

    Many keys may change at once (`plan`): releases come first, then presses, each in
    ascending order, and the smallest number that is no key stops the presses where
    it would have had its turn. -/

namespace Chip8

/-- A key of the keypad. -/
abbrev Key := Fin 16

/-- A change of one key. -/
inductive KeyEvent where
  | down (key : Key)
  | up (key : Key)
  deriving DecidableEq, Repr

/-- The key that an event is about. -/
def KeyEvent.key : KeyEvent → Key
  | .down k => k
  | .up k   => k

/-- The complaint about a number that is no key. -/
structure NotAKey where
  number : Int
  deriving DecidableEq, Repr

/-- The report of a number that is no key. -/
def NotAKey.message (e : NotAKey) : String :=
  "CHIP-8 key out of range: " ++ toString e.number

/-- The key with a number, if there is one. -/
def key? (number : Int) : Option Key :=
  if h : 0 ≤ number ∧ number < 16 then some ⟨number.toNat, by omega⟩ else none

/-- The state of the sixteen keys. -/
structure Keypad where
  down : Vector Bool 16
  deriving DecidableEq, Repr

namespace Keypad

def released : Keypad := ⟨Vector.replicate 16 false⟩

/-- Whether a key is held. -/
def holds (p : Keypad) (k : Key) : Bool := p.down[k]

/-- Whether the key with a number is held; a number that is no key never is. -/
def isHeld (p : Keypad) (number : Int) : Bool :=
  match key? number with
  | none   => false
  | some k => p.holds k

/-- The keypad after an event. -/
def after (p : Keypad) : KeyEvent → Keypad
  | .down k => ⟨p.down.set k true⟩
  | .up k   => ⟨p.down.set k false⟩

/-- The event that pressing a key amounts to: none if it is held already. -/
def press (p : Keypad) (number : Int) : Except NotAKey (Option KeyEvent) :=
  match key? number with
  | none   => .error ⟨number⟩
  | some k => .ok (if p.holds k then none else some (.down k))

/-- The event that releasing a key amounts to: none if it is up already. -/
def release (p : Keypad) (number : Int) : Except NotAKey (Option KeyEvent) :=
  match key? number with
  | none   => .error ⟨number⟩
  | some k => .ok (if p.holds k then some (.up k) else none)

theorem key?_val (k : Key) : key? (k.val : Int) = some k := by
  have h : 0 ≤ (k.val : Int) ∧ (k.val : Int) < 16 := by omega
  simp only [key?, dif_pos h]
  rfl

theorem holds_released (k : Key) : released.holds k = false := by
  simp [released, holds]

/-- A press changes the key that goes down, and no other. -/
theorem holds_after_down (p : Keypad) (j k : Key) :
    (p.after (.down j)).holds k = if k = j then true else p.holds k := by
  by_cases h : k = j
  · subst h
    simp [after, holds]
  · have hne : j.val ≠ k.val := fun e => h (Fin.ext e.symm)
    simp [after, holds, h, hne]

/-- A release changes the key that comes up, and no other. -/
theorem holds_after_up (p : Keypad) (j k : Key) :
    (p.after (.up j)).holds k = if k = j then false else p.holds k := by
  by_cases h : k = j
  · subst h
    simp [after, holds]
  · have hne : j.val ≠ k.val := fun e => h (Fin.ext e.symm)
    simp [after, holds, h, hne]

/-! ## Changing many keys at once -/

/-- The keys from 0 to 15. -/
def keys : List Key := List.finRange 16

/-- The releases that are due when only the wanted keys are to stay held. -/
def releases (p : Keypad) (wanted : List Int) : List KeyEvent :=
  (keys.filter fun k => p.holds k && !wanted.contains (k.val : Int)).map .up

/-- The presses that are due for the wanted numbers, taken in the order given, up to the
    first that is no key. -/
def presses (p : Keypad) : List Int → List KeyEvent × Option NotAKey
  | []           => ([], none)
  | number :: ns =>
      match p.press number with
      | .error e       => ([], some e)
      | .ok none       => p.presses ns
      | .ok (some e)   => let (es, bad) := p.presses ns; (e :: es, bad)

/-- Numbers in ascending order, each once. -/
def ascending (numbers : List Int) : List Int :=
  numbers.eraseDups.mergeSort (· ≤ ·)

/-- The events that make the wanted keys the held ones, and the complaint, if a wanted
    number is no key, that ends them. -/
def plan (p : Keypad) (wanted : List Int) : List KeyEvent × Option NotAKey :=
  let (downs, bad) := p.presses (ascending wanted)
  (p.releases wanted ++ downs, bad)

end Keypad

end Chip8
