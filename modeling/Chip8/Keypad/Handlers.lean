import Chip8.Keypad

/-!
# Handler stacks

Events go to a stack of handlers, the newest first.  A handler may stop every event it
is given; those below it then hear nothing.
-/

namespace Chip8

/-- One handler on the stack. -/
structure Handler (α : Type) where
  receiver : α
  /-- Whether events stop here. -/
  stops : Bool
  deriving DecidableEq, Repr

/-- Who hears an event, in the order in which they hear it. -/
def heardBy {α : Type} : List (Handler α) → List α
  | []      => []
  | h :: hs => h.receiver :: if h.stops then [] else heardBy hs

/-- A handler is always heard before those below it. -/
theorem heardBy_cons {α : Type} (h : Handler α) (hs : List (Handler α)) :
    heardBy (h :: hs) = h.receiver :: if h.stops then [] else heardBy hs := rfl

/-- Where nobody stops events, everybody hears them. -/
theorem heardBy_of_unstopped {α : Type} (hs : List (Handler α))
    (h : ∀ x ∈ hs, x.stops = false) : heardBy hs = hs.map (·.receiver) := by
  induction hs with
  | nil => rfl
  | cons x xs ih =>
      rw [heardBy_cons, h x (by simp), ih fun y hy => h y (by simp [hy])]
      rfl

end Chip8
