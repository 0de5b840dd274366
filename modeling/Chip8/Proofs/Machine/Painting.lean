import Chip8.Proofs.Machine.Cycle
import Chip8.Proofs.Screen.Calls

/-! # What reaches the screen

    A machine does nothing to its screen but call it (**`Screen.Painted`**): a drawing toggles
    pixels, clearing clears, and a frame is presented at its end (**`painted_cycle`**).

    A call that changes anything asks for the picture to be drawn again, and no call takes that
    back (**`Painted.eq_or_stale`**). -/

namespace Chip8

namespace Screen

variable {s s' s'' : Screen}

/-- A screen that has become another by calls. -/
def Painted (s s' : Screen) : Prop := ∃ calls, s' = s.after calls

theorem Painted.refl (s : Screen) : s.Painted s := ⟨[], rfl⟩

theorem Painted.trans (h : s.Painted s') (h' : s'.Painted s'') : s.Painted s'' := by
  obtain ⟨calls, rfl⟩ := h
  obtain ⟨later, rfl⟩ := h'
  exact ⟨calls ++ later, (List.foldl_append ..).symm⟩

theorem painted_performed (s : Screen) (call : Call) : s.Painted (s.performed call) :=
  ⟨[call], rfl⟩

theorem Bitmap.painted_flipAll (w : s.Bitmap) (points : List (Int × Int)) :
    s.Painted (s.flipAll points) := by
  induction points generalizing s with
  | nil => exact Painted.refl s
  | cons p rest ih =>
      have hflip : s.performed (.toggle p.1 p.2) = s.flip p.1 p.2 := by
        rw [performed, w.toggle_eq]
      have hfirst := s.painted_performed (.toggle p.1 p.2)
      rw [hflip] at hfirst
      exact hfirst.trans (ih (w.flip p.1 p.2))

/-! ## What calls keep -/

theorem Standard.performed (w : s.Standard) (call : Call) : (s.performed call).Standard := by
  cases call with
  | toggle x y =>
      rw [Screen.performed, w.bitmap.toggle_eq]
      exact w.flip x y
  | clear => exact w.clear
  | present => exact w.present
  | lit x y => exact w
  | image scale flipped red green blue => exact w

theorem Standard.painted (w : s.Standard) (h : s.Painted s') : s'.Standard := by
  obtain ⟨calls, rfl⟩ := h
  induction calls generalizing s with
  | nil => exact w
  | cons call rest ih => exact ih (w.performed call)

theorem stale_after (h : s.stale = true) (calls : List Call) : (s.after calls).stale = true := by
  induction calls generalizing s with
  | nil => exact h
  | cons call rest ih =>
      refine ih ?_
      rcases s.performed_cases call with hsame | ⟨pixels, frames, hpainted⟩
      · rw [hsame]
        exact h
      · rw [hpainted]

/-- **NOTHING CHANGES UNNOTICED**: a screen that calls have changed is stale. -/
theorem Painted.eq_or_stale (h : s.Painted s') : s' = s ∨ s'.stale = true := by
  obtain ⟨calls, rfl⟩ := h
  induction calls generalizing s with
  | nil => exact Or.inl rfl
  | cons call rest ih =>
      have hcons : s.after (call :: rest) = (s.performed call).after rest := rfl
      rw [hcons]
      rcases s.performed_cases call with hsame | ⟨pixels, frames, hpainted⟩
      · rw [hsame]
        exact ih
      · rw [hpainted]
        exact Or.inr (stale_after rfl rest)

end Screen

namespace Machine

variable {m : Machine}

open Instruction

/-! ## Steps and frames -/

theorem painted_effect (h : m.WellFormed) (i : Instruction) :
    m.screen.Painted (i.effect m).screen := by
  by_cases hclear : i.operation = .clear
  · have heffect : (i.effect m).screen = m.screen.clear := by
      simp only [effect, hclear]
    rw [heffect]
    exact m.screen.painted_performed .clear
  by_cases hdraw : i.operation = .draw
  · have heffect : (i.effect m).screen
        = m.screen.flipAll (m.sprite (m.registers.get i.x) (m.registers.get i.y) i.n) := by
      simp only [effect, hdraw]
      rfl
    rw [heffect]
    exact h.screen_standard.bitmap.painted_flipAll _
  · have hreach : .screen ∉ i.operation.reach := by
      cases hop : i.operation <;> first | decide | contradiction
    have hsame : (i.effect m).screen = m.screen := same_effect i m hreach
    rw [hsame]
    exact .refl m.screen

theorem painted_step (h : m.WellFormed) : m.screen.Painted m.step.state.screen := by
  rcases step_cases h with ⟨i, _, _, he⟩ | ⟨i, reason, _, _, he⟩ | ⟨_, he⟩
  · rw [he]
    exact painted_effect h.advance i
  · rw [he]
    exact .refl m.screen
  · rw [he]
    exact .refl m.screen

theorem painted_frameLoop (h : m.WellFormed) :
    m.screen.Painted (frameLoop m).2.state.screen := by
  have hboth : (frameLoop m).2.state.WellFormed ∧ m.screen.Painted (frameLoop m).2.state.screen :=
    frameLoop_preserves (P := fun s => s.WellFormed ∧ m.screen.Painted s.screen)
      (fun s hs => ⟨wellFormed_step hs.1, hs.2.trans (painted_step hs.1)⟩) ⟨h, .refl m.screen⟩
  exact hboth.2

theorem screen_settled (m : Machine) (b : Outcome Failure Log.Entry Machine) :
    (settled m b).screen = b.state.screen := by
  rw [settled]
  split <;> rfl

/-- **A FRAME PAINTS**, also one that fails. -/
theorem painted_cycle (h : m.WellFormed) : m.screen.Painted m.cycle.state.screen := by
  have hloop : m.screen.Painted (frameLoop m.begun).2.state.screen :=
    painted_frameLoop (wellFormed_begun h)
  have hend : m.cycle.state.screen = (frameLoop m.begun).2.state.screen.performed .present := by
    rw [cycle_eq]
    show (settled m.begun _).screen.present = _
    rw [screen_settled]
    rfl
  rw [hend]
  exact hloop.trans (Screen.painted_performed _ _)

end Machine

end Chip8
