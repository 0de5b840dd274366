import Chip8.Proofs.Machine.Complaints
import Chip8.Proofs.Machine.Cycle

/-! # Programs press no keys

    The keypad is the host's.  On any machine, well-formed or not, an instruction leaves it as it
    is, and if the instruction fails, it is not for a number that is no key
    (**`unkeyed_execute`**); so it is with steps and with frames (**`unkeyed_cycle`**). -/

namespace Chip8

/-- Whether an operation failed for a number that is no key. -/
def Failure.ofKey : Failure → Bool
  | .key _ => true
  | _      => false

theorem none_ne_key (bad : NotAKey) : (none : Option Failure) ≠ some (.key bad) :=
  (Option.some_ne_none _).symm

theorem some_ne_key {e : Failure} (he : e.ofKey = false) (bad : NotAKey) :
    some e ≠ some (.key bad) := by
  rintro ⟨⟩
  exact Bool.false_ne_true he.symm

theorem some_ne_key_of_access {e : Failure} (he : e.ofAccess = true) (bad : NotAKey) :
    some e ≠ some (.key bad) := by
  rintro ⟨⟩
  exact Bool.false_ne_true he

namespace Machine

/-! ## Steps and frames -/

/-- The keypad is left as it was, and no number was refused for being no key. -/
structure Unkeyed {ω : Type} (m : Machine) (o : Outcome Failure ω Machine) : Prop where
  keypad : o.state.keypad = m.keypad
  failure : ∀ bad, o.failure ≠ some (.key bad)

theorem unkeyed_apply (i : Instruction) (m : Machine) : Unkeyed m (i.apply m) := by
  rcases i.apply_cases m with hplain | ⟨next, hkeys, happly⟩ | ⟨reason, happly⟩
  · exact ⟨hplain.state, fun bad hfail => some_ne_key_of_access (hplain.access _ hfail) bad rfl⟩
  · rw [happly]
    exact ⟨hkeys, none_ne_key⟩
  · rw [happly]
    exact ⟨rfl, some_ne_key rfl⟩

/-- **NO INSTRUCTION TOUCHES THE KEYPAD.** -/
theorem unkeyed_execute (m : Machine) (op : Opcode) : Unkeyed m (m.execute op) := by
  rw [execute]
  split
  · exact ⟨rfl, some_ne_key rfl⟩
  · rename_i i _
    exact { unkeyed_apply i m.advance with }

theorem unkeyed_step (m : Machine) : Unkeyed m m.step := by
  have hfetch := refusable_fetch m
  rw [step]
  split
  · rename_i e he
    exact ⟨rfl, some_ne_key_of_access (hfetch e he)⟩
  · rename_i op _
    obtain ⟨hkeypad, hfailure⟩ := unkeyed_execute m op
    simp only
    split <;> exact ⟨hkeypad, hfailure⟩

theorem unkeyed_frameLoop (m : Machine) : Unkeyed m (frameLoop m).2 := by
  have hkeypad : (frameLoop m).2.state.keypad = m.keypad :=
    frameLoop_preserves (P := (·.keypad = m.keypad))
      (fun s hs => (unkeyed_step s).keypad.trans hs) rfl
  refine ⟨hkeypad, fun bad hfail => ?_⟩
  cases hh : m.halted with
  | true =>
      rw [frameLoop_of_halted hh] at hfail
      exact none_ne_key bad hfail
  | false =>
      -- the loop fails with nothing but the failure of a step
      rcases frameLoop_cases (P := fun _ => True) hh (fun _ _ _ _ => trivial) trivial with
        ⟨hnone, _⟩ | ⟨s, e, _, _, hstep, hsome, _⟩
      · exact none_ne_key bad (hnone.symm.trans hfail)
      · obtain rfl : e = .key bad := Option.some.inj (hsome.symm.trans hfail)
        exact (unkeyed_step s).failure bad hstep

/-- **NO FRAME TOUCHES THE KEYPAD.** -/
theorem unkeyed_cycle (m : Machine) : Unkeyed m m.cycle := by
  obtain ⟨hkeypad, hfailure⟩ := unkeyed_frameLoop m.begun
  rw [cycle_eq]
  refine ⟨?_, hfailure⟩
  show (settled m.begun (frameLoop m.begun).2).keypad = m.keypad
  rw [(host_settled _ _).keypad]
  exact hkeypad

end Machine

end Chip8
