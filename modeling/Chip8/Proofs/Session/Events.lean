import Chip8.Proofs.Console.Keys
import Chip8.Session.Event

/-! # What events come to

    An event comes to frames, statistics, key calls, a change of the trace or of the clock, and
    closing, one after the other, unless it is a drawing.  A relation between a session and an
    outcome that holds of these, and of a sequence if it holds of its parts (**`Lifts`**),
    holds of every event (**`Lifts.handle`**). -/

namespace Chip8

theorem Outcome.after_append {ε ω σ : Type} (first second : List ω) (o : Outcome ε ω σ) :
    o.after (first ++ second) = (o.after second).after first := by
  simp only [Outcome.after, List.append_assoc]

namespace Session

variable {s : Session} {o o' : Result}

/-- The session after a frame in which the emulator complained. -/
def ended (s : Session) (c : Complaint) : Result :=
  let o := s.onConsole Console.cycle
  (o.state.close.after (seen s.level (.failed c))).after o.reports

/-- **THE THREE WAYS OF A FRAME**: a closed session runs none, a complaint closes the session
    within it, and otherwise it is a frame of the console. -/
theorem frame_cases (s : Session) :
    (s.closed = true ∧ s.frame = .done s) ∨
    (s.closed = false ∧
      ∃ c, s.console.cycle.failure = some (.complaint c) ∧ s.frame = s.ended c) ∨
    (s.closed = false ∧ (∀ c, s.console.cycle.failure ≠ some (.complaint c)) ∧
      s.frame = s.onConsole Console.cycle) := by
  cases hclosed : s.closed with
  | true =>
      refine Or.inl ⟨rfl, ?_⟩
      rw [frame, if_pos hclosed]
  | false =>
      refine Or.inr ?_
      have hopen : ¬ s.closed = true := by
        rw [hclosed]
        exact Bool.false_ne_true
      by_cases hcomplaint : ∃ c, s.console.cycle.failure = some (.complaint c)
      · obtain ⟨c, hc⟩ := hcomplaint
        have hfailure : (s.onConsole Console.cycle).failure = some (.complaint c) := hc
        refine Or.inl ⟨rfl, c, hc, ?_⟩
        rw [frame, if_neg hopen]
        simp only [hfailure, Outcome.after_append]
        rfl
      · refine Or.inr ⟨rfl, fun c hc => hcomplaint ⟨c, hc⟩, ?_⟩
        rw [frame, if_neg hopen]
        simp only
        split
        · exact absurd ⟨_, ‹_›⟩ hcomplaint
        · rfl

/-- A relation between a session and what becomes of it, good for sessions of which `Inv`
    holds. -/
structure Lifts (Inv : Session → Prop) (R : Session → Result → Prop) : Prop where
  kept : ∀ {s o}, Inv s → R s o → Inv o.state
  still : ∀ {s}, Inv s → R s (.done s)
  next : ∀ {s o o'}, R s o → R o.state o' → R s (o'.after o.reports)
  frame : ∀ {s}, Inv s → R s s.frame
  measure : ∀ {s}, Inv s → R s (.done s.measure)
  clock : ∀ {s} (seconds : Extended), Inv s → R s (.done (s.setClock seconds))
  trace : ∀ {s}, Inv s → R s s.toggleTrace
  keys : ∀ {s} (call : Console.KeyCall), Inv s → R s (s.onConsole (·.performKeys call))
  close : ∀ {s}, Inv s → R s s.close

variable {Inv : Session → Prop} {R : Session → Result → Prop}

theorem Lifts.call (h : Lifts Inv R) (hs : Inv s) (c : Callback) : R s (s.call c) := by
  cases c with
  | frame => exact h.frame hs
  | statistics => exact h.measure hs

theorem Lifts.callAll (h : Lifts Inv R) (hs : Inv s) (cs : List Callback) :
    R s (callAll cs s) := by
  induction cs generalizing s with
  | nil => exact h.still hs
  | cons c rest ih =>
      have hfirst := h.call hs c
      show R s ((s.call c).andThen _)
      rw [Outcome.andThen]
      split
      · exact hfirst
      · exact h.next hfirst (ih (h.kept hs hfirst))

theorem Lifts.press (h : Lifts Inv R) (hs : Inv s) (symbol : String) : R s (s.press symbol) := by
  rw [Session.press]
  split
  · exact h.close hs
  · split
    · exact h.trace hs
    · split
      · exact h.still hs
      · exact h.keys (.press _) hs

theorem Lifts.release (h : Lifts Inv R) (hs : Inv s) (symbol : String) :
    R s (s.release symbol) := by
  rw [Session.release]
  split
  · exact h.still hs
  · exact h.keys (.release _) hs

/-- **EVERY EVENT BUT A DRAWING** comes to what the relation holds of. -/
theorem Lifts.handle (h : Lifts Inv R) (hs : Inv s) {e : HostEvent}
    (hdraw : e = .draw → R s s.draw) : R s (s.handle e) := by
  cases e with
  | tick => exact h.callAll hs s.scheduled
  | callback c => exact h.call hs c
  | clock seconds => exact h.clock seconds hs
  | draw => exact hdraw rfl
  | press symbol => exact h.press hs symbol
  | release symbol => exact h.release hs symbol
  | close => exact h.close hs

/-! ## Reports -/

def Report.call? : Report → Option HostCall
  | .call c  => some c
  | .entry _ => none

/-- The calls to the host among reports. -/
def hostCalls (reports : List Report) : List HostCall := reports.filterMap Report.call?

theorem hostCalls_append (rs rs' : List Report) :
    hostCalls (rs ++ rs') = hostCalls rs ++ hostCalls rs' :=
  List.filterMap_append ..

theorem hostCalls_seen (level : Log.Level) (e : Log.Entry) : hostCalls (seen level e) = [] := by
  rw [seen]
  split <;> rfl

end Session

end Chip8
