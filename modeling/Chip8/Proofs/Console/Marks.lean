import Chip8.Proofs.Buzzer.Ledger
import Chip8.Proofs.Console.Run

/-! # The log of instructions and keys

    **`marks`** are what the reports of a console tell about its instructions and its
    keys: an instruction was begun, a key went down or came up, a press was taken for the
    register that waited for it.  Everything else, the buzzer above all, leaves no mark.

    * **`marks_cycle`**: a frame leaves the marks of its steps.
    * **`marks_signal`**: a key event leaves its own mark, and behind it that of the
      machine if it takes the press. -/

namespace Chip8

open Machine

/-- A trace of an instruction or of a key in the log. -/
inductive Mark where
  /-- An instruction was begun. -/
  | ran (i : Instruction)
  /-- A key went down. -/
  | pressed (key : Nat)
  /-- A key came up. -/
  | released (key : Nat)
  /-- A press of a key filled the register that waited. -/
  | resumed (key : Nat) (register : Int)
  deriving DecidableEq, Repr

namespace Mark

/-- The mark that an entry of the log is, if it is one. -/
def ofEntry? : Log.Entry → Option Mark
  | .trace _ i           => some (.ran i)
  | .key true k          => some (.pressed k)
  | .key false k         => some (.released k)
  | .resumed k register  => some (.resumed k register)
  | _                    => none

def ofMachine? : Machine.Report → Option Mark
  | .entry e   => ofEntry? e
  | .command _ => none

def ofConsole? : Console.Report → Option Mark
  | .entry e => ofEntry? e
  | _        => none

def ofKey : KeyEvent → Mark
  | .down k => .pressed k.val
  | .up k   => .released k.val

end Mark

def entryMarks (entries : List Log.Entry) : List Mark := entries.filterMap Mark.ofEntry?

theorem entryMarks_append (es es' : List Log.Entry) :
    entryMarks (es ++ es') = entryMarks es ++ entryMarks es' :=
  List.filterMap_append

theorem entryMarks_notes (i : Instruction) : entryMarks i.notes = [] := by
  cases hop : i.operation <;> simp only [Instruction.notes, hop] <;> rfl

theorem entryMarks_hearNotes {m : Machine} {r : Int} (hw : m.waiting = some r) (k : Key) :
    entryMarks (m.hearNotes (.down k)) = [.resumed k.val r] := by
  simp only [hearNotes, hw]
  rfl

namespace Console

/-- What the reports of a console tell about its instructions and its keys. -/
def marks (reports : List Report) : List Mark := reports.filterMap Mark.ofConsole?

theorem marks_append (rs rs' : List Report) : marks (rs ++ rs') = marks rs ++ marks rs' :=
  List.filterMap_append

theorem marks_entries (entries : List Log.Entry) :
    marks (entries.map .entry) = entryMarks entries :=
  List.filterMap_map

/-! ## Frames -/

/-- A reading of reports that does not heed what the buzzer does. -/
structure Heedless {α : Type} (read : Report → Option α) : Prop where
  command : ∀ c, read (.command c) = none
  call : ∀ c, read (.call c) = none
  toneOn : ∀ hertz, read (.entry (.toneOn hertz)) = none
  toneOff : read (.entry .toneOff) = none

variable {α : Type} {read : Report → Option α}

theorem Heedless.calls (h : Heedless read) (cs : List DeviceCall) :
    ((cs.map Buzzer.Report.call).map Report.ofBuzzer).filterMap read = [] := by
  induction cs with
  | nil => rfl
  | cons c rest ih => exact (List.filterMap_cons_none (h.call c)).trans ih

theorem Heedless.onsetNotes (h : Heedless read) (frequency : Quantity) :
    ((Buzzer.onsetNotes frequency).map Report.ofBuzzer).filterMap read = [] := by
  rw [Buzzer.onsetNotes]
  split
  · exact List.filterMap_cons_none (h.toneOn _)
  · rfl

theorem Heedless.start (h : Heedless read) (frequency : Quantity) (b : Buzzer) :
    ((b.start Buzzer.willing frequency).reports.map Report.ofBuzzer).filterMap read = [] := by
  simp only [Buzzer.start, Buzzer.issue_willing, List.map_append, List.filterMap_append, h.calls,
    h.onsetNotes, List.append_nil]

theorem Heedless.stop (h : Heedless read) (b : Buzzer) :
    ((b.stop Buzzer.willing).reports.map Report.ofBuzzer).filterMap read = [] := by
  cases hp : b.player with
  | none =>
      rw [Buzzer.stop_of_silent hp]
      exact List.filterMap_cons_none (h.command _)
  | some p =>
      rw [Buzzer.stop_of_playing hp, List.cons_append, List.map_cons, List.map_append]
      refine (List.filterMap_cons_none (h.command _)).trans ?_
      rw [List.filterMap_append, h.calls]
      exact List.filterMap_cons_none h.toneOff

/-- **WHAT A BUZZER DOES LEAVES NO TRACE** for such a reading. -/
theorem Heedless.obey (h : Heedless read) (b : Buzzer) (c : Command) :
    ((b.obey Buzzer.willing c).reports.map Report.ofBuzzer).filterMap read = [] := by
  cases c with
  | stop => exact h.stop b
  | play frequency =>
      have hcommand : ([.command (.play frequency)].map Report.ofBuzzer).filterMap read = [] :=
        List.filterMap_cons_none (h.command _)
      simp only [Buzzer.obey, Buzzer.play, Outcome.after, List.map_append, List.filterMap_append,
        hcommand, List.nil_append]
      split
      · exact h.start frequency b
      · split
        · rfl
        · simp only [Outcome.andThen]
          split
          · exact h.stop b
          · rw [List.map_append, List.filterMap_append, h.stop, h.start]
            rfl

/-- A reading of the reports of a console, for the reports of its machine. -/
def readMachine (read : Report → Option α) : Machine.Report → Option α
  | .entry e   => read (.entry e)
  | .command _ => none

theorem Heedless.relay (h : Heedless read) (b : Buzzer) (rs : List Machine.Report) :
    (Console.relay b rs).2.filterMap read = rs.filterMap (readMachine read) := by
  induction rs generalizing b with
  | nil => rfl
  | cons r rest ih =>
      cases r with
      | entry e =>
          show ([Report.entry e] ++ (Console.relay b rest).2).filterMap read = _
          rw [List.filterMap_append, ih]
          show _ = ([Machine.Report.entry e] ++ rest).filterMap (readMachine read)
          rw [List.filterMap_append]
          rfl
      | command c =>
          show ((b.obey Buzzer.willing c).reports.map Report.ofBuzzer ++ _).filterMap read = _
          rw [List.filterMap_append, ih, h.obey b c]
          rfl

/-- Of a frame, such a reading is a reading of its steps. -/
theorem Heedless.cycle (h : Heedless read) (c : Console) :
    c.cycle.reports.filterMap read
      = (frameLoop c.machine.begun).2.reports.filterMap fun e => read (.entry e) := by
  show (Console.relay c.buzzer c.machine.cycle.reports).2.filterMap read = _
  rw [h.relay, cycle_eq, List.filterMap_append, List.filterMap_map]
  exact List.append_nil _

theorem heedless_marks : Heedless Mark.ofConsole? :=
  ⟨fun _ => rfl, fun _ => rfl, fun _ => rfl, rfl⟩

theorem marks_relay (b : Buzzer) (rs : List Machine.Report) :
    marks (relay b rs).2 = rs.filterMap Mark.ofMachine? := by
  have hread : readMachine Mark.ofConsole? = Mark.ofMachine? := by
    funext r
    cases r <;> rfl
  rw [← hread]
  exact heedless_marks.relay b rs

theorem marks_cycle (c : Console) :
    marks c.cycle.reports = entryMarks (frameLoop c.machine.begun).2.reports :=
  heedless_marks.cycle c

/-! ## Keys -/

variable {c : Console}

theorem marks_tellAll (e : KeyEvent) :
    ∀ (ls : List Listener) (c : Console), c.machine.WellFormed →
      marks (tellAll e ls c).reports
        = if Listener.machine ∈ ls then entryMarks (c.machine.hearNotes e) else [] := by
  intro ls
  induction ls with
  | nil =>
      intro c _
      rfl
  | cons l rest ih =>
      intro c h
      cases l with
      | observer name =>
          have hmem : (Listener.machine ∈ Listener.observer name :: rest)
              ↔ Listener.machine ∈ rest := by
            simp only [List.mem_cons, reduceCtorEq, false_or]
          simp only [hmem]
          exact ih c h
      | machine =>
          have hrest := ih { c with machine := c.machine.heard e } (wellFormed_heard h e)
          -- a machine that is told once more has nothing to say
          have hquiet : entryMarks ((c.machine.heard e).hearNotes e) = [] := by
            rw [hearNotes_heard]
            rfl
          rw [hquiet, ite_self] at hrest
          rw [if_pos List.mem_cons_self, tellAll, tell_machine h]
          show marks ((c.machine.hearNotes e).map Report.entry ++ _) = _
          rw [marks_append, marks_entries, hrest, List.append_nil]

theorem marks_signal (h : c.machine.WellFormed) (hheeds : c.Heeds) (e : KeyEvent) :
    marks (c.signal e).reports = Mark.ofKey e :: entryMarks (c.machine.hearNotes e) := by
  have hheard := marks_tellAll e (heardBy c.handlers) { c with machine := c.machine.keyed e }
    (h.withKeypad _)
  have hown : marks [.entry (keyEntry e)] = [Mark.ofKey e] := by
    cases e <;> rfl
  have hlisten : Listener.machine ∈ heardBy c.handlers := hheeds
  show marks ([.entry (keyEntry e)]
    ++ (tellAll e (heardBy c.handlers) { c with machine := c.machine.keyed e }).reports) = _
  rw [marks_append, hheard, if_pos hlisten, hown]
  rfl

end Console

end Chip8
