import Chip8.Proofs.Console.Rest
import Chip8.Proofs.Console.Unseen
import Chip8.Proofs.Machine.Trace

/-! # The trace of a run

    Frames leave the trace of their steps, and keys leave none.  Once a frame has raised a fault
    the machine is halted and nothing is traced any more, so the parts of a run fit together
    (**`traced_run`**).  Under any higher level of the log nothing of it is seen
    (**`trace_is_complete`**). -/

namespace Chip8

open Machine

namespace Console

variable {c : Console}

/-- The line of the trace that a report is, if it is one. -/
def Report.traceLine? : Report → Option String
  | .entry e => e.traceLine?
  | _        => none

/-- The trace among reports. -/
def traceLines (reports : List Report) : List String := reports.filterMap Report.traceLine?

theorem traceLines_append (rs rs' : List Report) :
    traceLines (rs ++ rs') = traceLines rs ++ traceLines rs' :=
  List.filterMap_append ..

theorem heedless_traceLines : Heedless Report.traceLine? :=
  ⟨fun _ => rfl, fun _ => rfl, fun _ => rfl, rfl⟩

/-- The machine, at most one, from which a call begins an instruction that the stack is not
    fit for, if the call is a frame. -/
def refusedBy (c : Console) : Call → List Machine
  | .cycle =>
      if c.machine.halted then [] else Machine.refused c.machine.speed.toNat c.machine.begun
  | _      => []

/-- The machines from which the frames of a run begin an instruction that the stack is not fit
    for. -/
def refused (c : Console) : List Call → List Machine
  | []            => []
  | call :: calls => c.refusedBy call ++ (c.perform call).state.refused calls

/-! ## One call -/

theorem traced_cycle (h : c.machine.WellFormed) :
    Traced c.machine.executed (c.takenBy .cycle) (c.refusedBy .cycle)
      (traceLines c.cycle.reports) [c.cycle.failure] c.cycle.state.machine.executed := by
  have hlines : traceLines c.cycle.reports
      = (frameLoop c.machine.begun).2.reports.filterMap Log.Entry.traceLine? :=
    heedless_traceLines.cycle c
  have hfailure : c.cycle.failure = (frameLoop c.machine.begun).2.failure := by
    rw [failure_cycle, cycle_eq]
  have hexecuted :
      c.cycle.state.machine.executed = (frameLoop c.machine.begun).2.state.executed := by
    show c.machine.cycle.state.executed = _
    rw [cycle_eq]
    exact executed_settled _ _
  rw [hlines, hfailure, hexecuted, takenBy, refusedBy]
  cases hh : c.machine.halted with
  | true =>
      rw [frameLoop_of_halted (m := c.machine.begun) hh]
      exact .none _ rfl
  | false =>
      rw [frameLoop_eq_batch (m := c.machine.begun) hh]
      exact traced_batch _ (wellFormed_begun h)

theorem traced_keys (h : c.machine.WellFormed) (keys : KeyCall) :
    Traced c.machine.executed [] [] (traceLines (c.performKeys keys).reports)
      [(c.performKeys keys).failure] (c.performKeys keys).state.machine.executed := by
  have hcalm := calm_performKeys c keys
  have hlines : traceLines (c.performKeys keys).reports = [] := by
    refine hcalm.unread fun r hr => ?_
    cases r with
    | entry e => cases e <;> first | rfl | exact nomatch hr
    | _ => rfl
  rw [hlines, hcalm.machine.executed, performKeys_failure h]
  refine .none _ ?_
  cases (keys.plan c.machine.keypad).2 <;> rfl

/-- **A CALL IS TRACED** as far as it gets. -/
theorem traced_perform (h : c.machine.WellFormed) {call : Call} (hcall : call.isPlayed = true) :
    Traced c.machine.executed (c.takenBy call) (c.refusedBy call)
      (traceLines (c.perform call).reports) [(c.perform call).failure]
      (c.perform call).state.machine.executed := by
  rcases Call.isPlayed_cases hcall with rfl | ⟨keys, rfl⟩
  · exact traced_cycle h
  · exact traced_keys h keys

/-- A call that raises a fault halts the machine. -/
theorem halted_perform_of_fault (h : c.machine.WellFormed) {call : Call}
    (hcall : call.isPlayed = true) (hfault : faults [(c.perform call).failure] ≠ []) :
    (c.perform call).state.machine.halted = true := by
  rcases Call.isPlayed_cases hcall with rfl | ⟨keys, rfl⟩
  · cases he : c.cycle.failure with
    | none => exact absurd (congrArg (fun e => faults [e]) he) hfault
    | some e => exact halted_cycle h he
  · refine absurd ?_ hfault
    show faults [(c.performKeys keys).failure] = []
    rw [performKeys_failure h]
    cases (keys.plan c.machine.keypad).2 <;> rfl

/-! ## Runs -/

/-- A halted machine takes no step, raises no fault and stays halted. -/
theorem perform_of_halted (h : c.machine.WellFormed) (hh : c.machine.halted = true) {call : Call}
    (hcall : call.isPlayed = true) :
    c.takenBy call = [] ∧ c.refusedBy call = [] ∧ faults [(c.perform call).failure] = [] ∧
      (c.perform call).state.machine.halted = true := by
  rcases Call.isPlayed_cases hcall with rfl | ⟨keys, rfl⟩
  · obtain ⟨hnone, _, hstate⟩ := cycle_halted hh
    refine ⟨if_pos hh, if_pos hh, ?_, ?_⟩
    · show faults [c.cycle.failure] = []
      rw [hnone]
      rfl
    · show c.cycle.state.machine.halted = true
      rw [hstate]
      exact hh
  · refine ⟨rfl, rfl, ?_, ?_⟩
    · show faults [(c.performKeys keys).failure] = []
      rw [performKeys_failure h]
      cases (keys.plan c.machine.keypad).2 <;> rfl
    · show (c.performKeys keys).state.machine.halted = true
      rw [performKeys_state h, halted_afterKeys]
      exact hh

theorem run_of_halted (h : c.machine.WellFormed) (hh : c.machine.halted = true)
    {calls : List Call} (hcalls : ∀ call ∈ calls, call.isPlayed = true) :
    c.taken calls = [] ∧ c.refused calls = [] ∧ faults (c.failures calls) = [] := by
  induction calls generalizing c with
  | nil => exact ⟨rfl, rfl, rfl⟩
  | cons call rest ih =>
      obtain ⟨hplayed, hrest⟩ := List.forall_mem_cons.1 hcalls
      obtain ⟨htaken, hrefused, hfault, hhalted⟩ := perform_of_halted h hh hplayed
      obtain ⟨htaken', hrefused', hfault'⟩ := ih (wellFormed_perform h call) hhalted hrest
      refine ⟨?_, ?_, ?_⟩
      · rw [taken, htaken, htaken']
        rfl
      · rw [refused, hrefused, hrefused']
        rfl
      · show faults ([(c.perform call).failure] ++ _) = []
        rw [faults_append, hfault, hfault']
        rfl

/-- **A RUN IS TRACED**, and raises one fault at most. -/
theorem traced_run (h : c.machine.WellFormed) {calls : List Call}
    (hcalls : ∀ call ∈ calls, call.isPlayed = true) :
    Traced c.machine.executed (c.taken calls) (c.refused calls) (traceLines (c.runReports calls))
      (c.failures calls) (c.run calls).machine.executed ∧
    (faults (c.failures calls)).length ≤ 1 := by
  induction calls generalizing c with
  | nil => exact ⟨.none _ rfl, Nat.zero_le 1⟩
  | cons call rest ih =>
      obtain ⟨hplayed, hrest⟩ := List.forall_mem_cons.1 hcalls
      have hnext := wellFormed_perform h call
      have hfirst := traced_perform h hplayed
      obtain ⟨hlater, hcount⟩ := ih hnext hrest
      have hraised : c.failures (call :: rest)
          = [(c.perform call).failure] ++ (c.perform call).state.failures rest := rfl
      rw [runReports, traceLines_append, hraised, faults_append, taken, refused, run]
      by_cases hfault : faults [(c.perform call).failure] = []
      · rw [hfirst.eq_nil hfault, hfault]
        exact ⟨hfirst.next hfault hlater, hcount⟩
      -- after a fault there is nothing to trace
      · obtain ⟨htaken, hrefused, hnone⟩ :=
          run_of_halted hnext (halted_perform_of_fault h hplayed hfault) hrest
        rw [htaken, hrefused] at hlater
        rw [htaken, hrefused, hnone, List.append_nil, List.append_nil, List.append_nil]
        exact ⟨hfirst.end hlater hnone, List.length_filterMap_le ..⟩

end Console

/-! ## Sessions -/

namespace Session

variable {s : Session}

/-- The line of the trace that a report is, if it is one. -/
def Report.traceLine? : Report → Option String
  | .entry e => e.traceLine?
  | .call _  => none

/-- The trace among what is seen of the log. -/
def traceLines (reports : List Report) : List String := reports.filterMap Report.traceLine?

/-- What calls on the console of a session report, in order. -/
def drivenReports (s : Session) : List Console.Call → List Report
  | []            => []
  | call :: calls => (s.onConsole (·.perform call)).reports
      ++ (s.onConsole (·.perform call)).state.drivenReports calls

theorem drivenReports_eq (s : Session) (calls : List Console.Call) :
    s.drivenReports calls = (s.console.runReports calls).flatMap (reportOf s.level) := by
  induction calls generalizing s with
  | nil => rfl
  | cons call rest ih =>
      rw [drivenReports, ih, Console.runReports, List.flatMap_append]
      rfl

theorem visible_debug (e : Log.Entry) : e.visible .debug = true := by
  cases e <;> rfl

/-- No line of the trace is seen under a level above its own. -/
theorem not_visible_of_traced {level : Log.Level} (hlevel : level ≠ .debug) {e : Log.Entry}
    (he : e.traceLine? ≠ none) : e.visible level = false := by
  have hlow : e.level = .debug := by
    by_contra hother
    exact he (if_neg fun hboth => hother hboth.1)
  rw [Log.Entry.visible, hlow]
  cases level with
  | debug => exact absurd rfl hlevel
  | _ => rfl

theorem traceLines_reportOf_debug (r : Console.Report) :
    traceLines (reportOf .debug r) = r.traceLine?.toList := by
  cases r with
  | entry e =>
      show traceLines (seen .debug e) = e.traceLine?.toList
      rw [seen, visible_debug, if_pos rfl]
      cases he : e.traceLine? with
      | none => exact List.filterMap_cons_none he
      | some line => exact List.filterMap_cons_some he
  | _ => rfl

theorem traceLines_reportOf_above {level : Log.Level} (hlevel : level ≠ .debug)
    (r : Console.Report) : traceLines (reportOf level r) = [] := by
  cases r with
  | entry e =>
      show traceLines (seen level e) = []
      rw [seen]
      split
      · rename_i hseen
        refine List.filterMap_cons_none ?_
        by_contra htraced
        exact absurd hseen (Bool.eq_false_iff.1 (not_visible_of_traced hlevel htraced))
      · rfl
  | _ => rfl

/-- **THE TRACE IS SEEN AT ITS OWN LEVEL ONLY.** -/
theorem traceLines_driven (s : Session) (calls : List Console.Call) :
    traceLines (s.drivenReports calls)
      = if s.level = .debug then Console.traceLines (s.console.runReports calls) else [] := by
  rw [drivenReports_eq, traceLines, List.filterMap_flatMap]
  by_cases hlevel : s.level = .debug
  · have hread : (fun r => traceLines (reportOf .debug r))
        = fun r => Option.toList (Console.Report.traceLine? r) := funext traceLines_reportOf_debug
    rw [if_pos hlevel, hlevel]
    show (s.console.runReports calls).flatMap (fun r => traceLines (reportOf .debug r)) = _
    rw [hread, Console.traceLines, List.filterMap_eq_flatMap_toList]
  · rw [if_neg hlevel]
    exact List.flatMap_eq_nil_iff.2 fun r _ => traceLines_reportOf_above hlevel r

/-- **THE INSTRUCTION TRACE IS COMPLETE AND FAITHFUL.**  Over any frames and keys, on a
    well-formed machine and with the log at its lowest level:

    * the lines of the trace are, in order, one for every instruction that was carried out, and
      then one if a fault of the stack was raised: the address of the instruction, in three
      capital hexadecimal digits, and the mnemonic of the word that the memory held there at
      that moment;
    * at most one fault is raised, so the lines are as many as the instructions counted and the
      faults of the stack together;
    * under any other level no line is seen, and the console comes to the same. -/
theorem trace_is_complete (h : s.console.machine.WellFormed) (hlevel : s.level = .debug)
    {calls : List Console.Call} (hcalls : ∀ call ∈ calls, call.isPlayed = true) :
    let done := s.console.taken calls
    let refused := s.console.refused calls
    let lines := traceLines (s.drivenReports calls)
    let raised := faults (s.drivenFailures calls)
    let stackFaults := raised.filter Fault.ofStack
    lines.map some = (done ++ refused).map Machine.traceLine? ∧
    (∀ m ∈ done ++ refused, ∃ a b c : Fin 16,
      m.pc = 256 * (a : Nat) + 16 * (b : Nat) + (c : Nat) ∧
      (Hex.padded 3 m.pc).toList = [a, b, c].map fun d : Fin 16 => Hex.alphabet.getD d ' ') ∧
    raised.length ≤ 1 ∧
    refused.map (·.step.failure) = stackFaults.map (fun f => some (.fault f)) ∧
    (s.driven calls).console.machine.executed
      = s.console.machine.executed + done.length ∧
    lines.length = (s.driven calls).console.machine.executed - s.console.machine.executed
      + stackFaults.length ∧
    ∀ level, level ≠ .debug →
      let s' := { s with level }
      traceLines (s'.drivenReports calls) = [] ∧
      (s'.driven calls).console = (s.driven calls).console ∧
      s'.drivenFailures calls = s.drivenFailures calls := by
  intro done refused lines raised stackFaults
  obtain ⟨hstate, hfailures⟩ := s.driven_eq calls
  obtain ⟨htraced, hcount⟩ := Console.traced_run h hcalls
  have hlines : lines = Console.traceLines (s.console.runReports calls) :=
    (traceLines_driven s calls).trans (if_pos hlevel)
  rw [← hlines, ← hfailures] at htraced
  rw [← hfailures] at hcount
  rw [hstate]
  refine ⟨htraced.lines, ?_, hcount, htraced.refused, htraced.executed, ?_, ?_⟩
  · intro m hm
    obtain ⟨h₀, hlt⟩ := (htraced.wellFormed m hm).pc_range
    exact Hex.padded_of_address h₀ hlt
  · have hlength : lines.length = done.length + refused.length := by
      have := congrArg List.length htraced.lines
      simpa only [List.length_map, List.length_append] using this
    have hrefused : refused.length = stackFaults.length := by
      have := congrArg List.length htraced.refused
      simpa only [List.length_map] using this
    show lines.length = (s.console.run calls).machine.executed - _ + _
    rw [hlength, hrefused, htraced.executed, Nat.add_sub_cancel_left]
  · intro level hother s'
    obtain ⟨hstate', hfailures'⟩ := s'.driven_eq calls
    refine ⟨(traceLines_driven s' calls).trans (if_neg hother), ?_, ?_⟩
    · rw [hstate']
    · rw [hfailures', hfailures]

/-- A return with nothing on the stack is traced once, however long the run goes on. -/
theorem trace_of_return :
    let program : List UInt8 := [0x00, 0xEE]
    let m := (Machine.fresh 1 440 (.cycling [])).loaded program
    let s : Session := {
      host := .boundless, console := .ofMachine m, settings := .standard, level := .debug
      clock := .finite 0
      measuredAt := .finite 0, drawn := 0, executedThen := 0, frameLabel := ⟨"", 0⟩
      speedLabel := ⟨"", 0⟩, picture := ⟨0, 0, []⟩, scheduled := [.frame], closed := false }
    let calls : List Console.Call := [.cycle, .keys (.press 5), .cycle]
    m.WellFormed ∧ traceLines (s.drivenReports calls) = ["200: RET"] ∧
      traceLines ({ s with level := .info }.drivenReports calls) = [] := by
  intro program m s calls
  have hfresh := Machine.wellFormed_fresh 1 440 (.cycling [])
  have hm : m.WellFormed := wellFormed_loaded hfresh (by decide)
  have hbytes : m.begun.word
      = (256 * (program.getD 0 0).toNat + (program.getD 1 0).toNat : Nat) :=
    word_in_loaded (i := 0) hfresh (by decide) rfl rfl (by decide)
  have hvalue : 256 * (program.getD 0 0).toNat + (program.getD 1 0).toNat = 0x00EE := by decide
  have hword : m.begun.word = (0x00EE : Nat) := by rw [hbytes, hvalue]
  have hpc : m.pc = 0x200 := rfl
  have hspeed : m.speed = 1 := rfl
  have hstack : m.stack = [] := rfl
  have hrun : m.halted = false := rfl
  have hgo : m.paused = false := rfl
  clear_value m
  have hcalls : ∀ call ∈ calls, call.isPlayed = true := by decide
  have hsteps : m.speed.toNat = 1 := by
    rw [hspeed]
    rfl
  -- the first step fails, and the machine is halted from then on
  have hreason : m.begun.fault? = some .stackUnderflow := by
    refine fault?_eq_underflow.2 ⟨?_, hstack⟩
    rw [hword]
    decide
  have hfault : m.begun.step.failure = some (.fault ⟨.stackUnderflow, m.begun.word, m.pc⟩) := by
    rw [step_failure_eq (wellFormed_begun hm), hreason]
    rfl
  have hcycle : s.console.cycle.failure = some (.fault ⟨.stackUnderflow, m.begun.word, m.pc⟩) := by
    have hpositive : 0 < m.speed := by
      rw [hspeed]
      exact Int.one_pos
    rw [Console.failure_cycle]
    exact cycle_failure_of_step (m := m) hrun hgo hpositive hfault
  obtain ⟨htaken, hrefused, _⟩ := Console.run_of_halted
    (Console.wellFormed_perform (c := s.console) hm .cycle) (Console.halted_cycle hm hcycle)
    (fun call hcall => hcalls call (List.mem_of_mem_tail hcall))
  have hdone : s.console.taken calls = [] := by
    show (if m.halted then [] else strides m.speed.toNat m.begun)
      ++ (s.console.perform .cycle).state.taken calls.tail = []
    rw [htaken, hrun, hsteps, strides_of_failure hfault]
    rfl
  have hlast : s.console.refused calls = [m.begun] := by
    show (if m.halted then [] else Machine.refused m.speed.toNat m.begun)
      ++ (s.console.perform .cycle).state.refused calls.tail = [m.begun]
    have hbegun : m.begun.paused = false := hgo
    rw [hrefused, hrun, hsteps, Machine.refused, hbegun, hfault]
    rfl
  have hline : m.begun.traceLine? = some "200: RET" := by
    have hthere : m.begun.pc = 0x200 := hpc
    rw [Machine.traceLine?, hword, hthere]
    decide +kernel
  obtain ⟨hlines, _, _, _, _, _, habove⟩ := trace_is_complete (s := s) hm rfl hcalls
  rw [hdone, hlast, List.nil_append, List.map_singleton, hline] at hlines
  refine ⟨hm, ?_, (habove .info Log.Level.noConfusion).1⟩
  exact List.map_injective_iff.2 (Option.some_injective _) hlines

end Session

end Chip8
