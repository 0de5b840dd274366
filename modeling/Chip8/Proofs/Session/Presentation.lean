import Chip8.Proofs.Buzzer.Lives
import Chip8.Proofs.Machine.Mark
import Chip8.Proofs.Session.Close

/-! # Presentation never feeds back

    A window presents what goes on: it draws pictures, takes statistics, and logs.  What goes on
    is the **`Emulation`**: the console but for the mark on its screen, the callbacks, and whether
    the window has been closed.

    * An event that only presents leaves the emulation as it was (**`handle_presented`**).
    * Any other comes to the same from sessions with the same emulation, in what it does to the
      emulation, in what the buzzer and its device are told, and in how it fails
      (**`observe_congr`**): whatever reaches the console is blind to the mark.

    So events that only present can be left out of any sequence (**`presentation_is_erasable`**).
    What the buzzer is told in an event is in **`orders`**, and it does just that
    (**`handle_orders`**). -/

namespace Chip8

/-! ## Consoles -/

namespace Console

open Outcome

/-- The console with the mark on its screen taken away. -/
def unmarked (c : Console) : Console := { c with machine := c.machine.unmarked }

/-- The console with another machine. -/
theorem unmarked_machine (c : Console) {m m' : Machine} (h : m.unmarked = m'.unmarked) :
    unmarked { c.unmarked with machine := m } = unmarked { c with machine := m' } :=
  congrArg (fun machine => { c with machine }) h

theorem blind_onMachine {f : Machine → Outcome Failure Log.Entry Machine}
    (hf : Blind Machine.unmarked f) : Blind unmarked (·.onMachine f) := by
  intro c
  obtain ⟨hstate, hreports, hfailure⟩ := mapState_eq_iff.1 (hf c.machine)
  rw [mapState_eq_iff]
  refine ⟨c.unmarked_machine hstate, ?_, hfailure⟩
  exact congrArg (List.flatMap fun e => [Report.entry e]) hreports

theorem blind_cycle : Blind unmarked cycle := by
  intro c
  obtain ⟨hstate, hreports, hfailure⟩ := mapState_eq_iff.1 (Machine.blind_cycle c.machine)
  have hrelay : relay c.buzzer c.unmarked.machine.cycle.reports
      = relay c.buzzer c.machine.cycle.reports := congrArg (relay c.buzzer) hreports
  rw [mapState_eq_iff]
  refine ⟨?_, congrArg Prod.snd hrelay, hfailure⟩
  show unmarked { c with
      machine := c.unmarked.machine.cycle.state
      buzzer := (relay c.buzzer c.unmarked.machine.cycle.reports).1 }
    = unmarked { c with
      machine := c.machine.cycle.state
      buzzer := (relay c.buzzer c.machine.cycle.reports).1 }
  rw [hrelay]
  exact congrArg (fun machine => Console.mk machine c.handlers _) hstate

theorem blind_silence : Blind unmarked silence := fun _ => rfl

theorem blind_tell (e : KeyEvent) (l : Listener) : Blind unmarked (·.tell e l) := by
  cases l with
  | machine => exact blind_onMachine (Machine.blind_hear e)
  | observer name => exact fun _ => rfl

theorem blind_tellAll (e : KeyEvent) (ls : List Listener) : Blind unmarked (tellAll e ls) := by
  induction ls with
  | nil => exact fun _ => rfl
  | cons l rest ih => exact (blind_tell e l).andThen ih

theorem blind_signal (e : KeyEvent) : Blind unmarked (·.signal e) := by
  intro c
  obtain ⟨hstate, hreports, hfailure⟩ := mapState_eq_iff.1
    (blind_tellAll e (heardBy c.handlers) { c with machine := c.machine.keyed e })
  rw [mapState_eq_iff]
  exact ⟨hstate, congrArg (_ ++ ·) hreports, hfailure⟩

theorem blind_signalAll (es : List KeyEvent) : Blind unmarked (signalAll es) := by
  induction es with
  | nil => exact fun _ => rfl
  | cons e rest ih => exact (blind_signal e).andThen ih

theorem blind_complain (bad : Option NotAKey) : Blind unmarked (complain bad) := by
  cases bad <;> exact fun _ => rfl

theorem blind_performKeys (call : KeyCall) : Blind unmarked (·.performKeys call) := by
  intro c
  simp only [performKeys_eq]
  exact (blind_signalAll _).andThen (blind_complain _) c

end Console

/-! ## Events -/

/-- Whether an event only presents: a picture, the statistics, the clock they are taken by, the
    switch of the trace, or a key that means nothing.  The modifier keys that are held with a key
    are no part of an event. -/
def HostEvent.presents : HostEvent → Bool
  | .draw                 => true
  | .callback .statistics => true
  | .clock _              => true
  | .press symbol         => (Session.keyMap.lookup symbol).isNone && symbol != Session.closeKey
  | .release symbol       => (Session.keyMap.lookup symbol).isNone && symbol != Session.closeKey
  | _                     => false

/-- The switch of the trace is a key that means nothing to the console. -/
example : (HostEvent.press Session.traceKey).presents = true := by decide

/-- What goes on behind a window. -/
structure Emulation where
  /-- The console, with the mark on its screen taken away. -/
  console : Console
  scheduled : List Callback
  closed : Bool

namespace Session

variable {s s' : Session} {o o' : Result}

def emulation (s : Session) : Emulation := ⟨s.console.unmarked, s.scheduled, s.closed⟩

def Report.deviceCall? : Report → Option DeviceCall
  | .call (.audio c) => some c
  | _                => none

/-- The calls to the audio device among reports. -/
def deviceCalls (reports : List Report) : List DeviceCall := reports.filterMap Report.deviceCall?

theorem deviceCalls_append (rs rs' : List Report) :
    deviceCalls (rs ++ rs') = deviceCalls rs ++ deviceCalls rs' :=
  List.filterMap_append ..

theorem deviceCalls_seen (level : Log.Level) (e : Log.Entry) : deviceCalls (seen level e) = [] := by
  rw [seen]
  split <;> rfl

/-- The level of the log does not matter to the device. -/
theorem deviceCalls_reportOf (level : Log.Level) (reports : List Console.Report) :
    deviceCalls (reports.flatMap (reportOf level)) = Console.deviceCalls reports := by
  induction reports with
  | nil => rfl
  | cons r rest ih =>
      rw [List.flatMap_cons, deviceCalls_append, ih]
      cases r with
      | entry e => exact congrArg (· ++ _) (deviceCalls_seen level e)
      | _ => rfl

/-! ## The same emulation, the same outcome -/

/-- Two outcomes are the same but for what is presented. -/
structure Agree (o o' : Result) : Prop where
  emulation : o.state.emulation = o'.state.emulation
  calls : deviceCalls o.reports = deviceCalls o'.reports
  failure : o.failure = o'.failure

theorem agree_done (h : s.emulation = s'.emulation) : Agree (.done s) (.done s') := ⟨h, rfl, rfl⟩

theorem Agree.after (h : Agree o o') {first first' : List Report}
    (hfirst : deviceCalls first = deviceCalls first') :
    Agree (o.after first) (o'.after first') := by
  refine ⟨h.emulation, ?_, h.failure⟩
  show deviceCalls (first ++ o.reports) = deviceCalls (first' ++ o'.reports)
  rw [deviceCalls_append, deviceCalls_append, hfirst, h.calls]

theorem Agree.andThen (h : Agree o o') {next : Session → Result}
    (hnext : ∀ {s s'}, s.emulation = s'.emulation → Agree (next s) (next s')) :
    Agree (o.andThen next) (o'.andThen next) := by
  have hrest := hnext h.emulation
  have hfailure := h.failure
  rw [Outcome.andThen, Outcome.andThen]
  cases he : o'.failure with
  | some e =>
      rw [he] at hfailure
      rw [hfailure]
      exact h
  | none =>
      rw [he] at hfailure
      rw [hfailure]
      exact hrest.after h.calls

theorem agree_onConsole (h : s.emulation = s'.emulation) {f : Console → Console.Result}
    (hf : Outcome.Blind Console.unmarked f) : Agree (s.onConsole f) (s'.onConsole f) := by
  obtain ⟨hconsole, hscheduled, hclosed⟩ := Emulation.mk.inj h
  obtain ⟨hstate, hreports, hfailure⟩ := Outcome.mapState_eq_iff.1 (hf.agree hconsole)
  refine ⟨?_, ?_, hfailure⟩
  · show Emulation.mk _ s.scheduled s.closed = Emulation.mk _ s'.scheduled s'.closed
    rw [hscheduled, hclosed]
    exact congrArg (Emulation.mk · _ _) hstate
  · show deviceCalls ((f s.console).reports.flatMap _) =
      deviceCalls ((f s'.console).reports.flatMap _)
    rw [deviceCalls_reportOf, deviceCalls_reportOf, hreports]

theorem agree_close (h : s.emulation = s'.emulation) : Agree s.close s'.close := by
  obtain ⟨hconsole, -, hclosed⟩ := Emulation.mk.inj h
  have hstart : ({ s with scheduled := [] } : Session).emulation
      = ({ s' with scheduled := [] } : Session).emulation := by
    simp only [emulation, hconsole, hclosed]
  refine (Agree.andThen (agree_onConsole hstart Console.blind_silence) ?_).after rfl
  intro d d' hd
  obtain ⟨hconsole', hscheduled', -⟩ := Emulation.mk.inj hd
  refine ⟨?_, rfl, rfl⟩
  show Emulation.mk d.console.unmarked d.scheduled true = Emulation.mk _ _ true
  rw [hconsole', hscheduled']

theorem agree_frame (h : s.emulation = s'.emulation) : Agree s.frame s'.frame := by
  have hclosed : s.closed = s'.closed := congrArg Emulation.closed h
  have ho := agree_onConsole h Console.blind_cycle
  rw [frame, frame, hclosed]
  cases s'.closed with
  | true => exact agree_done h
  | false =>
      simp only [Bool.false_eq_true, if_false, ho.failure]
      split
      · refine (agree_close ho.emulation).after ?_
        rw [deviceCalls_append, deviceCalls_append, ho.calls, deviceCalls_seen, deviceCalls_seen]
      · exact ho

/-- The statistics are no part of the emulation. -/
theorem emulation_measure (s : Session) : s.measure.emulation = s.emulation := by
  rw [measure]
  split <;> rfl

theorem agree_call (h : s.emulation = s'.emulation) (c : Callback) :
    Agree (s.call c) (s'.call c) := by
  cases c with
  | frame => exact agree_frame h
  | statistics =>
      refine agree_done ?_
      rw [emulation_measure, emulation_measure, h]

theorem agree_callAll (cs : List Callback) (h : s.emulation = s'.emulation) :
    Agree (callAll cs s) (callAll cs s') := by
  induction cs generalizing s s' with
  | nil => exact agree_done h
  | cons c rest ih => exact (agree_call h c).andThen ih

theorem agree_press (h : s.emulation = s'.emulation) {symbol : String}
    (hmeant : (HostEvent.press symbol).presents = false) :
    Agree (s.press symbol) (s'.press symbol) := by
  rw [press, press]
  split
  · exact agree_close h
  · split
    · rename_i hother htrace
      rw [htrace] at hmeant
      cases hmeant
    · split
      · exact agree_done h
      · exact agree_onConsole h (Console.blind_performKeys (.press _))

theorem agree_release (h : s.emulation = s'.emulation) (symbol : String) :
    Agree (s.release symbol) (s'.release symbol) := by
  rw [release, release]
  split
  · exact agree_done h
  · exact agree_onConsole h (Console.blind_performKeys (.release _))

/-- **FROM THE SAME EMULATION** an event that does more than present comes to the same. -/
theorem agree_handle (h : s.emulation = s'.emulation) {e : HostEvent} (he : e.presents = false) :
    Agree (s.handle e) (s'.handle e) := by
  cases e with
  | tick =>
      have hscheduled : s.scheduled = s'.scheduled := congrArg Emulation.scheduled h
      show Agree (callAll s.scheduled s) (callAll s'.scheduled s')
      rw [hscheduled]
      exact agree_callAll s'.scheduled h
  | callback c => exact agree_call h c
  | clock seconds => exact nomatch he
  | draw => exact nomatch he
  | press symbol => exact agree_press h he
  | release symbol => exact agree_release h symbol
  | close => exact agree_close h

/-! ## Presenting -/

/-- A drawing takes the mark away, if anything, and uploads a picture. -/
theorem refresh_presents (s : Session) :
    s.refresh.state.emulation = s.emulation ∧ deviceCalls s.refresh.reports = [] := by
  rw [refresh]
  simp only
  split
  · split <;> exact ⟨rfl, rfl⟩
  · exact ⟨rfl, rfl⟩

theorem draw_presents (s : Session) :
    s.draw.state.emulation = s.emulation ∧ deviceCalls s.draw.reports = [] := by
  obtain ⟨hemulation, hcalls⟩ := s.refresh_presents
  show (s.refresh.andThen _).state.emulation = _ ∧
    deviceCalls ([.call .wipe] ++ (s.refresh.andThen _).reports) = []
  rw [Outcome.andThen, deviceCalls_append]
  split
  · exact ⟨hemulation, hcalls⟩
  · refine ⟨hemulation, ?_⟩
    simp only [deviceCalls_append, hcalls]
    split <;> rfl

theorem press_presented (s : Session) {symbol : String}
    (h : (HostEvent.press symbol).presents = true) :
    (s.press symbol).state.emulation = s.emulation ∧
      deviceCalls (s.press symbol).reports = [] := by
  obtain ⟨hunmapped, hother⟩ := Bool.and_eq_true_iff.1 h
  rw [press, if_neg (bne_iff_ne.1 hother), Option.isNone_iff_eq_none.1 hunmapped]
  split
  · exact ⟨rfl, deviceCalls_seen _ _⟩
  · exact ⟨rfl, rfl⟩

/-- **AN EVENT THAT ONLY PRESENTS** leaves the emulation as it was, and the device alone. -/
theorem handle_presented (s : Session) {e : HostEvent} (he : e.presents = true) :
    (s.handle e).state.emulation = s.emulation ∧ deviceCalls (s.handle e).reports = [] := by
  cases e with
  | tick => cases he
  | callback c =>
      cases c with
      | frame => cases he
      | statistics => exact ⟨emulation_measure s, rfl⟩
  | clock seconds => exact ⟨rfl, rfl⟩
  | draw => exact s.draw_presents
  | press symbol => exact press_presented s he
  | release symbol =>
      obtain ⟨hunmapped, -⟩ := Bool.and_eq_true_iff.1 he
      show (s.release symbol).state.emulation = _ ∧ deviceCalls (s.release symbol).reports = []
      rw [release, Option.isNone_iff_eq_none.1 hunmapped]
      exact ⟨rfl, rfl⟩
  | close => cases he

/-! ## What the buzzer is told -/

/-- What a frame tells the buzzer: what the machine wants of it in the end, and to be silent if a
    complaint closes the session. -/
def frameOrders (s : Session) : List Command :=
  if s.closed then []
  else
    s.console.cycle.state.machine.audio ::
      match s.console.cycle.failure with
      | some (.complaint _) => [.stop]
      | _                   => []

def callOrders (s : Session) : Callback → List Command
  | .frame      => s.frameOrders
  | .statistics => []

def callAllOrders : List Callback → Session → List Command
  | [],      _ => []
  | c :: cs, s =>
      s.callOrders c ++
        if (s.call c).failure = none then callAllOrders cs (s.call c).state else []

/-- What the buzzer is told in an event. -/
def orders (s : Session) : HostEvent → List Command
  | .tick         => callAllOrders s.scheduled s
  | .callback c   => s.callOrders c
  | .press symbol => if symbol = closeKey then [.stop] else []
  | .close        => [.stop]
  | _             => []

/-- The buzzer was told these commands, and its device was called for them. -/
structure Told (s : Session) (o : Result) (cs : List Command) : Prop where
  buzzer : o.state.console.buzzer = s.console.buzzer.toldAll cs
  calls : deviceCalls o.reports = s.console.buzzer.callsForAll cs

theorem Told.next {cs cs' : List Command} (h : Told s o cs) (h' : Told o.state o' cs') :
    Told s (o'.after o.reports) (cs ++ cs') := by
  refine ⟨?_, ?_⟩
  · show o'.state.console.buzzer = _
    rw [h'.buzzer, h.buzzer, Buzzer.toldAll_append]
  · show deviceCalls (o.reports ++ o'.reports) = _
    rw [deviceCalls_append, h.calls, h'.calls, h.buzzer, Buzzer.callsForAll_append]

theorem Told.after {cs : List Command} (h : Told s o cs) {first : List Report}
    (hfirst : deviceCalls first = []) : Told s (o.after first) cs := by
  refine ⟨h.buzzer, ?_⟩
  show deviceCalls (first ++ o.reports) = _
  rw [deviceCalls_append, hfirst, h.calls]
  rfl

theorem told_quiet {f : Console → Console.Result} (h : Console.Quiet s.console (f s.console)) :
    Told s (s.onConsole f) [] :=
  ⟨h.buzzer, (deviceCalls_reportOf _ _).trans h.calls⟩

theorem told_cycle (s : Session) :
    Told s (s.onConsole Console.cycle) [s.console.cycle.state.machine.audio] := by
  have hobeys := Console.obeys_act (a := .call .cycle) rfl s.console
  refine ⟨hobeys.buzzer, ?_⟩
  rw [Buzzer.callsForAll, Buzzer.callsForAll, List.append_nil]
  exact (deviceCalls_reportOf _ _).trans hobeys.calls

theorem told_close (s : Session) : Told s s.close [.stop] := by
  have hstop : s.console.silence.state.buzzer = s.console.buzzer.told .stop := by
    rw [Console.silence_eq]
    rfl
  rw [close_eq]
  refine ⟨hstop, ?_⟩
  rw [Buzzer.callsForAll, Buzzer.callsForAll, List.append_nil, deviceCalls_append,
    deviceCalls_append]
  show [] ++ (deviceCalls (s.console.silence.reports.flatMap _) ++ []) = _
  rw [deviceCalls_reportOf, Console.silence_eq, List.append_nil]
  exact Console.deviceCalls_ofBuzzer _

theorem told_frame (s : Session) : Told s s.frame s.frameOrders := by
  rcases s.frame_cases with ⟨hclosed, hframe⟩ | ⟨hopen, c, hc, hframe⟩ | ⟨hopen, hgood, hframe⟩
  · rw [hframe, frameOrders, if_pos hclosed]
    exact ⟨rfl, rfl⟩
  · rw [hframe, frameOrders, hopen, hc]
    exact (told_cycle s).next ((told_close _).after (deviceCalls_seen s.level (.failed c)))
  · have horders : s.frameOrders = [s.console.cycle.state.machine.audio] := by
      rw [frameOrders, hopen]
      cases he : s.console.cycle.failure with
      | none => rfl
      | some e =>
          cases e with
          | complaint c => exact absurd he (hgood c)
          | _ => rfl
    rw [hframe, horders]
    exact told_cycle s

theorem told_call (s : Session) (c : Callback) : Told s (s.call c) (s.callOrders c) := by
  cases c with
  | frame => exact told_frame s
  | statistics =>
      have hmeasure : s.measure.console = s.console := by
        rw [measure]
        split <;> rfl
      exact ⟨congrArg Console.buzzer hmeasure, rfl⟩

theorem told_callAll (cs : List Callback) (s : Session) :
    Told s (callAll cs s) (callAllOrders cs s) := by
  induction cs generalizing s with
  | nil => exact ⟨rfl, rfl⟩
  | cons c rest ih =>
      have hfirst := told_call s c
      rw [callAll, callAllOrders, Outcome.andThen]
      cases he : (s.call c).failure with
      | some e =>
          rw [if_neg (Option.some_ne_none e), List.append_nil]
          exact hfirst
      | none =>
          rw [if_pos rfl]
          exact hfirst.next (ih _)

theorem told_keys (s : Session) (call : Console.KeyCall) :
    Told s (s.onConsole (·.performKeys call)) [] :=
  told_quiet (Console.quiet_performKeys s.console call)

/-- **THE BUZZER IS TOLD ITS ORDERS**, and nothing else. -/
theorem handle_orders (s : Session) (e : HostEvent) : Told s (s.handle e) (s.orders e) := by
  cases e with
  | tick => exact told_callAll s.scheduled s
  | callback c => exact told_call s c
  | clock seconds => exact ⟨rfl, rfl⟩
  | draw =>
      obtain ⟨hemulation, hcalls⟩ := s.draw_presents
      exact ⟨congrArg (fun e : Emulation => e.console.buzzer) hemulation, hcalls⟩
  | press symbol =>
      show Told s (s.press symbol) (if symbol = closeKey then [.stop] else [])
      rw [press]
      split
      · exact told_close s
      · split
        · exact ⟨rfl, deviceCalls_seen _ _⟩
        · split
          · exact ⟨rfl, rfl⟩
          · exact told_keys s (.press _)
  | release symbol =>
      show Told s (s.release symbol) []
      rw [release]
      split
      · exact ⟨rfl, rfl⟩
      · exact told_keys s (.release _)
  | close => exact told_close s

theorem frameOrders_congr (h : s.emulation = s'.emulation) : s.frameOrders = s'.frameOrders := by
  obtain ⟨hconsole, -, hclosed⟩ := Emulation.mk.inj h
  obtain ⟨hstate, -, hfailure⟩ :=
    Outcome.mapState_eq_iff.1 (Console.blind_cycle.agree hconsole)
  have haudio : s.console.cycle.state.machine.audio = s'.console.cycle.state.machine.audio := by
    show s.console.cycle.state.unmarked.machine.audio =
      s'.console.cycle.state.unmarked.machine.audio
    exact congrArg (fun c : Console => c.machine.audio) hstate
  rw [frameOrders, frameOrders, hclosed, haudio, hfailure]

theorem callOrders_congr (h : s.emulation = s'.emulation) (c : Callback) :
    s.callOrders c = s'.callOrders c := by
  cases c with
  | frame => exact frameOrders_congr h
  | statistics => rfl

theorem callAllOrders_congr (cs : List Callback) (h : s.emulation = s'.emulation) :
    callAllOrders cs s = callAllOrders cs s' := by
  induction cs generalizing s s' with
  | nil => rfl
  | cons c rest ih =>
      have hagree := agree_call h c
      rw [callAllOrders, callAllOrders, callOrders_congr h c, hagree.failure, ih hagree.emulation]

theorem orders_congr (h : s.emulation = s'.emulation) (e : HostEvent) :
    s.orders e = s'.orders e := by
  cases e with
  | tick =>
      have hscheduled : s.scheduled = s'.scheduled := congrArg Emulation.scheduled h
      show callAllOrders s.scheduled s = callAllOrders s'.scheduled s'
      rw [hscheduled]
      exact callAllOrders_congr s'.scheduled h
  | callback c => exact callOrders_congr h c
  | _ => rfl

/-! ## Sequences of events -/

/-- What can be seen of an event, but for what it presents. -/
structure Observation where
  /-- What goes on once it has been handled. -/
  emulation : Emulation
  /-- What the buzzer was told (`handle_orders`). -/
  orders : List Command
  /-- What its device was called for. -/
  calls : List DeviceCall
  failure : Option Failure

def observe (s : Session) (e : HostEvent) : Observation :=
  ⟨(s.handle e).state.emulation, s.orders e, deviceCalls (s.handle e).reports,
    (s.handle e).failure⟩

/-- What is seen of the events that do more than present, in order. -/
def observed (s : Session) : List HostEvent → List Observation
  | []      => []
  | e :: es =>
      (if e.presents then [] else [s.observe e]) ++ (s.handle e).state.observed es

theorem observe_congr (h : s.emulation = s'.emulation) {e : HostEvent} (he : e.presents = false) :
    s.observe e = s'.observe e := by
  obtain ⟨hemulation, hcalls, hfailure⟩ := agree_handle h he
  rw [observe, observe, hemulation, hcalls, hfailure, orders_congr h e]

/-- **PRESENTATION NEVER FEEDS BACK.**  Let two sessions have the same emulation; the levels of
    their logs, their statistics, pictures and settings may differ in any way.  If the events that
    only present are left out of a sequence, drawings, statistics, readings of the clock,
    switches of the trace and keys that mean nothing, the rest comes to the same, event by event:
    the machine and its screen but for the mark, the keypad, the buzzer, what the buzzer and its
    device are told, the failures, and whether the window is closed. -/
theorem presentation_is_erasable (h : s'.emulation = s.emulation) (events : List HostEvent) :
    let kept := events.filter fun e => !e.presents
    s'.observed kept = s.observed events ∧
      (s'.handled kept).emulation = (s.handled events).emulation := by
  induction events generalizing s s' with
  | nil => exact ⟨rfl, h⟩
  | cons e rest ih =>
      cases he : e.presents with
      | true =>
          -- the event is left out, and what goes on does not notice
          obtain ⟨hobserved, hend⟩ := ih (h.trans (handle_presented s he).1.symm)
          simp only [List.filter_cons, he, observed]
          exact ⟨hobserved, hend⟩
      | false =>
          have hnext := (agree_handle h he).emulation
          obtain ⟨hobserved, hend⟩ := ih hnext
          simp only [List.filter_cons, he, Bool.not_false, if_true, observed, Bool.false_eq_true,
            if_false, observe_congr h he]
          exact ⟨congrArg ([s.observe e] ++ ·) hobserved, hend⟩

/-- Drawings, statistics and a trace that is switched on, left out of the play of a program
    behind another window. -/
theorem presentation_left_out :
    let s : Session := {
      console := .ofMachine ((Machine.fresh 3 440 (.cycling [])).loaded [0x12, 0x00])
      host := .boundless, settings := .standard, level := .info
      clock := .finite 0, measuredAt := .finite 0
      drawn := 0, executedThen := 0, frameLabel := ⟨"", 0⟩, speedLabel := ⟨"", 0⟩
      picture := ⟨0, 0, []⟩, scheduled := [.frame, .statistics], closed := false }
    let s' := { s with level := .error, drawn := 7, clock := .infinite true }
    let events : List HostEvent := [.draw, .press "F1", .callback .frame, .clock (.infinite false),
      .callback .statistics, .press "_1", .press "P", .draw, .release "_1", .release "P", .tick,
      .draw, .press "ESCAPE", .press "F1"]
    let kept : List HostEvent := [.callback .frame, .press "_1", .release "_1", .tick,
      .press "ESCAPE"]
    s'.emulation = s.emulation ∧ s'.observed kept = s.observed events ∧
      (s'.handled kept).emulation = (s.handled events).emulation := by
  intro s s' events kept
  have hsame : s'.emulation = s.emulation := rfl
  have hkept : events.filter (fun e => !e.presents) = kept := by decide
  have herased := presentation_is_erasable hsame events
  rw [hkept] at herased
  exact ⟨hsame, herased⟩

end Session

end Chip8
