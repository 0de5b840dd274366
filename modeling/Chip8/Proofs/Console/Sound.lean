import Chip8.Proofs.Buzzer.Ledger
import Chip8.Proofs.Console.Timers

/-! # The buzzer agrees with the machine

    A machine wants its tone to be heard as long as the sound timer runs and nothing has halted
    it (**`Machine.tone`**).  A frame, whatever became of it, ends with an order to the buzzer,
    which obeys (**`obeys_act`**); nothing else that is done to a console reaches the buzzer
    (**`quiet_act`**).

    So after every frame the buzzer sounds what the machine wants, with one player at most
    (**`tuned_run`**), and a tone that is held is not started again (**`held_run`**). -/

namespace Chip8

namespace Machine

variable {m : Machine}

/-- The tone that a machine wants to be heard, if it wants one. -/
def tone (m : Machine) : Option Int :=
  if 0 < m.sound ∧ m.halted = false then some m.toneHz else none

theorem audio_eq (m : Machine) : m.audio = .ofTone m.tone := by
  rw [audio, tone]
  split <;> rfl

theorem isSome_tone_iff (m : Machine) : m.tone.isSome = true ↔ 0 < m.sound ∧ m.halted = false := by
  rw [tone]
  split
  · exact ⟨fun _ => ‹_›, fun _ => rfl⟩
  · exact ⟨fun hs => (nomatch hs), fun hdue => absurd hdue ‹_›⟩

theorem tone_of_isSome (hs : m.tone.isSome = true) : m.tone = some m.toneHz :=
  if_pos ((isSome_tone_iff m).1 hs)

end Machine

namespace Console

/-! ## What is done to a console -/

/-- Something done to a console: a call, or another frequency for the tone of its machine. -/
inductive Act where
  | call (call : Call)
  | tune (toneHz : Int)
  deriving DecidableEq, Repr

/-- Whether the buzzer is given an order. -/
def Act.orders : Act → Bool
  | .call .cycle | .call .settleAudio => true
  | _                                 => false

def act (c : Console) : Act → Result
  | .call call   => c.perform call
  | .tune toneHz => .done { c with machine := { c.machine with toneHz } }

def acted (c : Console) : List Act → Console
  | []      => c
  | a :: as => (c.act a).state.acted as

def actReports (c : Console) : List Act → List Report
  | []      => []
  | a :: as => (c.act a).reports ++ (c.act a).state.actReports as

def Report.deviceCall? : Report → Option DeviceCall
  | .call c => some c
  | _       => none

/-- The calls to the device among reports. -/
def deviceCalls (reports : List Report) : List DeviceCall := reports.filterMap Report.deviceCall?

/-- The players that reports tell of as created and not deleted. -/
def players (reports : List Report) : List Nat :=
  (deviceCalls reports).foldl DeviceCall.ledger []

theorem deviceCalls_append (rs rs' : List Report) :
    deviceCalls (rs ++ rs') = deviceCalls rs ++ deviceCalls rs' :=
  List.filterMap_append

theorem deviceCalls_entries (entries : List Log.Entry) :
    deviceCalls (entries.map .entry) = [] := by
  induction entries with
  | nil => rfl
  | cons e rest ih => exact ih

theorem deviceCalls_ofBuzzer (rs : List Buzzer.Report) :
    deviceCalls (rs.map .ofBuzzer) = Buzzer.calls rs := by
  rw [deviceCalls, List.filterMap_map]
  refine congrArg (List.filterMap · rs) (funext fun r => ?_)
  cases r <;> rfl

/-! ## Who reaches the buzzer -/

variable {c : Console} {o : Result}

/-- The buzzer is left alone. -/
structure Quiet (c : Console) (o : Result) : Prop where
  buzzer : o.state.buzzer = c.buzzer
  calls : deviceCalls o.reports = []

/-- The buzzer obeys the machine as it is in the end. -/
structure Obeys (c : Console) (o : Result) : Prop where
  buzzer : o.state.buzzer = (c.buzzer.obey Buzzer.willing o.state.machine.audio).state
  calls : deviceCalls o.reports
    = Buzzer.calls (c.buzzer.obey Buzzer.willing o.state.machine.audio).reports

theorem Quiet.andThen (h : Quiet c o) {next : Console → Result}
    (hnext : ∀ d, Quiet d (next d)) : Quiet c (o.andThen next) := by
  rw [Outcome.andThen]
  split
  · exact h
  · refine ⟨(hnext o.state).buzzer.trans h.buzzer, ?_⟩
    rw [deviceCalls_append, h.calls, (hnext o.state).calls]
    rfl

theorem quiet_onMachine (c : Console) (f : Machine → Outcome Failure Log.Entry Machine) :
    Quiet c (c.onMachine f) := by
  refine ⟨rfl, ?_⟩
  show deviceCalls ((f c.machine).reports.flatMap fun e => [.entry e]) = []
  rw [← List.map_eq_flatMap]
  exact deviceCalls_entries _

theorem quiet_tellAll (e : KeyEvent) (ls : List Listener) (c : Console) :
    Quiet c (tellAll e ls c) := by
  induction ls generalizing c with
  | nil => exact ⟨rfl, rfl⟩
  | cons l rest ih =>
      refine Quiet.andThen ?_ ih
      cases l with
      | machine => exact quiet_onMachine c (·.hear e)
      | observer name => exact ⟨rfl, rfl⟩

theorem quiet_signalAll (es : List KeyEvent) (c : Console) : Quiet c (signalAll es c) := by
  induction es generalizing c with
  | nil => exact ⟨rfl, rfl⟩
  | cons e rest ih =>
      have htold := quiet_tellAll e (heardBy c.handlers) { c with machine := c.machine.keyed e }
      have hsignal : Quiet c (c.signal e) := ⟨htold.buzzer, htold.calls⟩
      exact hsignal.andThen ih

theorem quiet_performKeys (c : Console) (keys : KeyCall) : Quiet c (c.performKeys keys) := by
  rw [performKeys_eq]
  refine (quiet_signalAll _ c).andThen fun d => ?_
  cases (keys.plan c.machine.keypad).2 <;> exact ⟨rfl, rfl⟩

/-- **NOTHING ELSE REACHES THE BUZZER** but what gives it an order. -/
theorem quiet_act {a : Act} (ha : a.orders = false) (c : Console) : Quiet c (c.act a) := by
  cases a with
  | tune toneHz => exact ⟨rfl, rfl⟩
  | call call =>
      cases call with
      | cycle => exact nomatch ha
      | settleAudio => exact nomatch ha
      | step => exact quiet_onMachine c Machine.step
      | execute op => exact quiet_onMachine c (·.execute op)
      | tickTimers => exact ⟨rfl, rfl⟩
      | load program => exact quiet_onMachine c (·.load program)
      | keys keys => exact quiet_performKeys c keys

theorem relay_entries (b : Buzzer) (entries : List Log.Entry) (rest : List Machine.Report) :
    relay b (entries.map .entry ++ rest)
      = ((relay b rest).1, entries.map .entry ++ (relay b rest).2) := by
  induction entries with
  | nil => rfl
  | cons e more ih =>
      rw [List.map_cons, List.cons_append, relay, ih]
      rfl

theorem relay_command (b : Buzzer) (order : Command) :
    relay b [.command order] = ((b.obey Buzzer.willing order).state,
      (b.obey Buzzer.willing order).reports.map .ofBuzzer) := by
  show (_, _ ++ []) = _
  rw [List.append_nil]

theorem relay_cycle (b : Buzzer) (m : Machine) :
    relay b m.cycle.reports = ((b.obey Buzzer.willing m.cycle.state.audio).state,
      (Machine.frameLoop m.begun).2.reports.map .entry
        ++ (b.obey Buzzer.willing m.cycle.state.audio).reports.map .ofBuzzer) := by
  rw [Machine.cycle_eq, relay_entries, relay_command]
  rfl

/-- **THE BUZZER OBEYS AT THE END OF EVERY FRAME**, of those that fail too. -/
theorem obeys_act {a : Act} (ha : a.orders = true) (c : Console) : Obeys c (c.act a) := by
  cases a with
  | tune toneHz => exact nomatch ha
  | call call =>
      cases call with
      | cycle =>
          constructor
          · show (relay c.buzzer c.machine.cycle.reports).1 = _
            rw [relay_cycle]
            rfl
          · show deviceCalls (relay c.buzzer c.machine.cycle.reports).2 = _
            rw [relay_cycle, deviceCalls_append, deviceCalls_entries, deviceCalls_ofBuzzer]
            rfl
      | settleAudio =>
          constructor
          · show (relay c.buzzer [.command c.machine.audio]).1 = _
            rw [relay_command]
            rfl
          · show deviceCalls (relay c.buzzer [.command c.machine.audio]).2 = _
            rw [relay_command, deviceCalls_ofBuzzer]
            rfl
      | _ => exact nomatch ha

/-! ## Runs -/

/-- The buzzer sounds some tone or none, and holds the player that is there, if one is. -/
structure Tuned (c : Console) (players : List Nat) : Prop where
  sounds : ∃ tone, c.buzzer.Sounds tone
  players_eq : players = c.buzzer.player.toList

/-- The buzzer after an order, and its player. -/
theorem Obeys.obeyed (h : Obeys c o) {tone : Option Int} (hs : c.buzzer.Sounds tone) :
    o.state.buzzer.Sounds o.state.machine.tone ∧
      (deviceCalls o.reports).foldl DeviceCall.ledger c.buzzer.player.toList
        = o.state.buzzer.player.toList ∧
      (deviceCalls o.reports).filterMap DeviceCall.created?
        = if o.state.machine.tone.isSome ∧ tone ≠ o.state.machine.tone
          then [c.buzzer.created + 1] else [] := by
  have hobeyed := Buzzer.obeyed hs o.state.machine.tone
  rw [← Machine.audio_eq] at hobeyed
  rw [h.buzzer, h.calls]
  exact ⟨hobeyed.sounds, hobeyed.ledger, hobeyed.created⟩

theorem tuned_act {ps : List Nat} (h : Tuned c ps) (a : Act) :
    Tuned (c.act a).state ((deviceCalls (c.act a).reports).foldl DeviceCall.ledger ps) := by
  obtain ⟨⟨tone, hs⟩, rfl⟩ := h
  cases ha : a.orders with
  | false =>
      have hquiet := quiet_act ha c
      rw [hquiet.calls]
      refine ⟨⟨tone, ?_⟩, ?_⟩
      · rw [hquiet.buzzer]
        exact hs
      · rw [hquiet.buzzer]
        rfl
  | true =>
      obtain ⟨hsounds, hledger, _⟩ := (obeys_act ha c).obeyed hs
      exact ⟨⟨_, hsounds⟩, hledger⟩

/-- **ONE PLAYER AT MOST**, at every moment of a run: the one that the buzzer holds. -/
theorem tuned_run {ps : List Nat} (h : Tuned c ps) (acts : List Act) :
    Tuned (c.acted acts) ((deviceCalls (c.actReports acts)).foldl DeviceCall.ledger ps) := by
  induction acts generalizing c ps with
  | nil => exact h
  | cons a rest ih =>
      have hrest := ih (tuned_act h a)
      rw [← List.foldl_append, ← deviceCalls_append] at hrest
      exact hrest

/-- The machine wants the same of the buzzer whenever the buzzer is given an order. -/
def Holding (tone : Option Int) : Console → List Act → Prop
  | _, []      => True
  | c, a :: as => (a.orders = true → (c.act a).state.machine.tone = tone) ∧
      Holding tone (c.act a).state as

/-- **A TONE THAT IS HELD IS NOT STARTED AGAIN**: the device gets no call at all. -/
theorem held_run {tone : Option Int} (hs : c.buzzer.Sounds tone) {acts : List Act}
    (hheld : Holding tone c acts) :
    deviceCalls (c.actReports acts) = [] ∧ (c.acted acts).buzzer = c.buzzer := by
  induction acts generalizing c with
  | nil => exact ⟨rfl, rfl⟩
  | cons a rest ih =>
      obtain ⟨hfirst, hlater⟩ := hheld
      have hquiet : Quiet c (c.act a) := by
        cases ha : a.orders with
        | false => exact quiet_act ha c
        | true =>
            have hobeys := obeys_act ha c
            have hagain := Buzzer.obey_again hs
            rw [← hfirst ha, ← Machine.audio_eq] at hagain
            exact ⟨by rw [hobeys.buzzer, hagain], by rw [hobeys.calls, hagain]; rfl⟩
      rw [← hquiet.buzzer] at hs
      obtain ⟨hcalls, hbuzzer⟩ := ih hs hlater
      refine ⟨?_, hbuzzer.trans hquiet.buzzer⟩
      show deviceCalls ((c.act a).reports ++ (c.act a).state.actReports rest) = []
      rw [deviceCalls_append, hquiet.calls, hcalls]
      rfl

/-- **THE BUZZER AGREES WITH THE MACHINE AFTER EVERY FRAME**, whatever was done to the console
    before, with a buzzer that was silent at first:

    * the order that ends the frame is carried out;
    * the buzzer sounds exactly if the sound timer runs and the machine is not halted, and
      then it sounds the frequency of the machine;
    * the player that it holds is the only one created and not deleted;
    * the frame creates a player, and no second one, exactly if the tone is due and the buzzer
      was silent or sounded another frequency;
    * as long as the machine wants the same of it, the device is not called any more. -/
theorem sound_agrees (m : Machine) (handlers : List (Handler Listener)) (acts : List Act) :
    let c : Console := ⟨m, handlers, .silent⟩
    let d := c.acted acts
    let f := d.cycle.state
    let due := 0 < f.machine.sound ∧ f.machine.halted = false
    let created := (deviceCalls d.cycle.reports).filterMap DeviceCall.created?
    (d.buzzer.obey Buzzer.willing f.machine.audio).failure = none ∧
    (f.buzzer.playing = true ↔ due) ∧
    (f.buzzer.playing = true → f.buzzer.frequency = some (.whole f.machine.toneHz)) ∧
    (players (c.actReports acts ++ d.cycle.reports) = f.buzzer.player.toList ∧
      (players (c.actReports acts ++ d.cycle.reports)).length ≤ 1) ∧
    ((created ≠ [] ↔ due ∧
        (d.buzzer.playing = false ∨ d.buzzer.frequency ≠ some (.whole f.machine.toneHz))) ∧
      created.length ≤ 1) ∧
    ∀ later, Holding f.machine.tone f later →
      deviceCalls (f.actReports later) = [] ∧ (f.acted later).buzzer = f.buzzer := by
  intro c d f due created
  have hsilent : Tuned c [] := ⟨⟨none, Buzzer.sounds_silent⟩, rfl⟩
  obtain ⟨⟨tone, hd⟩, hplayers⟩ := tuned_run hsilent acts
  have hobeys : Obeys d d.cycle := obeys_act (a := .call .cycle) rfl d
  obtain ⟨hf, hledger, hcreated⟩ := hobeys.obeyed hd
  have hdue : f.machine.tone.isSome = true ↔ due := Machine.isSome_tone_iff f.machine
  have hheld : players (c.actReports acts ++ d.cycle.reports) = f.buzzer.player.toList := by
    rw [players, deviceCalls_append, List.foldl_append, hplayers]
    exact hledger
  refine ⟨?_, ?_, ?_, ⟨hheld, ?_⟩, ⟨?_, ?_⟩, ?_⟩
  · rw [Machine.audio_eq]
    exact (Buzzer.obeyed hd f.machine.tone).failure
  · rw [hf.2]
    exact hdue
  · intro hplaying
    rw [hf.2] at hplaying
    rw [hf.1, Machine.tone_of_isSome hplaying]
    rfl
  · rw [hheld]
    exact Option.length_toList_le
  -- a tone begins where the one before, if any, was another
  · have hbegins : (f.machine.tone.isSome ∧ tone ≠ f.machine.tone) ↔ due ∧
        (d.buzzer.playing = false ∨ d.buzzer.frequency ≠ some (.whole f.machine.toneHz)) := by
      rw [← hdue, ← Buzzer.ne_some_iff_of_sounds hd]
      refine and_congr_right fun hs => ?_
      rw [Machine.tone_of_isSome hs]
    rw [← hbegins, show created = _ from hcreated]
    split
    · exact ⟨fun _ => ‹_›, fun _ => List.cons_ne_nil _ _⟩
    · exact ⟨fun hne => absurd rfl hne, fun hnew => absurd hnew ‹_›⟩
  · rw [show created = _ from hcreated]
    split
    · exact Nat.le_refl 1
    · exact Nat.zero_le 1
  · exact fun later hlater => held_run hf hlater

theorem Looping.tone_cycle (h : c.Looping) (hs : 1 < c.machine.sound) :
    c.cycle.state.machine.sound = c.machine.sound - 1 ∧
      c.cycle.state.machine.tone = some c.machine.toneHz := by
  obtain ⟨hnone, hnext, hwords⟩ := h.frame
  have hticks : c.Ticking := ⟨h.running, hnone, hnext.paused⟩
  have hset : ∀ s ∈ c.takenBy .cycle, ¬ s.word.fits Timer.sound.setter := by
    intro s hs
    rw [hwords s hs]
    decide
  have htimer : c.cycle.state.machine.sound = if c.Ticking then _ else _ :=
    timer_cycle (t := .sound) h.atLoop.wellFormed hset
  rw [if_pos hticks] at htimer
  have hsound : c.cycle.state.machine.sound = c.machine.sound - 1 := by
    rw [htimer]
    show max 0 (c.machine.sound - 1) = _
    omega
  refine ⟨hsound, ?_⟩
  rw [← (host_cycle h.atLoop.wellFormed).2]
  exact if_pos ⟨by omega, hnext.running⟩

/-- As long as the sound timer of a program that jumps to itself lasts, its tone is held. -/
theorem Looping.holding (h : c.Looping) {calls : List Call}
    (hcalls : ∀ call ∈ calls, call.isPlayed = true) (hlong : calls.count .cycle < c.machine.sound) :
    Holding (some c.machine.toneHz) c (calls.map .call) := by
  induction calls generalizing c with
  | nil => trivial
  | cons call rest ih =>
      obtain ⟨hplayed, hrest⟩ := List.forall_mem_cons.1 hcalls
      rcases Call.isPlayed_cases hplayed with rfl | ⟨keys, rfl⟩
      · rw [List.count_cons_self] at hlong
        obtain ⟨hsound, htone⟩ := h.tone_cycle (by omega)
        have hlater := ih h.frame.2.1 hrest (by omega)
        rw [(host_cycle h.atLoop.wellFormed).2] at hlater
        exact ⟨fun _ => htone, hlater⟩
      · rw [List.count_cons_of_ne Call.noConfusion] at hlong
        obtain ⟨hsound, _, htone⟩ := audio_keys h.atLoop.wellFormed keys
        have hlater := ih (h.keys keys) hrest (hsound.symm ▸ hlong)
        rw [htone] at hlater
        exact ⟨fun ho => (nomatch ho), hlater⟩

/-- A tone of nine frames is started in the first and left alone in the second. -/
theorem tone_of_loop :
    let m := (Machine.fresh 3 440 (.cycling [])).loaded [0x12, 0x00]
    let c : Console := ⟨{ m with sound := 9 }, [⟨.machine, false⟩], .silent⟩
    let f := c.cycle.state
    let later : List Act := [.call (.keys (.press 5)), .call .cycle]
    (deviceCalls c.cycle.reports).filterMap DeviceCall.created? ≠ [] ∧
      f.buzzer.frequency = some (.whole 440) ∧ Holding f.machine.tone f later ∧
      deviceCalls (f.actReports later) = [] := by
  intro m c f later
  have hfresh := Machine.wellFormed_fresh 3 440 (.cycling [])
  have hm : m.WellFormed := Machine.wellFormed_loaded hfresh (by decide)
  have hc : c.machine.WellFormed := hm.withTimers hm.delay_range (by decide)
  have hloop : c.Looping := looping_of_loaded hfresh hc rfl rfl rfl rfl
  have hhertz : m.toneHz = 440 := rfl
  clear_value m
  obtain ⟨hsound, htone⟩ := hloop.tone_cycle (by decide : (1 : Int) < 9)
  have hlong : ((([.keys (.press 5), .cycle] : List Call).count .cycle : Nat) : Int)
      < f.machine.sound := by
    rw [hsound]
    exact (by decide : (1 : Int) < 9 - 1)
  have hheld : Holding f.machine.tone f later := by
    rw [htone, ← (host_cycle hc).2]
    exact hloop.frame.2.1.holding (by decide) hlong
  obtain ⟨_, hplaying, hfrequency, _, ⟨hcreated, _⟩, hquiet⟩ := sound_agrees c.machine c.handlers []
  have hdue : 0 < f.machine.sound ∧ f.machine.halted = false :=
    (Machine.isSome_tone_iff f.machine).1 (by rw [htone]; rfl)
  refine ⟨hcreated.2 ⟨hdue, Or.inl rfl⟩, ?_, hheld, (hquiet later hheld).1⟩
  rw [← hhertz, ← (host_cycle hc).2]
  exact hfrequency (hplaying.2 hdue)

end Console

end Chip8
