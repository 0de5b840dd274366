import Chip8.Proofs.Console.NetKeys

/-! # Key events replay to the keys

    A change of a key is dispatched as one event: the log tells of it, and then everyone hears
    it who listens.  **`dispatched`** are the events that reports tell of.

    What key calls dispatch is all that there is to know about the keys: the keys held are
    those whose last event is a press (**`Keypad.Replays`**), after every call and between any
    two events of a call, whatever numbers are asked for (**`key_events_replay`**). -/

namespace Chip8

open Machine

namespace Keypad

/-- The keys of a keypad are what events tell: the events about a key take turns, beginning
    with a press, and the key is held exactly if the last of them is a press; about a number
    that is no key nothing is told, and it is not held. -/
structure Replays (p : Keypad) (es : List KeyEvent) : Prop where
  turns : ∀ number : Int, (about number es).IsChain (· ≠ ·)
  begins : ∀ number : Int, ∀ e ∈ (about number es).head?, ∃ k, e = .down k
  held : ∀ number : Int,
    p.isHeld number = true ↔ ∃ k, (about number es).getLast? = some (.down k)
  noKey : ∀ number : Int, ¬ (0 ≤ number ∧ number < 16) →
    about number es = [] ∧ p.isHeld number = false

/-- **GENUINE EVENTS REPLAY** from a keypad with every key up. -/
theorem replays_of_genuine {es : List KeyEvent} (h : released.Genuine es) :
    (released.afterAll es).Replays es := by
  have hsome {number : Int} {k : Key} (hk : key? number = some k) :
      about number es = about k.val es := by rw [val_of_key? hk]
  constructor
  · intro number
    cases hk : key? number with
    | none =>
        rw [about_of_key?_eq_none hk]
        exact List.IsChain.nil
    | some k =>
        rw [hsome hk]
        exact (turns_of_genuine h k).1
  · intro number e he
    cases hk : key? number with
    | none =>
        rw [about_of_key?_eq_none hk] at he
        exact nomatch he
    | some k =>
        rw [hsome hk] at he
        have hchange := (turns_of_genuine h k).2 e he
        cases e with
        | down j => exact ⟨j, rfl⟩
        | up j => exact nomatch (holds_released j).symm.trans hchange
  · intro number
    cases hk : key? number with
    | none =>
        rw [isHeld_of_none hk, about_of_key?_eq_none hk]
        exact ⟨fun hheld => (nomatch hheld), fun ⟨_, hlast⟩ => (nomatch hlast)⟩
    | some k =>
        rw [isHeld_of_key? hk, hsome hk, holds_afterAll, holds_released]
        cases hlast : (about k.val es).getLast? with
        | none => exact ⟨fun hheld => (nomatch hheld), fun ⟨_, hdown⟩ => (nomatch hdown)⟩
        | some e =>
            cases e with
            | down j => exact ⟨fun _ => ⟨j, rfl⟩, fun _ => rfl⟩
            | up j => exact ⟨fun hheld => (nomatch hheld), fun ⟨_, hdown⟩ => (nomatch hdown)⟩
  · intro number hout
    have hk := (key?_eq_none_iff number).2 hout
    exact ⟨about_of_key?_eq_none hk es, isHeld_of_none hk⟩

end Keypad

namespace Console

variable {c : Console}

/-! ## What is dispatched -/

/-- The key event that a report tells of, if it does. -/
def Report.keyEvent? : Report → Option KeyEvent
  | .entry (.key true number)  => (key? number).map .down
  | .entry (.key false number) => (key? number).map .up
  | _                          => none

/-- The key events that reports tell of, in the order in which they were dispatched. -/
def dispatched (reports : List Report) : List KeyEvent := reports.filterMap Report.keyEvent?

def Report.heardAs? (name : String) : Report → Option KeyEvent
  | .observed n e => if n = name then some e else none
  | _             => none

/-- The key events that an observer has heard. -/
def heardAs (name : String) (reports : List Report) : List KeyEvent :=
  reports.filterMap (Report.heardAs? name)

/-- Reports tell of events, and whoever stands once among those who hear has heard just
    those. -/
structure Tells (c : Console) (reports : List Report) (es : List KeyEvent) : Prop where
  dispatched : dispatched reports = es
  heard : ∀ name, (heardBy c.handlers).count (.observer name) = 1 → heardAs name reports = es

theorem Tells.append {reports reports' : List Report} {es es' : List KeyEvent}
    (h : Tells c reports es) (h' : Tells c reports' es') :
    Tells c (reports ++ reports') (es ++ es') where
  dispatched := by
    rw [Console.dispatched, List.filterMap_append]
    exact congrArg₂ (· ++ ·) h.dispatched h'.dispatched
  heard := by
    intro name hname
    rw [heardAs, List.filterMap_append]
    exact congrArg₂ (· ++ ·) (h.heard name hname) (h'.heard name hname)

theorem dispatched_hearNotes (m : Machine) (e : KeyEvent) (name : String) :
    dispatched ((m.hearNotes e).map .entry) = [] ∧
      heardAs name ((m.hearNotes e).map .entry) = [] := by
  cases e with
  | up k => exact ⟨rfl, rfl⟩
  | down k =>
      rw [hearNotes]
      cases m.waiting <;> exact ⟨rfl, rfl⟩

/-- Those who hear an event dispatch none, and each hears it as often as it stands there. -/
theorem tellAll_reports (e : KeyEvent) (name : String) :
    ∀ (ls : List Listener) (c : Console), c.machine.WellFormed →
      dispatched (tellAll e ls c).reports = [] ∧
      heardAs name (tellAll e ls c).reports = List.replicate (ls.count (.observer name)) e := by
  intro ls
  induction ls with
  | nil => exact fun _ _ => ⟨rfl, rfl⟩
  | cons l rest ih =>
      intro c h
      cases l with
      | observer n =>
          obtain ⟨hnone, hrest⟩ := ih c h
          have hreports : (tellAll e (.observer n :: rest) c).reports
              = [.observed n e] ++ (tellAll e rest c).reports := rfl
          rw [hreports, dispatched, heardAs, List.filterMap_append, List.filterMap_append]
          refine ⟨hnone, (congrArg (_ ++ ·) hrest).trans ?_⟩
          by_cases hn : n = name
          · subst hn
            rw [List.count_cons_self, List.replicate_succ]
            simp only [List.filterMap_cons, Report.heardAs?, if_true, List.filterMap_nil,
              List.cons_append, List.nil_append]
          · rw [List.count_cons_of_ne (fun hsame => hn (Listener.observer.inj hsame))]
            simp only [List.filterMap_cons, Report.heardAs?, hn, if_false, List.filterMap_nil,
              List.nil_append]
      | machine =>
          obtain ⟨hnone, hrest⟩ :=
            ih { c with machine := c.machine.heard e } (wellFormed_heard h e)
          obtain ⟨hquiet, hdeaf⟩ := dispatched_hearNotes c.machine e name
          have hreports : (tellAll e (.machine :: rest) c).reports
              = (c.machine.hearNotes e).map .entry
                ++ (tellAll e rest { c with machine := c.machine.heard e }).reports := by
            rw [tellAll, tell_machine h]
            rfl
          rw [hreports, dispatched, heardAs, List.filterMap_append, List.filterMap_append]
          rw [List.count_cons_of_ne Listener.noConfusion]
          exact ⟨congrArg₂ (· ++ ·) hquiet hnone, congrArg₂ (· ++ ·) hdeaf hrest⟩

/-- The entry about an event tells of it. -/
theorem dispatched_keyEntry (e : KeyEvent) : dispatched [.entry (keyEntry e)] = [e] := by
  cases e with
  | down k =>
      simp only [dispatched, keyEntry, List.filterMap_cons, Report.keyEvent?, Keypad.key?_val,
        Option.map_some, List.filterMap_nil]
  | up k =>
      simp only [dispatched, keyEntry, List.filterMap_cons, Report.keyEvent?, Keypad.key?_val,
        Option.map_some, List.filterMap_nil]

/-- **AN EVENT IS DISPATCHED ONCE.** -/
theorem tells_signal (h : c.machine.WellFormed) (e : KeyEvent) :
    Tells c (c.signal e).reports [e] := by
  have htold (name : String) := tellAll_reports e name (heardBy c.handlers)
    { c with machine := c.machine.keyed e } (h.withKeypad _)
  have hreports : (c.signal e).reports = [.entry (keyEntry e)]
      ++ (tellAll e (heardBy c.handlers) { c with machine := c.machine.keyed e }).reports := rfl
  rw [hreports]
  constructor
  · rw [dispatched, List.filterMap_append]
    exact congrArg₂ (· ++ ·) (dispatched_keyEntry e) (htold "").1
  · intro name hname
    have hheard := (htold name).2
    rw [hname] at hheard
    rw [heardAs, List.filterMap_append]
    exact congrArg₂ (· ++ ·) (by cases e <;> rfl) hheard

theorem tells_signalAll (h : c.machine.WellFormed) (es : List KeyEvent) :
    Tells c (signalAll es c).reports es := by
  induction es generalizing c with
  | nil => exact ⟨rfl, fun _ _ => rfl⟩
  | cons e rest ih =>
      have hrest := ih (wellFormed_afterKey h e)
      rw [signalAll_cons h]
      exact (tells_signal h e).append ⟨hrest.dispatched, hrest.heard⟩

theorem keypad_afterKeys (c : Console) (es : List KeyEvent) :
    (c.afterKeys es).machine.keypad = c.machine.keypad.afterAll es := by
  induction es generalizing c with
  | nil => rfl
  | cons e rest ih =>
      refine (ih (c.afterKey e)).trans ?_
      rw [keypad_afterKey]
      rfl

/-- Key calls dispatch the events that they come to, and leave the keys as those do. -/
theorem tells_run (h : c.machine.WellFormed) (calls : List KeyCall) :
    Tells c (c.runReports (calls.map .keys)) (events c.machine.keypad calls) ∧
      (c.run (calls.map .keys)).machine.keypad
        = c.machine.keypad.afterAll (events c.machine.keypad calls) := by
  induction calls generalizing c with
  | nil => exact ⟨⟨rfl, fun _ _ => rfl⟩, rfl⟩
  | cons call rest ih =>
      have hstate := performKeys_state h call
      have hkeypad := keypad_afterKeys c (call.plan c.machine.keypad).1
      rw [← hstate] at hkeypad
      obtain ⟨hlater, hend⟩ := ih (wellFormed_perform h (.keys call))
      have hhandlers : (c.performKeys call).state.handlers = c.handlers := by
        rw [hstate]
        exact handlers_afterKeys c _
      have hfirst := tells_signalAll h (call.plan c.machine.keypad).1
      rw [← performKeys_reports h call] at hfirst
      rw [show (c.perform (.keys call)).state = (c.performKeys call).state from rfl] at hlater hend
      rw [hkeypad] at hlater hend
      refine ⟨hfirst.append ⟨hlater.dispatched, ?_⟩, ?_⟩
      · intro name hname
        rw [← hhandlers] at hname
        exact hlater.heard name hname
      · rw [events, Keypad.afterAll_append]
        exact hend

/-! ## Calls that change one key -/

/-- What a call that changes one key does, which dispatches `event` if it does.  It answers yes
    if it dispatches one event, and no if it dispatches none and changes nothing; a number that
    is no key is refused without an answer, and again nothing changes. -/
structure Changes (c : Console) (number : Int) (event : Key → KeyEvent) (o : Answered) :
    Prop where
  yes : o.answer = some true ↔ ∃ e, dispatched o.outcome.reports = [e]
  no : o.answer = some false ↔
    o.outcome.failure = none ∧ o.outcome.state = c ∧ dispatched o.outcome.reports = []
  event : ∀ e ∈ dispatched o.outcome.reports, ∃ k : Key, (k.val : Int) = number ∧ e = event k
  answers : o.answer.isSome = true ↔ o.outcome.failure = none
  refuses : o.outcome.failure ≠ none ↔ ¬ (0 ≤ number ∧ number < 16)
  refused : o.outcome.failure ≠ none →
    o.outcome.failure = some (.key ⟨number⟩) ∧ o.outcome.state = c ∧
      dispatched o.outcome.reports = []

/-- A change that is asked for of one key: that of the key with the number, if it has one. -/
theorem changes_signalChange (h : c.machine.WellFormed) {number : Int} {event : Key → KeyEvent}
    {asked : Except NotAKey (Option KeyEvent)} (due : Key → Bool)
    (hnone : key? number = none → asked = .error ⟨number⟩)
    (hsome : ∀ k, key? number = some k → asked = .ok (if due k then some (event k) else none)) :
    Changes c number event (c.signalChange asked) := by
  cases hk : key? number with
  | none =>
      have hout := (Keypad.key?_eq_none_iff number).1 hk
      rw [hnone hk]
      exact {
        yes := ⟨fun ha => (nomatch ha), fun ⟨_, he⟩ => (nomatch he)⟩
        no := ⟨fun ha => (nomatch ha), fun hn => (nomatch hn.1)⟩
        event := fun e he => nomatch he
        answers := ⟨fun ha => (nomatch ha), fun hn => (nomatch hn)⟩
        refuses := ⟨fun _ => hout, fun _ => Option.some_ne_none _⟩
        refused := fun _ => ⟨rfl, rfl, rfl⟩ }
  | some k =>
      have hin : 0 ≤ number ∧ number < 16 := by
        have hval := Keypad.val_of_key? hk
        omega
      rw [hsome k hk]
      cases hdue : due k with
      | false =>
          exact {
            yes := ⟨fun ha => (nomatch ha), fun ⟨_, he⟩ => (nomatch he)⟩
            no := ⟨fun _ => ⟨rfl, rfl, rfl⟩, fun _ => rfl⟩
            event := fun e he => nomatch he
            answers := ⟨fun _ => rfl, fun _ => rfl⟩
            refuses := ⟨fun hf => absurd rfl hf, fun hout => absurd hin hout⟩
            refused := fun hf => absurd rfl hf }
      | true =>
          have htold := (tells_signal h (event k)).dispatched
          have hfail := (signal_eq h (event k)).2
          have hanswer : (Answered.of (c.signal (event k)) true).answer = some true := by
            rw [Answered.of, hfail]
            rfl
          exact {
            yes := ⟨fun _ => ⟨event k, htold⟩, fun _ => hanswer⟩
            no := ⟨fun ha => (nomatch hanswer.symm.trans ha),
              fun hn => (nomatch htold.symm.trans hn.2.2)⟩
            event := by
              intro e he
              have hmem : e ∈ dispatched (c.signal (event k)).reports := he
              rw [htold] at hmem
              exact ⟨k, Keypad.val_of_key? hk, List.mem_singleton.1 hmem⟩
            answers := ⟨fun _ => hfail, fun _ => congrArg Option.isSome hanswer⟩
            refuses := ⟨fun hf => absurd hfail hf, fun hout => absurd hin hout⟩
            refused := fun hf => absurd hfail hf }

theorem changes_press (h : c.machine.WellFormed) (number : Int) :
    Changes c number .down (c.press number) := by
  refine changes_signalChange h (fun k => !c.machine.keypad.holds k) ?_ ?_
  · intro hk
    rw [Keypad.press, hk]
  · intro k hk
    simp only [Keypad.press, hk]
    cases c.machine.keypad.holds k <;> rfl

theorem changes_release (h : c.machine.WellFormed) (number : Int) :
    Changes c number .up (c.release number) := by
  refine changes_signalChange h (fun k => c.machine.keypad.holds k) ?_ ?_
  · intro hk
    rw [Keypad.release, hk]
  · intro k hk
    rw [Keypad.release, hk]

/-! ## Runs -/

/-- **KEY EVENTS REPLAY TO THE KEYS.**  Let every key be up at first, and whoever listens fail
    at nothing.  After any key calls, those that are refused among them,

    * the events dispatched so far replay to the keys, and who stands once among those who
      hear has heard just those;
    * so it is between any two events of a further call, which dispatches them one by one and
      complains, if it does, when they are over;
    * pressing and releasing a key answer yes exactly if they dispatch one event, answer no
      exactly if they dispatch none and change nothing, and are refused exactly for a number
      that is no key, which changes nothing either. -/
theorem key_events_replay {c : Console} (h : c.machine.WellFormed)
    (hup : c.machine.keypad = .released) (calls : List KeyCall) :
    let d := c.run (calls.map .keys)
    let reports := c.runReports (calls.map .keys)
    (d.machine.keypad.Replays (dispatched reports) ∧
      ∀ name, (heardBy c.handlers).count (.observer name) = 1 →
        heardAs name reports = dispatched reports) ∧
    (∀ (call : KeyCall) (sofar rest : List KeyEvent),
      (call.plan d.machine.keypad).1 = sofar ++ rest →
      let moment := (signalAll sofar d).state
      d.performKeys call = (signalAll sofar d).andThen (fun c =>
        (signalAll rest c).andThen (complain (call.plan d.machine.keypad).2)) ∧
      moment.machine.keypad.Replays (dispatched (reports ++ (signalAll sofar d).reports))) ∧
    (∀ number, Changes d number .down (d.press number)) ∧
    ∀ number, Changes d number .up (d.release number) := by
  intro d reports
  obtain ⟨htold, hkeypad⟩ := tells_run h calls
  have hd : d.machine.WellFormed := wellFormed_run h _
  have hgenuine := genuine_events c.machine.keypad calls
  rw [hup] at htold hkeypad hgenuine
  have hreports : dispatched reports = events .released calls := htold.dispatched
  have hkeys : d.machine.keypad = Keypad.released.afterAll (events .released calls) := hkeypad
  refine ⟨⟨?_, ?_⟩, ?_, changes_press hd, changes_release hd⟩
  · rw [hkeys, hreports]
    exact Keypad.replays_of_genuine hgenuine
  · intro name hname
    rw [hreports]
    exact htold.heard name hname
  · intro call sofar rest hplan moment
    refine ⟨?_, ?_⟩
    · rw [performKeys_eq, hplan, signalAll_append, Outcome.andThen_assoc]
    -- the events so far begin what the whole call would dispatch
    · have hmoment : moment.machine.keypad = d.machine.keypad.afterAll sofar := by
        show (signalAll sofar d).state.machine.keypad = _
        rw [(signalAll_eq hd sofar).1]
        exact keypad_afterKeys d sofar
      have hsofar : d.machine.keypad.Genuine sofar := by
        have hcall := call.genuine_plan d.machine.keypad
        rw [hplan] at hcall
        exact ((d.machine.keypad.genuine_append _ _).1 hcall).1
      rw [hkeys] at hmoment hsofar
      rw [hmoment, dispatched, List.filterMap_append]
      rw [show reports.filterMap Report.keyEvent? = _ from hreports,
        show (signalAll sofar d).reports.filterMap Report.keyEvent? = sofar
          from (tells_signalAll hd sofar).dispatched, ← Keypad.afterAll_append]
      exact Keypad.replays_of_genuine ((Keypad.genuine_append _ _ _).2 ⟨hgenuine, hsofar⟩)

/-- Under an observer that keeps key events from the machine, two presses of which one is a
    repetition, one of a number that is no key, a release of all keys, and another press. -/
theorem replay_under_observer :
    let c := (ofMachine (Machine.fresh 10 440 (.cycling []))).observe "top" true
    let calls : List KeyCall := [.press 3, .press 3, .press 16, .releaseAll, .press 5]
    let d := c.run (calls.map .keys)
    let reports := c.runReports (calls.map .keys)
    c.machine.WellFormed ∧ c.machine.keypad = .released ∧
      heardAs "top" reports = [.down 3, .up 3, .down 5] ∧
      d.machine.keypad.isHeld 5 = true ∧ d.machine.keypad.isHeld 3 = false ∧
      (d.press 16).outcome.failure = some (.key ⟨16⟩) := by
  intro c calls
  have h : c.machine.WellFormed := Machine.wellFormed_fresh 10 440 (.cycling [])
  have hup : c.machine.keypad = .released := rfl
  have hstands : (heardBy c.handlers).count (.observer "top") = 1 := by decide
  have hevents : events .released calls = [.down 3, .up 3, .down 5] := by
    simp only [calls, events, KeyCall.plan, Keypad.plan_nil]
    decide
  -- from here on it matters no more which console and which calls these are
  clear_value c calls
  intro d reports
  obtain ⟨⟨hreplays, hheard⟩, _, hpress, _⟩ := key_events_replay h hup calls
  have hreports : dispatched reports = [.down 3, .up 3, .down 5] :=
    (hup ▸ (tells_run h calls).1.dispatched).trans hevents
  have htop : heardAs "top" reports = dispatched reports := hheard "top" hstands
  have hkeys : d.machine.keypad.Replays (dispatched reports) := hreplays
  rw [hreports] at htop hkeys
  refine ⟨h, hup, htop, (hkeys.held 5).2 ⟨5, by decide⟩, ?_, ?_⟩
  · rw [← Bool.not_eq_true, hkeys.held]
    rintro ⟨k, hk⟩
    revert k
    decide
  · exact ((hpress 16).refused ((hpress 16).refuses.2 (by decide))).1

end Console

end Chip8
