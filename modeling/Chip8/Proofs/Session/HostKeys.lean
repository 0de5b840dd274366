import Chip8.Proofs.Console.Replay
import Chip8.Proofs.Console.Rest
import Chip8.Proofs.Machine.Keyless
import Chip8.Proofs.Session.Presentation

/-! # Host keys and the keypad

    A host key either stands for one key of the keypad or for none, and no key has two host keys
    (**`existsUnique_symbol`**).  What an event asks of the keypad (**`HostEvent.asks?`**) is all
    that it does to it, whatever else happens, on any session (**`asked_handle`**).

    So the last event about a host key tells whether its key is held (**`holds_handled`**), and
    a key that is held already, or up already, comes to nothing when it is pressed, or released,
    again (**`change_cases`**). -/

namespace Chip8

open Machine

namespace Keypad

/-- What changes nothing leaves the keypad as it is. -/
theorem after_of_not_changedBy {p : Keypad} {e : KeyEvent} (h : ¬ p.changedBy e) :
    p.after e = p := by
  refine eq_of_holds fun j => ?_
  by_cases hj : e.key = j
  · subst hj
    cases e with
    | down k =>
        have hheld : p.holds k = true := (Bool.not_eq_false _).mp h
        exact ((p.holds_after_down k k).trans (if_pos rfl)).trans hheld.symm
    | up k =>
        have hup : p.holds k = false := (Bool.not_eq_true _).mp h
        exact ((p.holds_after_up k k).trans (if_pos rfl)).trans hup.symm
  · exact holds_after_of_ne p hj

theorem press_val (p : Keypad) (k : Key) :
    p.press k.val = .ok (if p.holds k then none else some (.down k)) := by
  simp only [press, key?_val]

theorem release_val (p : Keypad) (k : Key) :
    p.release k.val = .ok (if p.holds k then some (.up k) else none) := by
  simp only [release, key?_val]

end Keypad

namespace Console

variable {c : Console} {o : Result}

/-! ## Those who hear of a key -/

/-- The keypad is left as it was, no number was refused for being no key, and no key event was
    dispatched. -/
structure Passive (c : Console) (o : Result) : Prop where
  keypad : o.state.machine.keypad = c.machine.keypad
  failure : ∀ bad, o.failure ≠ some (.key bad)
  dispatched : Console.dispatched o.reports = []

theorem passive_done (c : Console) : Passive c (.done c) := ⟨rfl, none_ne_key, rfl⟩

theorem Passive.andThen (h : Passive c o) {next : Console → Result}
    (hnext : ∀ d, Passive d (next d)) : Passive c (o.andThen next) := by
  rw [Outcome.andThen]
  split
  · exact h
  · have hrest := hnext o.state
    refine ⟨hrest.keypad.trans h.keypad, hrest.failure, ?_⟩
    show Console.dispatched (o.reports ++ _) = []
    rw [Console.dispatched, List.filterMap_append]
    exact List.append_eq_nil_iff.2 ⟨h.dispatched, hrest.dispatched⟩

theorem passive_tell (e : KeyEvent) (l : Listener) (c : Console) : Passive c (c.tell e l) := by
  cases l with
  | observer name => exact ⟨rfl, none_ne_key, rfl⟩
  | machine =>
      rw [tell, onMachine]
      rcases c.machine.hear_cases e with hhear | ⟨refusal, hhear⟩ | ⟨registers, k, r, hhear⟩
      · rw [hhear]
        exact passive_done c
      · rw [hhear]
        exact ⟨rfl, some_ne_key rfl, rfl⟩
      · rw [hhear]
        exact ⟨rfl, none_ne_key, rfl⟩

theorem passive_tellAll (e : KeyEvent) (ls : List Listener) (c : Console) :
    Passive c (tellAll e ls c) := by
  induction ls generalizing c with
  | nil => exact passive_done c
  | cons l rest ih => exact (passive_tell e l c).andThen ih

/-! ## Changing one key -/

/-- The keypad is changed as events say, no number was refused for being no key, and just these
    events were dispatched. -/
structure Keys (c : Console) (es : List KeyEvent) (o : Result) : Prop where
  keypad : o.state.machine.keypad = c.machine.keypad.afterAll es
  failure : ∀ bad, o.failure ≠ some (.key bad)
  dispatched : Console.dispatched o.reports = es

theorem keys_signal (c : Console) (e : KeyEvent) : Keys c [e] (c.signal e) := by
  have htold := passive_tellAll e (heardBy c.handlers) { c with machine := c.machine.keyed e }
  refine ⟨htold.keypad, htold.failure, ?_⟩
  have hreports : (c.signal e).reports = [.entry (keyEntry e)]
      ++ (tellAll e (heardBy c.handlers) { c with machine := c.machine.keyed e }).reports := rfl
  rw [hreports, Console.dispatched, List.filterMap_append]
  exact congrArg₂ (· ++ ·) (dispatched_keyEntry e) htold.dispatched

/-- The call that asks for a change of a key. -/
def change (c : Console) : KeyEvent → Result
  | .down k => (c.press k.val).outcome
  | .up k   => (c.release k.val).outcome

/-- **A CHANGE OF A KEY** is signalled, or it comes to nothing for it is none. -/
theorem change_cases (c : Console) (e : KeyEvent) :
    (c.machine.keypad.changedBy e ∧ c.change e = c.signal e) ∨
    (¬ c.machine.keypad.changedBy e ∧ c.change e = .done c) := by
  cases e with
  | down k =>
      rw [Keypad.changedBy, change, press, Keypad.press_val]
      cases c.machine.keypad.holds k with
      | true => exact Or.inr ⟨Bool.noConfusion, rfl⟩
      | false => exact Or.inl ⟨rfl, rfl⟩
  | up k =>
      rw [Keypad.changedBy, change, release, Keypad.release_val]
      cases c.machine.keypad.holds k with
      | true => exact Or.inl ⟨rfl, rfl⟩
      | false => exact Or.inr ⟨Bool.noConfusion, rfl⟩

theorem keypad_change (c : Console) (e : KeyEvent) :
    (c.change e).state.machine.keypad = c.machine.keypad.after e := by
  rcases c.change_cases e with ⟨_, hsignal⟩ | ⟨hsame, hdone⟩
  · rw [hsignal]
    exact (keys_signal c e).keypad
  · rw [hdone, Keypad.after_of_not_changedBy hsame]
    rfl

theorem failure_change (c : Console) (e : KeyEvent) (bad : NotAKey) :
    (c.change e).failure ≠ some (.key bad) := by
  rcases c.change_cases e with ⟨_, hsignal⟩ | ⟨_, hdone⟩
  · rw [hsignal]
    exact (keys_signal c e).failure bad
  · rw [hdone]
    exact none_ne_key bad

end Console

/-! ## Host keys -/

namespace Session

/-- The key that a host key stands for. -/
def keyOf? (symbol : String) : Option Key := (keyMap.lookup symbol).bind fun k => key? k

theorem mem_keyMap {symbol : String} {n : Nat} (h : keyMap.lookup symbol = some n) :
    (symbol, n) ∈ keyMap := by
  obtain ⟨before, behind, hmap, -⟩ := List.lookup_eq_some_iff.1 h
  rw [hmap]
  exact List.mem_append_right _ List.mem_cons_self

/-- Host keys that stand for something stand for a key. -/
theorem key_of_lookup {symbol : String} {n : Nat} (h : keyMap.lookup symbol = some n) :
    ∃ k : Key, k.val = n := by
  have hkeys : ∀ entry ∈ keyMap, ∃ k : Key, k.val = entry.2 := by decide
  exact hkeys _ (mem_keyMap h)

theorem keyOf?_of_lookup {symbol : String} {k : Key} (h : keyMap.lookup symbol = some k.val) :
    keyOf? symbol = some k := by
  rw [keyOf?, h]
  exact Keypad.key?_val k

theorem keyOf?_of_none {symbol : String} (h : keyMap.lookup symbol = none) :
    keyOf? symbol = none := by
  rw [keyOf?, h]
  rfl

theorem lookup_of_keyOf? {symbol : String} {k : Key} (h : keyOf? symbol = some k) :
    keyMap.lookup symbol = some k.val := by
  obtain ⟨n, hlookup, hk⟩ := Option.bind_eq_some_iff.1 h
  have hval : k.val = n := Int.ofNat_inj.1 (Keypad.val_of_key? hk)
  rw [hlookup, hval]

/-- **EACH KEY HAS ONE HOST KEY.** -/
theorem existsUnique_symbol (k : Key) : ∃! symbol, keyMap.lookup symbol = some k.val := by
  have hall : ∀ k : Key, ∃ entry ∈ keyMap, keyMap.lookup entry.1 = some k.val := by decide
  have hone : ∀ entry ∈ keyMap, ∀ other ∈ keyMap, entry.2 = other.2 → entry.1 = other.1 := by
    decide
  obtain ⟨⟨symbol, _⟩, -, hsymbol⟩ := hall k
  refine ⟨symbol, hsymbol, fun other hother => ?_⟩
  exact hone _ (mem_keyMap hother) _ (mem_keyMap hsymbol) rfl

theorem lookup_closeKey : keyMap.lookup closeKey = none := by decide

theorem lookup_traceKey : keyMap.lookup traceKey = none := by decide

end Session

namespace HostEvent

/-- The change of a key that an event asks for. -/
def asks? : HostEvent → Option KeyEvent
  | .press symbol   => (Session.keyOf? symbol).map .down
  | .release symbol => (Session.keyOf? symbol).map .up
  | _               => none

/-- Whether an event is about a host key. -/
def concerns (symbol : String) : HostEvent → Bool
  | .press other   => other == symbol
  | .release other => other == symbol
  | _              => false

end HostEvent

namespace Session

variable {s : Session} {o o' : Result}

/-- What an event does about keys that asks for a change of none. -/
structure Unkeyed (s : Session) (o : Result) : Prop where
  keypad : o.state.console.machine.keypad = s.console.machine.keypad
  failure : ∀ bad, o.failure ≠ some (.key bad)

theorem unkeyed_done (s : Session) : Unkeyed s (.done s) := ⟨rfl, none_ne_key⟩

theorem Unkeyed.next (h : Unkeyed s o) (h' : Unkeyed o.state o') :
    Unkeyed s (o'.after o.reports) :=
  ⟨h'.keypad.trans h.keypad, h'.failure⟩

theorem unkeyed_close (s : Session) : Unkeyed s s.close := by
  rw [close_eq]
  refine ⟨?_, none_ne_key⟩
  show s.console.silence.state.machine.keypad = _
  rw [Console.silence_eq]

theorem unkeyed_frame (s : Session) : Unkeyed s s.frame := by
  have hcycle : Unkeyed s (s.onConsole Console.cycle) :=
    ⟨(unkeyed_cycle s.console.machine).keypad, (unkeyed_cycle s.console.machine).failure⟩
  rcases s.frame_cases with ⟨_, hframe⟩ | ⟨_, c, _, hframe⟩ | ⟨_, _, hframe⟩
  · rw [hframe]
    exact unkeyed_done s
  · rw [hframe]
    have hclose := unkeyed_close (s.onConsole Console.cycle).state
    exact hcycle.next ⟨hclose.keypad, hclose.failure⟩
  · rw [hframe]
    exact hcycle

theorem unkeyed_call (c : Callback) (s : Session) : Unkeyed s (s.call c) := by
  cases c with
  | frame => exact unkeyed_frame s
  | statistics =>
      have hsame := emulation_measure s
      exact ⟨congrArg (fun e : Emulation => e.console.machine.keypad) hsame, none_ne_key⟩

theorem unkeyed_callAll (cs : List Callback) (s : Session) : Unkeyed s (callAll cs s) := by
  induction cs generalizing s with
  | nil => exact unkeyed_done s
  | cons c rest ih =>
      rw [callAll, Outcome.andThen]
      split
      · exact unkeyed_call c s
      · exact (unkeyed_call c s).next (ih _)

theorem failure_refresh (s : Session) (bad : NotAKey) : s.refresh.failure ≠ some (.key bad) := by
  rw [refresh]
  simp only
  split
  · split
    · exact some_ne_key rfl bad
    · exact none_ne_key bad
  · exact none_ne_key bad

theorem unkeyed_draw (s : Session) : Unkeyed s s.draw := by
  refine ⟨congrArg (fun e : Emulation => e.console.machine.keypad) s.draw_presents.1, ?_⟩
  intro bad
  show (s.refresh.andThen _).failure ≠ _
  rw [Outcome.andThen]
  split
  · exact s.failure_refresh bad
  · exact none_ne_key bad

/-- A host key that stands for none may close the window or switch the trace. -/
theorem unkeyed_press {symbol : String} (h : keyMap.lookup symbol = none) (s : Session) :
    Unkeyed s (s.press symbol) := by
  rw [press, h]
  split
  · exact unkeyed_close s
  · split
    · exact ⟨rfl, none_ne_key⟩
    · exact unkeyed_done s

theorem unkeyed_release {symbol : String} (h : keyMap.lookup symbol = none) (s : Session) :
    Unkeyed s (s.release symbol) := by
  rw [release, h]
  exact unkeyed_done s

/-- A host key that stands for a key closes no window and switches no trace. -/
theorem press_of_lookup {symbol : String} {k : Key} (h : keyMap.lookup symbol = some k.val)
    (s : Session) : s.press symbol = s.onConsole (·.change (.down k)) := by
  have hclose : symbol ≠ closeKey := by
    rintro rfl
    exact nomatch h.symm.trans lookup_closeKey
  have htrace : symbol ≠ traceKey := by
    rintro rfl
    exact nomatch h.symm.trans lookup_traceKey
  rw [press, if_neg hclose, if_neg htrace, h]
  rfl

theorem release_of_lookup {symbol : String} {k : Key} (h : keyMap.lookup symbol = some k.val)
    (s : Session) : s.release symbol = s.onConsole (·.change (.up k)) := by
  rw [release, h]
  rfl

/-- What an event does about keys: it changes the keypad as it asks, and is not refused for a
    number that is no key. -/
structure Asked (s : Session) (e : HostEvent) : Prop where
  keypad : (s.handle e).state.console.machine.keypad
    = s.console.machine.keypad.afterAll e.asks?.toList
  failure : ∀ bad, (s.handle e).failure ≠ some (.key bad)

theorem asked_of_unkeyed {e : HostEvent} (h : Unkeyed s (s.handle e)) (hnone : e.asks? = none) :
    Asked s e := by
  refine ⟨?_, h.failure⟩
  rw [hnone]
  exact h.keypad

theorem asked_of_change {e : HostEvent} {w : KeyEvent}
    (h : s.handle e = s.onConsole (·.change w)) (hsome : e.asks? = some w) : Asked s e := by
  refine ⟨?_, ?_⟩
  · rw [h, hsome]
    exact s.console.keypad_change w
  · rw [h]
    exact s.console.failure_change w

/-- An event about a host key asks for a change of the key that this stands for, if any. -/
theorem asked_of_symbol {e : HostEvent} {symbol : String} {w : Key → KeyEvent}
    (hasks : e.asks? = (keyOf? symbol).map w)
    (hnone : keyMap.lookup symbol = none → Unkeyed s (s.handle e))
    (hsome : ∀ k : Key, keyMap.lookup symbol = some k.val →
      s.handle e = s.onConsole (·.change (w k))) : Asked s e := by
  cases hlookup : keyMap.lookup symbol with
  | none =>
      refine asked_of_unkeyed (hnone hlookup) ?_
      rw [hasks, keyOf?_of_none hlookup]
      rfl
  | some n =>
      obtain ⟨k, rfl⟩ := key_of_lookup hlookup
      refine asked_of_change (hsome k hlookup) ?_
      rw [hasks, keyOf?_of_lookup hlookup]
      rfl

/-- **AN EVENT DOES WHAT IT ASKS FOR** to the keypad, and nothing else. -/
theorem asked_handle (s : Session) (e : HostEvent) : Asked s e := by
  cases e with
  | tick => exact asked_of_unkeyed (unkeyed_callAll s.scheduled s) rfl
  | callback c => exact asked_of_unkeyed (unkeyed_call c s) rfl
  | clock seconds => exact asked_of_unkeyed ⟨rfl, none_ne_key⟩ rfl
  | draw => exact asked_of_unkeyed (unkeyed_draw s) rfl
  | close => exact asked_of_unkeyed (unkeyed_close s) rfl
  | press symbol =>
      exact asked_of_symbol rfl (fun h => unkeyed_press h s) fun k h => press_of_lookup h s
  | release symbol =>
      exact asked_of_symbol rfl (fun h => unkeyed_release h s) fun k h => release_of_lookup h s

/-! ## Runs -/

/-- The last event about a host key. -/
def lastAbout (symbol : String) (events : List HostEvent) : Option HostEvent :=
  (events.filter (·.concerns symbol)).getLast?

theorem lastAbout_concat_of_concerns {symbol : String} {e : HostEvent}
    (h : e.concerns symbol = true) (events : List HostEvent) :
    lastAbout symbol (events ++ [e]) = some e := by
  rw [lastAbout, List.filter_append, List.filter_cons_of_pos h, List.filter_nil,
    List.getLast?_concat]

theorem lastAbout_concat_of_not_concerns {symbol : String} {e : HostEvent}
    (h : e.concerns symbol = false) (events : List HostEvent) :
    lastAbout symbol (events ++ [e]) = lastAbout symbol events := by
  rw [lastAbout, List.filter_append, List.filter_cons_of_neg (Bool.not_eq_true _ ▸ h),
    List.filter_nil, List.append_nil, lastAbout]

/-- Events about other host keys ask for changes of other keys. -/
theorem key_ne_of_not_concerns {symbol : String} {k : Key}
    (h : keyMap.lookup symbol = some k.val) {e : HostEvent} (he : e.concerns symbol = false)
    {w : KeyEvent} (hw : e.asks? = some w) : w.key ≠ k := by
  have hother {other : String} (hne : (other == symbol) = false) {j : Key}
      (hj : keyOf? other = some j) : j ≠ k := by
    rintro rfl
    have hsame := (existsUnique_symbol j).unique (lookup_of_keyOf? hj) h
    rw [hsame, beq_self_eq_true] at hne
    exact nomatch hne
  cases e with
  | press other =>
      obtain ⟨j, hj, rfl⟩ := Option.map_eq_some_iff.1 hw
      exact hother he hj
  | release other =>
      obtain ⟨j, hj, rfl⟩ := Option.map_eq_some_iff.1 hw
      exact hother he hj
  | _ => exact nomatch hw

/-- An event about a host key presses it or releases it. -/
theorem eq_of_concerns {symbol : String} {e : HostEvent} (h : e.concerns symbol = true) :
    e = .press symbol ∨ e = .release symbol := by
  cases e with
  | press other => exact Or.inl (congrArg HostEvent.press (eq_of_beq h))
  | release other => exact Or.inr (congrArg HostEvent.release (eq_of_beq h))
  | _ => exact nomatch h

/-- **THE LAST EVENT ABOUT A HOST KEY TELLS** whether its key is held. -/
theorem holds_handled {symbol : String} {k : Key} (h : keyMap.lookup symbol = some k.val)
    (hup : s.console.machine.keypad.holds k = false) (events : List HostEvent) :
    (s.handled events).console.machine.keypad.holds k = true ↔
      lastAbout symbol events = some (.press symbol) := by
  induction events using List.reverseRecOn with
  | nil =>
      show s.console.machine.keypad.holds k = true ↔ none = some _
      rw [hup]
      exact ⟨nofun, nofun⟩
  | append_singleton events e ih =>
      have hkeypad := (asked_handle (s.handled events) e).keypad
      have hstate : s.handled (events ++ [e]) = ((s.handled events).handle e).state := by
        rw [handled, List.foldl_append]
        rfl
      rw [hstate, hkeypad]
      cases hconcerns : e.concerns symbol with
      | true =>
          rw [lastAbout_concat_of_concerns hconcerns]
          rcases eq_of_concerns hconcerns with rfl | rfl
          · rw [HostEvent.asks?, keyOf?_of_lookup h]
            have hdown := (Keypad.holds_after_down
              (s.handled events).console.machine.keypad k k).trans (if_pos rfl)
            exact ⟨fun _ => rfl, fun _ => hdown⟩
          · rw [HostEvent.asks?, keyOf?_of_lookup h]
            have hreleased := (Keypad.holds_after_up
              (s.handled events).console.machine.keypad k k).trans (if_pos rfl)
            exact ⟨fun hheld => (nomatch hreleased.symm.trans hheld), nofun⟩
      | false =>
          rw [lastAbout_concat_of_not_concerns hconcerns, ← ih]
          cases hasks : e.asks? with
          | none => exact Iff.rfl
          | some w =>
              have hother := Keypad.holds_after_of_ne
                (s.handled events).console.machine.keypad (key_ne_of_not_concerns h hconcerns hasks)
              exact iff_of_eq (congrArg (· = true) hother)

/-- How a host key works that stands for a key, on a session that has handled events of which
    `last` was the last about it.  The key is held just if that was a press; a press or a release
    of it is one of the key, and dispatches one event or none; and one that repeats the last comes
    to nothing at all, as does a release without a press before. -/
structure Works (s : Session) (last : Option HostEvent) (symbol : String) (k : Key) : Prop where
  held : s.console.machine.keypad.holds k = true ↔ last = some (.press symbol)
  press : s.handle (.press symbol) = s.onConsole fun c => (c.press k.val).outcome
  release : s.handle (.release symbol) = s.onConsole fun c => (c.release k.val).outcome
  pressed : Console.dispatched (s.console.press k.val).outcome.reports
    = if last = some (.press symbol) then [] else [.down k]
  released : Console.dispatched (s.console.release k.val).outcome.reports
    = if last = some (.press symbol) then [.up k] else []
  pressedAgain : last = some (.press symbol) → s.handle (.press symbol) = .done s
  releasedAgain : last ≠ some (.press symbol) → s.handle (.release symbol) = .done s

theorem works_of_held {symbol : String} {k : Key} {last : Option HostEvent}
    (h : keyMap.lookup symbol = some k.val)
    (hheld : s.console.machine.keypad.holds k = true ↔ last = some (.press symbol)) :
    Works s last symbol k := by
  have hpress : s.handle (.press symbol) = s.onConsole (·.change (.down k)) := press_of_lookup h s
  have hrelease : s.handle (.release symbol) = s.onConsole (·.change (.up k)) :=
    release_of_lookup h s
  have hdown := s.console.change_cases (.down k)
  have hup := s.console.change_cases (.up k)
  have hnothing {w : KeyEvent} (hdone : s.console.change w = .done s.console) :
      s.onConsole (·.change w) = .done s := by
    rw [onConsole, hdone]
    rfl
  by_cases hlast : last = some (.press symbol)
  · have hholds := hheld.2 hlast
    obtain ⟨-, hup⟩ := hup.resolve_right fun hsame => hsame.1 hholds
    obtain ⟨-, hdown⟩ := hdown.resolve_left fun hchange => nomatch hchange.1.symm.trans hholds
    refine ⟨hheld, hpress, hrelease, ?_, ?_, fun _ => hpress.trans (hnothing hdown),
      fun hne => absurd hlast hne⟩
    · rw [if_pos hlast]
      exact congrArg (fun o : Console.Result => Console.dispatched o.reports) hdown
    · rw [if_pos hlast]
      refine Eq.trans (congrArg (fun o : Console.Result => Console.dispatched o.reports) hup) ?_
      exact (Console.keys_signal s.console (.up k)).dispatched
  · have hholds : s.console.machine.keypad.holds k = false :=
      (Bool.not_eq_true _).mp fun hholds => hlast (hheld.1 hholds)
    obtain ⟨-, hdown⟩ := hdown.resolve_right fun hsame => hsame.1 hholds
    obtain ⟨-, hup⟩ := hup.resolve_left fun hchange => nomatch hholds.symm.trans hchange.1
    refine ⟨hheld, hpress, hrelease, ?_, ?_, fun hpressed => absurd hpressed hlast,
      fun _ => hrelease.trans (hnothing hup)⟩
    · rw [if_neg hlast]
      refine Eq.trans (congrArg (fun o : Console.Result => Console.dispatched o.reports) hdown) ?_
      exact (Console.keys_signal s.console (.down k)).dispatched
    · rw [if_neg hlast]
      exact congrArg (fun o : Console.Result => Console.dispatched o.reports) hup

/-- **HOST KEYS ARE FAITHFUL TO THE KEYPAD.**  Of a session whose keys are all up, after any
    events, frames and drawings among them:

    * each key has one host key, and host keys that stand for something stand for a key;
    * a host key that stands for a key works as it should (`Works`): the key is held just if the
      last event about the host key was a press, and no event is dispatched for a press or a
      release that repeats the last;
    * no event is refused for a number that is no key;
    * the key that closes the window, the one that switches the trace and those that mean nothing
      leave the keypad as it is when they go down and when they come up, and so do all events but
      those of keys. -/
theorem host_keys_are_faithful (hup : s.console.machine.keypad = .released)
    (events : List HostEvent) :
    let d := s.handled events
    ((∀ k : Key, ∃! symbol, keyMap.lookup symbol = some k.val) ∧
      ∀ symbol n, keyMap.lookup symbol = some n → ∃ k : Key, k.val = n) ∧
    (∀ symbol (k : Key), keyMap.lookup symbol = some k.val →
      Works d (lastAbout symbol events) symbol k) ∧
    (∀ e bad, (d.handle e).failure ≠ some (.key bad)) ∧
    ∀ e, (∀ symbol, e.concerns symbol = true →
        symbol = closeKey ∨ symbol = traceKey ∨ keyMap.lookup symbol = none) →
      (d.handle e).state.console.machine.keypad = d.console.machine.keypad := by
  intro d
  refine ⟨⟨existsUnique_symbol, fun _ _ => key_of_lookup⟩, ?_,
    fun e => (asked_handle d e).failure, ?_⟩
  · intro symbol k hlookup
    refine works_of_held hlookup (holds_handled hlookup ?_ events)
    rw [hup]
    exact Keypad.holds_released k
  · intro e he
    have hasks : e.asks? = none := by
      have hmeaningless {symbol : String} (hsymbol : symbol = closeKey ∨ symbol = traceKey ∨
          keyMap.lookup symbol = none) : keyOf? symbol = none := by
        rcases hsymbol with rfl | rfl | hnone
        · exact keyOf?_of_none lookup_closeKey
        · exact keyOf?_of_none lookup_traceKey
        · exact keyOf?_of_none hnone
      cases e with
      | press symbol =>
          rw [HostEvent.asks?, hmeaningless (he symbol (beq_self_eq_true symbol))]
          rfl
      | release symbol =>
          rw [HostEvent.asks?, hmeaningless (he symbol (beq_self_eq_true symbol))]
          rfl
      | _ => rfl
    rw [(asked_handle d e).keypad, hasks]
    rfl

/-- A key that is held down while another is struck, frames are run, the window is drawn and
    then closed. -/
theorem keys_of_two_hands :
    let s : Session := {
      console := .ofMachine ((Machine.fresh 3 440 (.cycling [])).loaded [0x12, 0x00])
      host := .boundless, settings := .standard, level := .info
      clock := .finite 0, measuredAt := .finite 0
      drawn := 0, executedThen := 0, frameLabel := ⟨"", 0⟩, speedLabel := ⟨"", 0⟩
      picture := ⟨0, 0, []⟩, scheduled := [.frame, .statistics], closed := false }
    let events : List HostEvent := [.press "_1", .press "X", .tick, .press "_1", .draw,
      .release "X", .press "P", .press "F1", .release "F1", .press "ESCAPE", .tick]
    let d := s.handled events
    s.console.machine.keypad = .released ∧
      d.console.machine.keypad.holds 1 = true ∧ d.console.machine.keypad.holds 0 = false ∧
      d.handle (.press "_1") = .done d ∧ d.handle (.release "X") = .done d ∧
      (d.handle (.release "ESCAPE")).state.console.machine.keypad = d.console.machine.keypad := by
  intro s events d
  have hup : s.console.machine.keypad = .released := rfl
  obtain ⟨_, hworks, _, hothers⟩ := host_keys_are_faithful hup events
  have hone := hworks "_1" 1 (by decide)
  have hzero := hworks "X" 0 (by decide)
  have hlast : lastAbout "_1" events = some (.press "_1") := by decide
  have hstruck : lastAbout "X" events ≠ some (.press "X") := by decide
  refine ⟨hup, hone.held.2 hlast, ?_, hone.pressedAgain hlast, hzero.releasedAgain hstruck, ?_⟩
  · exact (Bool.not_eq_true _).mp fun hheld => hstruck (hzero.held.1 hheld)
  · refine hothers (.release "ESCAPE") fun symbol hsymbol => Or.inl ?_
    exact (eq_of_beq hsymbol).symm

end Session

end Chip8
