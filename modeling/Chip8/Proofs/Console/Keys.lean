import Chip8.Console
import Chip8.Proofs.Keypad.Changes
import Chip8.Proofs.Machine.WellFormed

/-! # Key events on a console

    Every call that concerns keys (**`KeyCall`**) comes down to a list of key events,
    signalled one after the other, and perhaps a complaint about a number that is no key
    (**`performKeys_eq`**).  Signalling an event changes the keypad and, if the machine
    is among those who hear it, fills the register that the machine waits for; nothing
    else (**`signalAll_eq`**). -/

namespace Chip8

namespace Machine

variable {m : Machine}

/-- The machine with a key changed on its keypad. -/
def keyed (m : Machine) (e : KeyEvent) : Machine := { m with keypad := m.keypad.after e }

/-- The machine after it has heard a key event, without checks. -/
def heard (m : Machine) : KeyEvent → Machine
  | .up _   => m
  | .down k =>
      match m.waiting with
      | none          => m
      | some register =>
          { m.withRegister register.toNat k.val with waiting := none, paused := false }

/-- What the machine reports when it hears a key event. -/
def hearNotes (m : Machine) : KeyEvent → List Log.Entry
  | .up _   => []
  | .down k =>
      match m.waiting with
      | none          => []
      | some register => [.resumed k.val register]

theorem heard_of_not_waiting (hw : m.waiting = none) (e : KeyEvent) : m.heard e = m := by
  cases e with
  | up k => rfl
  | down k => simp only [heard, hw]

theorem heard_down {r : Int} (hw : m.waiting = some r) (k : Key) :
    m.heard (.down k)
      = { m.withRegister r.toNat k.val with waiting := none, paused := false } := by
  simp only [heard, hw]

/-- Hearing a key changes nothing but the registers and the wait. -/
theorem heard_eq (m : Machine) (e : KeyEvent) :
    m.heard e = { m with
      registers := (m.heard e).registers
      paused := (m.heard e).paused
      waiting := (m.heard e).waiting } := by
  cases e with
  | up k => rfl
  | down k =>
      cases hw : m.waiting with
      | none => rw [heard_of_not_waiting hw]
      | some r =>
          rw [heard_down hw]
          rfl

theorem keypad_heard (m : Machine) (e : KeyEvent) : (m.heard e).keypad = m.keypad := by
  rw [heard_eq]

theorem heard_heard (m : Machine) (e : KeyEvent) : (m.heard e).heard e = m.heard e := by
  cases e with
  | up k => rfl
  | down k =>
      cases hw : m.waiting with
      | none => rw [heard_of_not_waiting hw, heard_of_not_waiting hw]
      | some r =>
          rw [heard_down hw]
          exact heard_of_not_waiting rfl _

theorem hearNotes_heard (m : Machine) (e : KeyEvent) : (m.heard e).hearNotes e = [] := by
  cases e with
  | up k => rfl
  | down k =>
      cases hw : m.waiting with
      | none =>
          rw [heard_of_not_waiting hw]
          simp only [hearNotes, hw]
      | some r =>
          rw [heard_down hw]
          rfl

/-- **HEARING NEVER FAILS** on a well-formed machine: the register that it waits for is
    one, and the number of a key is a byte. -/
theorem hear_eq (h : m.WellFormed) (e : KeyEvent) :
    m.hear e = ⟨m.heard e, m.hearNotes e, none⟩ := by
  cases e with
  | up k => rfl
  | down k =>
      cases hw : m.waiting with
      | none => simp only [hear, heard, hearNotes, hw, Outcome.done]
      | some r =>
          obtain ⟨h₀, hlt⟩ := h.waiting_range r hw
          have hr : (r.toNat : Int) = r := Int.toNat_of_nonneg h₀
          have hkey : k.val < 256 := Nat.lt_trans k.isLt (by decide)
          have hset : m.setRegister r k.val = .ok (m.withRegister r.toNat k.val) := by
            rw [← hr]
            exact h.setRegister_eq (by omega) (byte_range hkey)
          simp only [hear, heard, hearNotes, hw, hset]

theorem wellFormed_heard (h : m.WellFormed) (e : KeyEvent) : (m.heard e).WellFormed := by
  cases e with
  | up k => exact h
  | down k =>
      cases hw : m.waiting with
      | none =>
          rw [heard_of_not_waiting hw]
          exact h
      | some r =>
          rw [heard_down hw]
          exact { h.withRegister _ _ with
            paused_iff := ⟨fun hp => (nomatch hp), fun hs => (nomatch hs)⟩
            waiting_range := fun r hr => nomatch hr }

end Machine

namespace Console

variable {c : Console}

/-! ## One event -/

/-- Whether the machine is among those who hear key events. -/
def Heeds (c : Console) : Prop := Listener.machine ∈ heardBy c.handlers

instance (c : Console) : Decidable c.Heeds := inferInstanceAs (Decidable (_ ∈ _))

def told (c : Console) (e : KeyEvent) (ls : List Listener) : Console :=
  { c with machine := if Listener.machine ∈ ls then c.machine.heard e else c.machine }

/-- The console after a key event, without checks. -/
def afterKey (c : Console) (e : KeyEvent) : Console :=
  told { c with machine := c.machine.keyed e } e (heardBy c.handlers)

theorem machine_afterKey (hheeds : c.Heeds) (e : KeyEvent) :
    (c.afterKey e).machine = (c.machine.keyed e).heard e :=
  if_pos hheeds

theorem tell_machine (h : c.machine.WellFormed) (e : KeyEvent) :
    c.tell e .machine = ⟨{ c with machine := c.machine.heard e },
      (c.machine.hearNotes e).map Report.entry, none⟩ := by
  have hmap : (c.machine.hearNotes e).flatMap (fun n => [Report.entry n])
      = (c.machine.hearNotes e).map Report.entry := List.map_eq_flatMap.symm
  simp only [tell, onMachine, Machine.hear_eq h, Outcome.mapState, Outcome.mapReports, hmap]

theorem tellAll_eq (e : KeyEvent) :
    ∀ (ls : List Listener) (c : Console), c.machine.WellFormed →
      (tellAll e ls c).state = c.told e ls ∧ (tellAll e ls c).failure = none := by
  intro ls
  induction ls with
  | nil =>
      intro c _
      exact ⟨rfl, rfl⟩
  | cons l rest ih =>
      intro c h
      cases l with
      | observer name =>
          obtain ⟨hstate, hfail⟩ := ih c h
          have hmem : (Listener.machine ∈ Listener.observer name :: rest)
              ↔ Listener.machine ∈ rest := by
            simp only [List.mem_cons, reduceCtorEq, false_or]
          refine ⟨hstate.trans ?_, hfail⟩
          simp only [told, hmem]
      | machine =>
          -- whoever stands behind the machine tells it nothing new
          obtain ⟨hstate, hfail⟩ :=
            ih { c with machine := c.machine.heard e } (Machine.wellFormed_heard h e)
          have hhead : Listener.machine ∈ Listener.machine :: rest := List.mem_cons_self
          rw [tellAll, tell_machine h]
          refine ⟨hstate.trans ?_, hfail⟩
          simp only [told, hhead, if_true, Machine.heard_heard, ite_self]

/-- **ONE KEY EVENT**: the keypad changes, and the machine hears of it if it listens. -/
theorem signal_eq (h : c.machine.WellFormed) (e : KeyEvent) :
    (c.signal e).state = c.afterKey e ∧ (c.signal e).failure = none :=
  tellAll_eq e (heardBy c.handlers) { c with machine := c.machine.keyed e } (h.withKeypad _)

theorem wellFormed_afterKey (h : c.machine.WellFormed) (e : KeyEvent) :
    (c.afterKey e).machine.WellFormed := by
  have hkeys : (c.machine.keyed e).WellFormed := h.withKeypad _
  simp only [afterKey, told]
  split
  · exact Machine.wellFormed_heard hkeys e
  · exact hkeys

/-! ## Many events -/

def afterKeys (c : Console) (es : List KeyEvent) : Console := es.foldl afterKey c

theorem wellFormed_afterKeys (h : c.machine.WellFormed) (es : List KeyEvent) :
    (c.afterKeys es).machine.WellFormed := by
  induction es generalizing c with
  | nil => exact h
  | cons e rest ih => exact ih (wellFormed_afterKey h e)

theorem handlers_afterKeys (c : Console) (es : List KeyEvent) :
    (c.afterKeys es).handlers = c.handlers := by
  induction es generalizing c with
  | nil => rfl
  | cons e rest ih => exact ih (c.afterKey e)

theorem afterKey_eq (c : Console) (e : KeyEvent) :
    (c.afterKey e).machine = { c.machine with
      registers := (c.afterKey e).machine.registers
      paused := (c.afterKey e).machine.paused
      waiting := (c.afterKey e).machine.waiting
      keypad := (c.afterKey e).machine.keypad } := by
  simp only [afterKey, told]
  split
  · rw [Machine.heard_eq]
    rfl
  · rfl

/-- **KEY EVENTS CHANGE NOTHING BUT** the keypad, the registers and the wait. -/
theorem afterKeys_eq (c : Console) (es : List KeyEvent) :
    (c.afterKeys es).machine = { c.machine with
      registers := (c.afterKeys es).machine.registers
      paused := (c.afterKeys es).machine.paused
      waiting := (c.afterKeys es).machine.waiting
      keypad := (c.afterKeys es).machine.keypad } := by
  induction es generalizing c with
  | nil => rfl
  | cons e rest ih =>
      refine (ih (c.afterKey e)).trans ?_
      rw [afterKey_eq c e]
      rfl

/-- The first of many events is signalled, then the others. -/
theorem signalAll_cons (h : c.machine.WellFormed) (e : KeyEvent) (rest : List KeyEvent) :
    signalAll (e :: rest) c = (signalAll rest (c.afterKey e)).after (c.signal e).reports := by
  obtain ⟨hstate, hfail⟩ := signal_eq h e
  rw [signalAll, Outcome.andThen_of_success hfail, hstate]

theorem signalAll_eq (h : c.machine.WellFormed) (es : List KeyEvent) :
    (signalAll es c).state = c.afterKeys es ∧ (signalAll es c).failure = none := by
  induction es generalizing c with
  | nil => exact ⟨rfl, rfl⟩
  | cons e rest ih =>
      rw [signalAll_cons h]
      exact ih (wellFormed_afterKey h e)

/-! ## Calls -/

/-- A call that concerns keys. -/
inductive KeyCall where
  | press (number : Int)
  | release (number : Int)
  | set (wanted : List Int)
  | releaseAll
  deriving DecidableEq, Repr

def performKeys (c : Console) : KeyCall → Result
  | .press number   => (c.press number).outcome
  | .release number => (c.release number).outcome
  | .set wanted     => c.setKeys wanted
  | .releaseAll     => c.releaseAll

/-- The events that a change of a key amounts to, and the complaint if it is none. -/
def changePlan : Except NotAKey (Option KeyEvent) → List KeyEvent × Option NotAKey
  | .error e => ([], some e)
  | .ok e?   => (e?.toList, none)

/-- The events that a call amounts to, and the complaint about a number that is no key. -/
def KeyCall.plan (p : Keypad) : KeyCall → List KeyEvent × Option NotAKey
  | .press number   => changePlan (p.press number)
  | .release number => changePlan (p.release number)
  | .set wanted     => p.plan wanted
  | .releaseAll     => p.plan []

theorem genuine_changePlan {p : Keypad} {change : Except NotAKey (Option KeyEvent)}
    (h : ∀ e, change = .ok (some e) → p.changedBy e) : p.Genuine (changePlan change).1 := by
  cases change with
  | error e => trivial
  | ok e? =>
      cases e? with
      | none => trivial
      | some e => exact ⟨h e rfl, trivial⟩

theorem KeyCall.genuine_plan (call : KeyCall) (p : Keypad) : p.Genuine (call.plan p).1 := by
  cases call with
  | press number => exact genuine_changePlan fun _ he => p.changedBy_of_press he
  | release number => exact genuine_changePlan fun _ he => p.changedBy_of_release he
  | set wanted => exact p.genuine_plan wanted
  | releaseAll => exact p.genuine_plan []

/-- A complaint, if there is one, after everything else. -/
def complain (bad : Option NotAKey) (c : Console) : Result :=
  match bad with
  | none   => .done c
  | some e => .fail c (.key e)

theorem signalChange_eq (c : Console) (change : Except NotAKey (Option KeyEvent)) :
    (c.signalChange change).outcome
      = (signalAll (changePlan change).1 c).andThen (complain (changePlan change).2) := by
  cases change with
  | error e => rfl
  | ok e? =>
      cases e? with
      | none => rfl
      | some e =>
          have hsingle : signalAll [e] c = c.signal e := Outcome.andThen_done _
          show c.signal e = (signalAll [e] c).andThen .done
          rw [hsingle, Outcome.andThen_done]

/-- **KEY CALLS ARE LISTS OF KEY EVENTS.** -/
theorem performKeys_eq (c : Console) (call : KeyCall) :
    c.performKeys call
      = (signalAll (call.plan c.machine.keypad).1 c).andThen
          (complain (call.plan c.machine.keypad).2) := by
  cases call with
  | press number => exact signalChange_eq c _
  | release number => exact signalChange_eq c _
  | set wanted => rfl
  | releaseAll => rfl

/-- **WHAT A KEY CALL COMES TO**: its events, and its complaint. -/
theorem performKeys_outcome (h : c.machine.WellFormed) (call : KeyCall) :
    c.performKeys call = ⟨c.afterKeys (call.plan c.machine.keypad).1,
      (signalAll (call.plan c.machine.keypad).1 c).reports,
      (call.plan c.machine.keypad).2.map .key⟩ := by
  obtain ⟨hstate, hfail⟩ := signalAll_eq h (call.plan c.machine.keypad).1
  rw [performKeys_eq, Outcome.andThen_of_success hfail, hstate]
  cases (call.plan c.machine.keypad).2 with
  | none => simp only [complain, Outcome.done, Outcome.after, List.append_nil, Option.map_none]
  | some e => simp only [complain, Outcome.fail, Outcome.after, List.append_nil, Option.map_some]

theorem performKeys_state (h : c.machine.WellFormed) (call : KeyCall) :
    (c.performKeys call).state = c.afterKeys (call.plan c.machine.keypad).1 := by
  rw [performKeys_outcome h]

theorem performKeys_failure (h : c.machine.WellFormed) (call : KeyCall) :
    (c.performKeys call).failure = (call.plan c.machine.keypad).2.map .key := by
  rw [performKeys_outcome h]

theorem performKeys_reports (h : c.machine.WellFormed) (call : KeyCall) :
    (c.performKeys call).reports = (signalAll (call.plan c.machine.keypad).1 c).reports := by
  rw [performKeys_outcome h]

end Console

end Chip8
