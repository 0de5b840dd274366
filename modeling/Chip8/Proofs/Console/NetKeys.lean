import Chip8.Proofs.Console.KeyWait

/-! # What many key events come to

    Key calls on a console whose machine is the only one who listens come down to one list of
    key events (**`events`**), each of which changes its key.  As long as nothing fails, they
    have a normal form (**`run_keys_normal`**): the machine has taken the first press, if it
    was waiting for one, and the keys are held that are held in the end.

    So the order in which keys were pressed and released, and how often, leaves no trace but
    those two (**`net_keys_decide`**).  Nothing here asks for the machine to be well-formed. -/

namespace Chip8

open Machine

namespace Keypad

/-- A keypad is the keys that it holds. -/
theorem eq_of_holds {p q : Keypad} (h : ∀ k, p.holds k = q.holds k) : p = q := by
  obtain ⟨keys⟩ := p
  obtain ⟨keys'⟩ := q
  refine congrArg Keypad.mk (Vector.ext fun i hi => ?_)
  exact h ⟨i, hi⟩

/-- Releasing every key is no more than that. -/
theorem plan_nil (p : Keypad) : p.plan [] = (p.releases [], none) := by
  have hnone : ascending [] = [] := by
    rw [ascending, List.eraseDups_nil, List.mergeSort_nil]
  rw [plan, hnone]
  simp only [presses, List.append_nil]

end Keypad

/-! ## Hearing -/

namespace Machine

variable {m : Machine}

/-- The machine after it has heard a press, if there is one. -/
def answer (m : Machine) : Option Key → Machine
  | none   => m
  | some k => (m.hear (.down k)).state

theorem hear_of_not_waiting (hw : m.waiting = none) (k : Key) : m.hear (.down k) = .done m := by
  simp only [hear, hw]

theorem answer_of_not_waiting (hw : m.waiting = none) (press : Option Key) :
    m.answer press = m := by
  cases press with
  | none => rfl
  | some k => rw [answer, hear_of_not_waiting hw, Outcome.done]

theorem hear_of_refused {r : Int} {k : Key} {e : Failure} (hw : m.waiting = some r)
    (hset : m.setRegister r k.val = .error e) : m.hear (.down k) = .fail m e := by
  simp only [hear, hw, hset]

theorem hear_of_filled {r : Int} {k : Key} {filled : Machine} (hw : m.waiting = some r)
    (hset : m.setRegister r k.val = .ok filled) :
    m.hear (.down k)
      = ⟨{ filled with waiting := none, paused := false }, [.resumed k.val r], none⟩ := by
  simp only [hear, hw, hset]

theorem setRegister_keypad (m : Machine) (r value : Int) (keypad : Keypad) :
    { m with keypad }.setRegister r value
      = (m.setRegister r value).map fun m => { m with keypad } := by
  simp only [setRegister]
  cases m.registers.write r value <;> rfl

/-- Hearing does not look at the keypad. -/
theorem hear_keypad (m : Machine) (e : KeyEvent) (keypad : Keypad) :
    { m with keypad }.hear e = (m.hear e).mapState fun m => { m with keypad } := by
  cases e with
  | up k => rfl
  | down k =>
      rcases Option.eq_none_or_eq_some m.waiting with hw | ⟨r, hw⟩
      · rw [hear_of_not_waiting hw, hear_of_not_waiting (m := { m with keypad }) hw]
        rfl
      · have hset' := setRegister_keypad m r k.val keypad
        cases hset : m.setRegister r k.val with
        | error e =>
            rw [hset] at hset'
            rw [hear_of_refused hw hset, hear_of_refused (m := { m with keypad }) hw hset']
            rfl
        | ok filled =>
            rw [hset] at hset'
            rw [hear_of_filled hw hset, hear_of_filled (m := { m with keypad }) hw hset']
            rfl

theorem answer_keypad (m : Machine) (press : Option Key) (keypad : Keypad) :
    { m with keypad }.answer press = { m.answer press with keypad } := by
  cases press with
  | none => rfl
  | some k => rw [answer, hear_keypad, Outcome.mapState, answer]

/-- A press that is heard without failing ends the wait. -/
theorem waiting_hear {k : Key} (hok : (m.hear (.down k)).failure = none) :
    (m.hear (.down k)).state.waiting = none := by
  cases hw : m.waiting with
  | none =>
      rw [hear_of_not_waiting hw]
      exact hw
  | some r =>
      cases hset : m.setRegister r k.val with
      | error e =>
          rw [hear_of_refused hw hset] at hok
          exact nomatch hok
      | ok filled => rw [hear_of_filled hw hset]

end Machine

namespace Console

variable {c : Console}

/-! ## The normal form -/

/-- The machine is the only one who listens. -/
def Alone (c : Console) : Prop := ∃ stops, c.handlers = [⟨.machine, stops⟩]

/-- A key event on a console whose machine is the only one who listens. -/
theorem signal_of_alone (h : c.Alone) (e : KeyEvent) :
    c.signal e = (onMachine { c with machine := c.machine.keyed e } (·.hear e)).after
      [.entry (keyEntry e)] := by
  obtain ⟨stops, hstops⟩ := h
  have hheard : heardBy c.handlers = [.machine] := by
    rw [hstops, heardBy_cons]
    cases stops <;> rfl
  have htold : tellAll e [.machine] { c with machine := c.machine.keyed e }
      = onMachine { c with machine := c.machine.keyed e } (·.hear e) := Outcome.andThen_done _
  rw [signal, hheard]
  exact congrArg _ htold

theorem signal_alone (h : c.Alone) (e : KeyEvent) :
    (c.signal e).state.machine
        = { (c.machine.hear e).state with keypad := c.machine.keypad.after e } ∧
      (c.signal e).state = { c with machine := (c.signal e).state.machine } ∧
      (c.signal e).failure = (c.machine.hear e).failure := by
  have hhear : (c.machine.keyed e).hear e = _ :=
    hear_keypad c.machine e (c.machine.keypad.after e)
  rw [signal_of_alone h]
  refine ⟨?_, rfl, ?_⟩
  · show ((c.machine.keyed e).hear e).state = _
    rw [hhear]
    rfl
  · show ((c.machine.keyed e).hear e).failure = _
    rw [hhear]
    rfl

/-- The console after the events of keys, as far as they can be told from what they left. -/
def normal (c : Console) (press : Option Key) (keypad : Keypad) : Console :=
  { c with machine := { c.machine.answer press with keypad } }

/-- **THE NORMAL FORM OF KEY EVENTS**: the first press is heard, the last state of the keys
    stays. -/
theorem signalAll_normal (h : c.Alone) {es : List KeyEvent}
    (hok : (signalAll es c).failure = none) :
    (signalAll es c).state = c.normal (firstPress es) (c.machine.keypad.afterAll es) := by
  induction es generalizing c with
  | nil => rfl
  | cons e rest ih =>
      obtain ⟨hmachine, hstate, hfailure⟩ := signal_alone h e
      obtain ⟨hfirst, hrest, hend⟩ := Outcome.of_andThen hok
      have hnext : (c.signal e).state.Alone := by
        rw [hstate]
        exact h
      refine hend.trans ((ih hnext hrest).trans ?_)
      rw [hstate, hmachine]
      cases e with
      | up k =>
          rw [normal, answer_keypad]
          rfl
      | down k =>
          -- the wait is over, so no press behind this one is heard
          have hended := waiting_hear (hfailure.symm.trans hfirst)
          rw [normal, answer_keypad, answer_of_not_waiting hended]
          rfl

/-! ## Runs -/

/-- The key events that key calls come to, one call after the other. -/
def events (p : Keypad) : List KeyCall → List KeyEvent
  | []            => []
  | call :: calls => (call.plan p).1 ++ events (p.afterAll (call.plan p).1) calls

theorem genuine_events (p : Keypad) (calls : List KeyCall) : p.Genuine (events p calls) := by
  induction calls generalizing p with
  | nil => trivial
  | cons call rest ih => exact (p.genuine_append _ _).2 ⟨call.genuine_plan p, ih _⟩

theorem signalAll_append (es es' : List KeyEvent) (c : Console) :
    signalAll (es ++ es') c = (signalAll es c).andThen (signalAll es') := by
  induction es generalizing c with
  | nil => rfl
  | cons e rest ih =>
      have hrest : signalAll (rest ++ es') = fun d => (signalAll rest d).andThen (signalAll es') :=
        funext ih
      show (c.signal e).andThen (signalAll (rest ++ es')) = _
      rw [hrest, ← Outcome.andThen_assoc]
      rfl

theorem performKeys_of_success {call : KeyCall} (hok : (c.performKeys call).failure = none) :
    (signalAll (call.plan c.machine.keypad).1 c).failure = none ∧
      (c.performKeys call).state = (signalAll (call.plan c.machine.keypad).1 c).state := by
  have hsilent (bad : Option NotAKey) (d : Console) : (complain bad d).state = d := by
    cases bad <;> rfl
  rw [performKeys_eq] at hok ⊢
  obtain ⟨hplan, _, hend⟩ := Outcome.of_andThen hok
  exact ⟨hplan, hend.trans (hsilent _ _)⟩

/-- Key calls that do not fail are one list of key events. -/
theorem run_keys (h : c.Alone) {calls : List KeyCall}
    (hok : ∀ f ∈ c.failures (calls.map .keys), f = none) :
    (signalAll (events c.machine.keypad calls) c).failure = none ∧
      c.run (calls.map .keys) = (signalAll (events c.machine.keypad calls) c).state := by
  induction calls generalizing c with
  | nil => exact ⟨rfl, rfl⟩
  | cons call rest ih =>
      obtain ⟨hcall, hlater⟩ := List.forall_mem_cons.1 hok
      obtain ⟨hplan, hstate⟩ := performKeys_of_success hcall
      have hfirst : (c.performKeys call).state
          = c.normal _ (c.machine.keypad.afterAll (call.plan c.machine.keypad).1) :=
        hstate.trans (signalAll_normal h hplan)
      have hnext : (c.performKeys call).state.Alone := by
        rw [hfirst]
        exact h
      obtain ⟨hfail, hrun⟩ := ih hnext hlater
      have hkeypad : (c.performKeys call).state.machine.keypad
          = c.machine.keypad.afterAll (call.plan c.machine.keypad).1 := by
        rw [hfirst]
        rfl
      rw [hkeypad, hstate] at hfail hrun
      rw [events, signalAll_append]
      simp only [Outcome.andThen, hplan]
      refine ⟨hfail, ?_⟩
      show (c.performKeys call).state.run (rest.map .keys) = _
      rw [hstate]
      exact hrun

theorem run_keys_normal (h : c.Alone) {calls : List KeyCall}
    (hok : ∀ f ∈ c.failures (calls.map .keys), f = none) :
    c.run (calls.map .keys) = c.normal (firstPress (events c.machine.keypad calls))
      (c.machine.keypad.afterAll (events c.machine.keypad calls)) := by
  obtain ⟨hfail, hrun⟩ := run_keys h hok
  rw [hrun]
  exact signalAll_normal h hfail

/-- **ONLY THE NET CHANGE OF THE KEYS AND THE FIRST PRESS MATTER.**  Let the machine be the
    only one who listens, in whatever state it is, and let two lists of key calls go through
    without failing.  Each comes to events that change their keys, one after the other.

    * If both leave the same keys held, and the first press among their events is the same,
      they leave the same console.
    * If the machine waits for no key, the first is enough, and only the keys change. -/
theorem net_keys_decide (h : c.Alone) {calls calls' : List KeyCall}
    (hok : ∀ f ∈ c.failures (calls.map .keys), f = none)
    (hok' : ∀ f ∈ c.failures (calls'.map .keys), f = none) :
    let p := c.machine.keypad
    let d := c.run (calls.map .keys)
    let d' := c.run (calls'.map .keys)
    let sameHeld := ∀ k, d.machine.keypad.holds k = d'.machine.keypad.holds k
    (p.Genuine (events p calls) ∧ d.machine.keypad = p.afterAll (events p calls)) ∧
    (sameHeld → firstPress (events p calls) = firstPress (events p calls') → d = d') ∧
    (c.machine.waiting = none →
      (sameHeld → d = d') ∧
      d = { c with machine := { c.machine with keypad := d.machine.keypad } }) := by
  intro p d d' sameHeld
  have hd : d = c.normal (firstPress (events p calls)) (p.afterAll (events p calls)) :=
    run_keys_normal h hok
  have hd' : d' = c.normal (firstPress (events p calls')) (p.afterAll (events p calls')) :=
    run_keys_normal h hok'
  have hkeypad : d.machine.keypad = p.afterAll (events p calls) := by rw [hd]; rfl
  have hkeypad' : d'.machine.keypad = p.afterAll (events p calls') := by rw [hd']; rfl
  have hsame (hheld : sameHeld) : p.afterAll (events p calls) = p.afterAll (events p calls') := by
    rw [← hkeypad, ← hkeypad']
    exact Keypad.eq_of_holds hheld
  refine ⟨⟨genuine_events p calls, hkeypad⟩, ?_, ?_⟩
  · intro hheld hpress
    rw [hd, hd', hpress, hsame hheld]
  · intro hw
    have hidle (press : Option Key) (keypad : Keypad) :
        c.normal press keypad = { c with machine := { c.machine with keypad } } := by
      rw [normal, answer_of_not_waiting hw]
    rw [hidle] at hd hd'
    refine ⟨fun hheld => ?_, ?_⟩
    · rw [hd, hd', hsame hheld]
    · rw [hkeypad]
      exact hd

theorem failures_keys (h : c.machine.WellFormed) {calls : List KeyCall}
    (hcalls : ∀ call ∈ calls, ∀ p, (call.plan p).2 = none) :
    ∀ f ∈ c.failures (calls.map .keys), f = none := by
  induction calls generalizing c with
  | nil => exact fun f hf => nomatch hf
  | cons call rest ih =>
      obtain ⟨hcall, hrest⟩ := List.forall_mem_cons.1 hcalls
      refine List.forall_mem_cons.2 ⟨?_, ih (wellFormed_perform h (.keys call)) hrest⟩
      show (c.performKeys call).failure = none
      rw [performKeys_failure h, hcall]
      rfl

/-- Two ways to press 3 first and to hold 5 in the end, on a machine that waits for a key. -/
theorem net_keys_of_two_hands :
    let c := ofMachine { Machine.fresh 10 440 (.cycling []) with paused := true, waiting := some 3 }
    let calls : List KeyCall := [.press 3, .press 5, .release 3]
    let calls' : List KeyCall := [.press 3, .releaseAll, .press 5]
    let d := c.run (calls.map .keys)
    let d' := c.run (calls'.map .keys)
    c.Alone ∧ (∀ f ∈ c.failures (calls.map .keys), f = none) ∧
      (∀ f ∈ c.failures (calls'.map .keys), f = none) ∧
      firstPress (events c.machine.keypad calls) = some 3 ∧ d = d' := by
  intro c calls calls' d d'
  have hfresh := Machine.wellFormed_fresh 10 440 (.cycling [])
  have hc : c.machine.WellFormed :=
    { hfresh with
      paused_iff := ⟨fun _ => rfl, fun _ => rfl⟩
      waiting_range := fun r hr => Option.some.inj hr ▸ by decide }
  have halone : c.Alone := ⟨false, rfl⟩
  have hreleased : c.machine.keypad = Keypad.released := rfl
  have hevents : events Keypad.released calls = [.down 3, .down 5, .up 3] := by decide
  have hevents' : events Keypad.released calls' = [.down 3, .up 3, .down 5] := by
    simp only [calls', events, KeyCall.plan, Keypad.plan_nil]
    decide
  have hok : ∀ f ∈ c.failures (calls.map .keys), f = none := by
    refine failures_keys hc ?_
    simp only [calls, List.forall_mem_cons]
    exact ⟨fun _ => rfl, fun _ => rfl, fun _ => rfl, fun _ hnone => nomatch hnone⟩
  have hok' : ∀ f ∈ c.failures (calls'.map .keys), f = none := by
    refine failures_keys hc ?_
    simp only [calls', List.forall_mem_cons]
    refine ⟨fun _ => rfl, fun p => ?_, fun _ => rfl, fun _ hnone => nomatch hnone⟩
    exact congrArg Prod.snd p.plan_nil
  obtain ⟨⟨_, hkeypad⟩, hsame, _⟩ := net_keys_decide halone hok hok'
  obtain ⟨⟨_, hkeypad'⟩, _⟩ := net_keys_decide halone hok' hok
  rw [hreleased, hevents] at hkeypad
  rw [hreleased, hevents'] at hkeypad'
  rw [hreleased, hevents, hevents'] at hsame
  rw [hreleased, hevents]
  refine ⟨halone, hok, hok', rfl, hsame ?_ rfl⟩
  intro k
  rw [hkeypad, hkeypad']
  revert k
  decide

end Console

end Chip8
