import Mathlib.Data.List.Chain
import Chip8.Proofs.Console.KeyPath

/-! # The wait for a key

    What a path of moves (**`Path`**) says about waits for keys as a whole:

    * **`turns_path`**: waits and resumptions take turns;
    * **`path_waiting`**: after a wait keys only come up, until the first that goes down,
      which is the one taken;
    * **`machine_afterKeys`**: of many key events at once, a machine that waits takes the
      first press, and one that does not wait takes none.

    The last section puts these together for a console on which a program was loaded. -/

namespace Chip8

open Machine

variable {m m' : Machine}

/-! ## Turns -/

/-- Whether a mark is a turn: `true` where a wait begins, `false` where it ends. -/
def Mark.turn? : Mark → Option Bool
  | .ran i       => if i.operation = .waitKey then some true else none
  | .resumed _ _ => some false
  | _            => none

/-- The waits and resumptions among marks. -/
def turns (ms : List Mark) : List Bool := ms.filterMap Mark.turn?

theorem turns_append (ms ms' : List Mark) : turns (ms ++ ms') = turns ms ++ turns ms' :=
  List.filterMap_append

theorem turns_moves {ms : List Mark} (h : Moves m ms m') :
    (turns ms = [] ∧ m'.waiting.isSome = m.waiting.isSome) ∨
    (turns ms = [!m.waiting.isSome] ∧ m'.waiting.isSome = !m.waiting.isSome) := by
  cases h with
  | works hw hw' _ hms =>
      refine Or.inl ⟨List.filterMap_eq_nil_iff.2 ?_, by rw [hw, hw']⟩
      intro mark hmark
      obtain ⟨i, rfl, hi⟩ := hms mark hmark
      exact if_neg hi
  | waits hw hi =>
      refine Or.inr ⟨?_, ?_⟩
      · rw [hw]
        simp only [turns, List.filterMap_cons, Mark.turn?, hi, if_true, List.filterMap_nil]
        rfl
      · rw [hw, waiting_completed_wait m hi]
        rfl
  | rests _ hfrozen => exact Or.inl ⟨rfl, by rw [hfrozen.waiting]⟩
  | releases _ => exact Or.inl ⟨rfl, rfl⟩
  | presses _ _ => exact Or.inl ⟨rfl, rfl⟩
  | resumes hw _ =>
      refine Or.inr ⟨?_, ?_⟩ <;> rw [hw] <;> rfl

/-- **WAITS AND RESUMPTIONS TAKE TURNS**, and the last turn tells whether a register
    waits. -/
theorem turns_path {ms : List Mark} (h : Path m ms m') :
    (m.waiting.isSome :: turns ms).IsChain (· ≠ ·) ∧
      (turns ms).getLastD m.waiting.isSome = m'.waiting.isSome := by
  induction h with
  | nil m => exact ⟨List.isChain_singleton _, rfl⟩
  | cons hmove _ ih =>
      obtain ⟨hchain, hlast⟩ := ih
      rw [turns_append]
      rcases turns_moves hmove with ⟨hnone, hsame⟩ | ⟨hturn, hflip⟩
      · rw [hnone, List.nil_append, ← hsame]
        exact ⟨hchain, hlast⟩
      · rw [hflip] at hchain hlast
        rw [hturn]
        refine ⟨List.isChain_cons_cons.2 ⟨?_, hchain⟩, ?_⟩
        · intro e
          exact (Bool.eq_not_self _).1 e
        · exact List.getLastD_cons.trans hlast

/-! ## From a wait to its end -/

/-- Whether a mark is that of a key that came up. -/
def Mark.isRelease : Mark → Bool
  | .released _ => true
  | _           => false

theorem moves_waiting {ms : List Mark} {r : Int} (h : Moves m ms m') (hw : m.waiting = some r) :
    ((∀ mark ∈ ms, mark.isRelease = true) ∧ m'.waiting = some r) ∨
    ∃ k, ms = [.pressed k, .resumed k r] := by
  cases h with
  | works hnone _ _ _ => exact nomatch hnone.symm.trans hw
  | waits hnone _ => exact nomatch hnone.symm.trans hw
  | rests _ hfrozen => exact Or.inl ⟨fun _ hmark => (nomatch hmark), hfrozen.waiting.trans hw⟩
  | releases _ =>
      refine Or.inl ⟨?_, hw⟩
      intro mark hmark
      rw [List.mem_singleton.1 hmark]
      rfl
  | presses hnone _ => exact nomatch hnone.symm.trans hw
  | resumes hsome _ =>
      obtain rfl := Option.some.inj (hsome.symm.trans hw)
      exact Or.inr ⟨_, rfl⟩

/-- **A WAIT ENDS AT THE FIRST PRESS.** -/
theorem path_waiting {ms : List Mark} {r : Int} (h : Path m ms m') (hw : m.waiting = some r) :
    ((∀ mark ∈ ms, mark.isRelease = true) ∧ m'.waiting = some r) ∨
    ∃ ups k rest, ms = ups ++ .pressed k :: .resumed k r :: rest ∧
      ∀ mark ∈ ups, mark.isRelease = true := by
  induction h with
  | nil m => exact Or.inl ⟨fun _ hmark => (nomatch hmark), hw⟩
  | cons hmove _ ih =>
      rcases moves_waiting hmove hw with ⟨hups, hstill⟩ | ⟨k, rfl⟩
      -- the register still waits behind the first move
      · rcases ih hstill with ⟨hall, hend⟩ | ⟨ups, k, rest, rfl, hall⟩
        · exact Or.inl ⟨List.forall_mem_append.2 ⟨hups, hall⟩, hend⟩
        · refine Or.inr ⟨_ ++ ups, k, rest, ?_, List.forall_mem_append.2 ⟨hups, hall⟩⟩
          rw [List.append_assoc]
      · refine Or.inr ⟨[], k, _, rfl, fun _ hmark => nomatch hmark⟩

theorem moves_wait {ms : List Mark} {i : Instruction} (h : Moves m ms m') (hmem : .ran i ∈ ms)
    (hi : i.operation = .waitKey) : ms = [.ran i] ∧ m'.waiting = some (i.x : Int) := by
  cases h with
  | works _ _ _ hms =>
      obtain ⟨j, hj, hne⟩ := hms _ hmem
      obtain rfl := Mark.ran.inj hj
      exact absurd hi hne
  | waits _ hj =>
      obtain rfl := Mark.ran.inj (List.mem_singleton.1 hmem)
      exact ⟨rfl, waiting_completed_wait m hi⟩
  | rests _ _ => exact nomatch hmem
  | releases _ => exact nomatch List.mem_singleton.1 hmem
  | presses _ _ => exact nomatch List.mem_singleton.1 hmem
  | resumes _ _ =>
      rcases List.mem_cons.1 hmem with hfirst | hlast
      · exact nomatch hfirst
      · exact nomatch List.mem_singleton.1 hlast

theorem path_behind_wait {ms before after : List Mark} {i : Instruction} (h : Path m ms m')
    (hms : ms = before ++ .ran i :: after) (hi : i.operation = .waitKey) :
    ∃ m₁ : Machine, m₁.waiting = some (i.x : Int) ∧ Path m₁ after m' := by
  induction h generalizing before with
  | nil m => exact nomatch (List.append_eq_nil_iff.1 hms.symm).2
  | cons hmove hpath ih =>
      rcases List.append_eq_append_iff.1 hms with ⟨later, _, hrest⟩ | ⟨spare, hfirst, hover⟩
      · exact ih hrest
      · -- the wait is the first mark behind `before`, in this move or in the next
        cases spare with
        | nil => exact @ih [] hover.symm
        | cons mark spare =>
            obtain ⟨rfl, rfl⟩ := List.cons.inj hover
            have hmem : Mark.ran i ∈ before ++ .ran i :: spare :=
              List.mem_append_right _ List.mem_cons_self
            rw [← hfirst] at hmem
            obtain ⟨hsingle, hw⟩ := moves_wait hmove hmem hi
            rw [hsingle] at hfirst
            have hnothing : spare = [] := by
              have hlen := congrArg List.length hfirst
              simp only [List.length_cons, List.length_nil, List.length_append] at hlen
              exact List.length_eq_zero_iff.1 (by omega)
            rw [hnothing]
            exact ⟨_, hw, hpath⟩

/-! ## Many keys at once -/

/-- The first press among key events. -/
def firstPress : List KeyEvent → Option Key
  | []           => none
  | .down k :: _ => some k
  | .up _ :: es  => firstPress es

/-- The machine with the register that waits filled by a press, if there is one. -/
def Machine.answered (m : Machine) (press : Option Key) : Machine :=
  match m.waiting, press with
  | some r, some k => { m.withRegister r.toNat k.val with waiting := none, paused := false }
  | _,      _      => m

theorem answered_none (m : Machine) : m.answered none = m := by
  cases hw : m.waiting <;> simp only [answered, hw]

theorem answered_of_not_waiting (hw : m.waiting = none) (press : Option Key) :
    m.answered press = m := by
  simp only [answered, hw]

theorem answered_of_waiting {r : Int} (hw : m.waiting = some r) (k : Key) :
    m.answered (some k)
      = { m.withRegister r.toNat k.val with waiting := none, paused := false } := by
  simp only [answered, hw]

theorem heard_eq_answered (m : Machine) (k : Key) : m.heard (.down k) = m.answered (some k) := by
  cases hw : m.waiting with
  | none => rw [heard_of_not_waiting hw, answered_of_not_waiting hw]
  | some r => rw [heard_down hw, answered_of_waiting hw]

theorem answered_answered (m : Machine) (k : Key) (press : Option Key) :
    (m.answered (some k)).answered press = m.answered (some k) := by
  refine answered_of_not_waiting ?_ press
  cases hw : m.waiting with
  | none =>
      rw [answered_of_not_waiting hw]
      exact hw
  | some r => rw [answered_of_waiting hw]

/-- It does not matter what the keypad was when a press was taken. -/
theorem answered_keyed (m : Machine) (e : KeyEvent) (press : Option Key) (keypad : Keypad) :
    { (m.keyed e).answered press with keypad } = { m.answered press with keypad } := by
  cases press with
  | none =>
      rw [answered_none, answered_none]
      rfl
  | some k =>
      cases hw : m.waiting with
      | none =>
          rw [answered_of_not_waiting hw, answered_of_not_waiting (m := m.keyed e) hw]
          rfl
      | some r =>
          rw [answered_of_waiting hw, answered_of_waiting (m := m.keyed e) hw]
          rfl

theorem keypad_answered (m : Machine) (press : Option Key) :
    (m.answered press).keypad = m.keypad := by
  cases press with
  | none => rw [answered_none]
  | some k =>
      rw [← heard_eq_answered]
      exact keypad_heard m _

namespace Console

variable {c : Console}

/-- **THE FIRST PRESS IS TAKEN**, if a register waits; apart from that, key events change
    nothing but the keys. -/
theorem machine_afterKeys (hheeds : c.Heeds) (es : List KeyEvent) :
    (c.afterKeys es).machine = { c.machine.answered (firstPress es) with
      keypad := c.machine.keypad.afterAll es } := by
  induction es generalizing c with
  | nil =>
      rw [firstPress, answered_none]
      rfl
  | cons e rest ih =>
      refine (ih (c := c.afterKey e) hheeds).trans ?_
      rw [machine_afterKey hheeds]
      cases e with
      | up k => exact answered_keyed c.machine (.up k) (firstPress rest) _
      | down k =>
          rw [heard_eq_answered, answered_answered, keypad_answered]
          exact answered_keyed c.machine (.down k) (some k) _

/-! ## Whole runs -/

theorem ready_loaded (speed toneHz : Int) (random : RandomStream)
    {handlers : List (Handler Listener)} (hreach : Listener.machine ∈ heardBy handlers)
    (program : List UInt8) :
    Ready ({ fresh speed toneHz random with handlers }.perform (.load program)).state :=
  ⟨wellFormed_load (Machine.wellFormed_fresh speed toneHz random) program, hreach⟩

/-- **THE WAIT FOR A KEY.**  A program was loaded on a console that has just been switched
    on, whose handlers let every key event reach the machine.  Then over any run of frames
    and keys, those that fault among them:

    * the log is that of a path, so every move is one of those of `Moves`;
    * waits and resumptions take turns, beginning with a wait, and the machine is suspended
      exactly if the last of them is a wait;
    * behind every wait the log shows keys that come up and nothing else, either to its end
      or to the first key that goes down, which at once fills the register of the wait;
    * while the machine is suspended, a frame runs no instruction and changes nothing that a
      program can reach;
    * a call that concerns keys comes down to genuine events, of which a machine that waits
      takes the first press; apart from that, only the keys change. -/
theorem wait_for_key (speed toneHz : Int) (random : RandomStream)
    (handlers : List (Handler Listener)) (hreach : Listener.machine ∈ heardBy handlers)
    (program : List UInt8) (calls : List Call) (hcalls : ∀ call ∈ calls, call.isPlayed = true) :
    let c := ({ fresh speed toneHz random with handlers }.perform (.load program)).state
    let d := c.run calls
    let ms := marks (c.runReports calls)
    Path c.machine ms d.machine ∧
    ((turns ms).IsChain (· ≠ ·) ∧ (turns ms).head? ≠ some false ∧
      (d.machine.paused = true ↔ (turns ms).getLast? = some true)) ∧
    (∀ before i after, ms = before ++ .ran i :: after → i.operation = .waitKey →
      ((∀ mark ∈ after, mark.isRelease = true) ∧ d.machine.waiting = some (i.x : Int)) ∨
      ∃ ups k rest, after = ups ++ .pressed k :: .resumed k i.x :: rest ∧
        ∀ mark ∈ ups, mark.isRelease = true) ∧
    (d.machine.paused = true →
      marks d.cycle.reports = [] ∧ Frozen d.machine d.cycle.state.machine) ∧
    ∀ call : KeyCall,
      let es := (call.plan d.machine.keypad).1
      d.machine.keypad.Genuine es ∧
      (d.performKeys call).state.machine = { d.machine.answered (firstPress es) with
        keypad := d.machine.keypad.afterAll es } := by
  intro c d ms
  have hc : Ready c := ready_loaded speed toneHz random hreach program
  have hd : Ready d := ready_run hc hcalls
  have hpath : Path c.machine ms d.machine := path_run hc hcalls
  have hstart : c.machine.waiting = none := by
    show (Machine.load _ program).state.waiting = none
    rw [load_memory]
    rfl
  refine ⟨hpath, ⟨?_, ?_, ?_⟩, ?_, ?_, ?_⟩
  · have hchain := (turns_path hpath).1
    exact hchain.tail
  -- nothing waits at the start, so the first turn is no resumption
  · have hchain := (turns_path hpath).1
    rw [hstart] at hchain
    intro hhead
    obtain ⟨rest, hrest⟩ := List.head?_eq_some_iff.1 hhead
    rw [hrest] at hchain
    exact (List.isChain_cons_cons.1 hchain).1 rfl
  -- the last turn tells whether a register waits at the end
  · have hlast := (turns_path hpath).2
    rw [hstart, List.getLastD_eq_getLast?] at hlast
    rw [hd.wellFormed.paused_iff, ← hlast]
    cases (turns ms).getLast? with
    | none => exact ⟨fun e => (nomatch e), fun e => (nomatch e)⟩
    | some turn => exact ⟨congrArg some, Option.some.inj⟩
  · intro before i after hms hi
    obtain ⟨m₁, hw, hrest⟩ := path_behind_wait hpath hms hi
    exact path_waiting hrest hw
  · intro hp
    refine ⟨?_, frozen_cycle (Or.inr hp)⟩
    show marks (relay d.buzzer d.machine.cycle.reports).2 = []
    rw [marks_relay, cycle_idle (Or.inr hp)]
    rfl
  · intro call es
    refine ⟨call.genuine_plan _, ?_⟩
    rw [performKeys_state hd.wellFormed]
    exact machine_afterKeys hd.heeds _

/-- The machine may be reached behind others that listen. -/
theorem wait_for_key_behind_observer :
    let handlers : List (Handler Listener) := [⟨.observer "keys", false⟩, ⟨.machine, true⟩]
    let c := ({ fresh 10 440 (.cycling []) with handlers }.perform (.load [0xF3, 0x0A])).state
    let calls : List Call := [.keys (.press 7), .cycle, .keys (.set [7, 9]), .cycle]
    let ms := marks (c.runReports calls)
    Listener.machine ∈ heardBy handlers ∧ (∀ call ∈ calls, call.isPlayed = true) ∧
    Path c.machine ms (c.run calls).machine ∧ (turns ms).IsChain (· ≠ ·) := by
  intro handlers c calls ms
  have hreach : Listener.machine ∈ heardBy handlers := by decide
  have hcalls : ∀ call ∈ calls, call.isPlayed = true := by decide
  obtain ⟨hpath, ⟨hchain, _, _⟩, _⟩ :=
    wait_for_key 10 440 (.cycling []) handlers hreach [0xF3, 0x0A] calls hcalls
  exact ⟨hreach, hcalls, hpath, hchain⟩

end Console

end Chip8
