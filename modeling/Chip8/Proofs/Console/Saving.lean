import Chip8.Proofs.Console.Stores

/-! # Saving registers and restoring them

    To store registers and to load them are loops over a window of memory, which starts at the
    index register and goes on around the end.  It is shorter than memory, so no two of its
    cells are the same (**`addressOf_inj`**), and no turn of the loop that stores undoes an
    earlier one: **`Saves`** and **`Restores`** say what is left behind.

    So a program that keeps the index register and the window (**`SameWindow`**) finds its
    registers again, whatever else it does (**`SameWindow.restores`**).  Whether it keeps them can
    be told from its words (**`Opcode.Spares`**, **`sameWindow_run`**). -/

namespace Chip8

open Machine

/-- A word that neither sets the index register nor stores to the window of `x + 1` cells that
    starts there. -/
def Opcode.Spares (op : Opcode) (index : Int) (x : Nat) : Prop :=
  ¬ op.among Part.index.shapes ∧
    ∀ i ≤ x, ¬ op.Stores index ((index + (i : Nat)) % 4096).toNat

theorem Opcode.spares_of_not_among {op : Opcode} (hindex : ¬ op.among Part.index.shapes)
    (hmemory : ¬ op.among Part.memory.shapes) (index : Int) (x : Nat) : op.Spares index x := by
  refine ⟨hindex, fun i _ => ?_⟩
  rintro ⟨_, _, ⟨hfits, _⟩ | ⟨hfits, _⟩⟩
  · exact hmemory ⟨_, by decide, hfits⟩
  · exact hmemory ⟨_, by decide, hfits⟩

namespace Machine

variable {m m' m'' : Machine} {op : Opcode} {x : Nat}

/-! ## Windows -/

/-- A window that is no longer than memory does not meet itself. -/
theorem addressOf_inj {a : Int} {i j : Nat} (hi : i < memorySize) (hj : j < memorySize)
    (heq : (addressOf (a + i)).toNat = (addressOf (a + j)).toNat) : i = j := by
  simp only [addressOf, memorySize] at hi hj heq
  omega

theorem get_storing_window (h : m.WellFormed) {count i : Nat} (hcount : count ≤ registerCount)
    (hi : i < count) :
    (m.storing count).get (addressOf (m.index + (i : Nat))).toNat = m.registers.get i := by
  have hsmall : registerCount < memorySize := by decide
  induction count with
  | zero => exact absurd hi (Nat.not_lt_zero i)
  | succ k ih =>
      have hcell : (addressOf (m.index + (k : Nat))).toNat < (m.storing k).size := by
        have hrange := addressOf_range (m.index + (k : Nat))
        rw [size_storing, h.memory_size]
        omega
      rw [storing, Bank.get_put _ hcell]
      by_cases heq : i = k
      · rw [heq, if_pos rfl, Nat.mod_eq_of_lt (Bank.get_lt _ _)]
      · -- the last cell is not the one that an earlier turn has filled
        have hne : (addressOf (m.index + (i : Nat))).toNat
            ≠ (addressOf (m.index + (k : Nat))).toNat :=
          fun hsame => heq (addressOf_inj (by omega) (by omega) hsame)
        rw [if_neg hne]
        exact ih (by omega) (by omega)

theorem get_loading_window (h : m.WellFormed) {count i : Nat} (hcount : count ≤ registerCount)
    (hi : i < count) : (m.loading count).get i = m.byteAt (m.index + (i : Nat)) := by
  induction count with
  | zero => exact absurd hi (Nat.not_lt_zero i)
  | succ k ih =>
      have hcell : k < (m.loading k).size := by
        rw [size_loading, h.registers_size]
        omega
      rw [loading, Bank.get_put _ hcell]
      by_cases heq : i = k
      · rw [heq, if_pos rfl, Nat.mod_eq_of_lt (byteAt_lt _ _)]
      · rw [if_neg heq]
        exact ih (by omega) (by omega)

/-! ## Storing and loading -/

/-- The registers up to `x` have been stored from the index register on, and nothing else has
    changed but the program counter. -/
structure Saves (m : Machine) (x : Nat) (o : Outcome Failure Log.Entry Machine) : Prop where
  success : o.failure = none
  cells : ∀ i ≤ x, o.state.memory.get ((m.index + (i : Nat)) % 4096).toNat = m.registers.get i
  others : ∀ a, (∀ i ≤ x, a ≠ ((m.index + (i : Nat)) % 4096).toNat) →
    o.state.memory.get a = m.memory.get a
  rest : o.state = { m with
    pc := addressOf (m.pc + 2)
    memory := o.state.memory }

/-- The registers up to `x` have been loaded from the index register on, and nothing else has
    changed but the program counter. -/
structure Restores (m : Machine) (x : Nat) (o : Outcome Failure Log.Entry Machine) : Prop where
  success : o.failure = none
  registers : ∀ i ≤ x,
    o.state.registers.get i = m.memory.get ((m.index + (i : Nat)) % 4096).toNat
  others : ∀ r, x < r → o.state.registers.get r = m.registers.get r
  rest : o.state = { m with
    pc := addressOf (m.pc + 2)
    registers := o.state.registers }

theorem saves_execute (h : m.WellFormed) (hfits : op.fits (.tail 0xF 0x55)) :
    Saves m op.x (m.execute op) := by
  have hdec : decode op = some ⟨.store, op⟩ := decode_of_fits (by decide) (by decide) hfits
  have hx : op.x + 1 ≤ registerCount := op.x_lt
  rw [execute_of_decode h hdec rfl]
  refine ⟨rfl, ?_, ?_, rfl⟩
  · intro i hi
    exact get_storing_window h.advance hx (Nat.lt_succ_of_le hi)
  · intro a ha
    exact get_storing (m := m.advance) fun i hi => ha i (Nat.le_of_lt_succ hi)

theorem restores_execute (h : m.WellFormed) (hfits : op.fits (.tail 0xF 0x65)) :
    Restores m op.x (m.execute op) := by
  have hdec : decode op = some ⟨.load, op⟩ := decode_of_fits (by decide) (by decide) hfits
  have hx : op.x + 1 ≤ registerCount := op.x_lt
  rw [execute_of_decode h hdec rfl]
  refine ⟨rfl, ?_, ?_, rfl⟩
  · intro i hi
    exact get_loading_window h.advance hx (Nat.lt_succ_of_le hi)
  · intro r hr
    exact get_loading (m := m.advance) hr

/-- Two machines agree on all that storing and loading work with. -/
structure SameData (m m' : Machine) : Prop where
  memory : m'.memory = m.memory
  registers : m'.registers = m.registers
  index : m'.index = m.index

theorem SameData.refl (m : Machine) : SameData m m := ⟨rfl, rfl, rfl⟩

variable {load store : Outcome Failure Log.Entry Machine}

/-- **STORING WHAT HAS JUST BEEN LOADED** leaves memory as it was. -/
theorem Restores.memory_of_saves (hload : Restores m x load) (hsame : SameData load.state m')
    (hstore : Saves m' x store) (h : m.WellFormed) (h' : store.state.WellFormed) :
    store.state.memory = m.memory := by
  have hindex : m'.index = m.index := by rw [hsame.index, hload.rest]
  have hmemory : m'.memory = m.memory := by rw [hsame.memory, hload.rest]
  refine Bank.ext_get (h'.memory_size.trans h.memory_size.symm) fun a => ?_
  -- a cell of the window gets back what was loaded from it, and no other cell is written to
  by_cases hin : ∃ i ≤ x, a = ((m.index + (i : Nat)) % 4096).toNat
  · obtain ⟨i, hi, rfl⟩ := hin
    have hcell := hstore.cells i hi
    rw [hindex, hsame.registers] at hcell
    exact hcell.trans (hload.registers i hi)
  · have hout : ∀ i ≤ x, a ≠ ((m'.index + (i : Nat)) % 4096).toNat := by
      intro i hi heq
      exact hin ⟨i, hi, hindex ▸ heq⟩
    rw [hstore.others a hout, hmemory]

/-! ## What happens in between -/

/-- Two machines agree on the index register and on the window of `x + 1` cells that starts
    there. -/
structure SameWindow (x : Nat) (m m' : Machine) : Prop where
  index : m'.index = m.index
  cells : ∀ i ≤ x, m'.memory.get ((m.index + (i : Nat)) % 4096).toNat
    = m.memory.get ((m.index + (i : Nat)) % 4096).toNat

namespace SameWindow

theorem of_same (hindex : m'.index = m.index) (hmemory : m'.memory = m.memory) :
    SameWindow x m m' :=
  ⟨hindex, fun _ _ => congrArg (Bank.get · _) hmemory⟩

theorem refl (m : Machine) : SameWindow x m m := of_same rfl rfl

theorem trans (h : SameWindow x m m') (h' : SameWindow x m' m'') : SameWindow x m m'' := by
  refine ⟨h'.index.trans h.index, fun i hi => ?_⟩
  have hcell := h'.cells i hi
  rw [h.index] at hcell
  exact hcell.trans (h.cells i hi)

theorem of_frameLaw (hlaw : FrameLaw op m m') (hop : op.Spares m.index x) : SameWindow x m m' :=
  ⟨hlaw.parts .index hop.1, fun i hi => hlaw.memory _ (hop.2 i hi)⟩

/-- **SAVED REGISTERS ARE RESTORED**, as long as the index register and the window have been
    kept. -/
theorem restores (hstore : Saves m x store) (hkept : SameWindow x store.state m')
    (hload : Restores m' x load) {i : Nat} (hi : i ≤ x) :
    load.state.registers.get i = m.registers.get i := by
  have hindex : store.state.index = m.index := by rw [hstore.rest]
  have hcell := hkept.cells i hi
  rw [hload.registers i hi, hkept.index, hcell, hindex]
  exact hstore.cells i hi

end SameWindow

theorem index_settled (m : Machine) (b : Outcome Failure Log.Entry Machine) :
    (settled m b).index = b.state.index := by
  rw [settled]
  split <;> rfl

theorem sameWindow_step (h : m.WellFormed)
    (hop : m.step.failure = none → m.word.Spares m.index x) : SameWindow x m m.step.state := by
  cases he : m.step.failure with
  | none => exact .of_frameLaw (frameLaw_step h) (hop he)
  | some e =>
      obtain ⟨_, _, hstop, _⟩ := step_failure h he
      rw [hstop]
      exact .of_same rfl rfl

end Machine

namespace Console

variable {c : Console} {x : Nat}

theorem sameWindow_cycle (h : c.machine.WellFormed)
    (hops : ∀ t ∈ c.takenBy .cycle, t.word.Spares t.index x) :
    SameWindow x c.machine c.cycle.state.machine := by
  -- only the loop over the words can touch the window: what is done before and after it works
  -- on timers and counters
  have hloop := frameLoop_relates (R := SameWindow x) SameWindow.refl
    (fun hfirst hrest => hfirst.trans hrest) (fun _ => sameWindow_step) h hops
  have hbegun : SameWindow x c.machine c.machine.begun := .of_same rfl rfl
  have hkept := (hbegun.trans hloop).trans
    (.of_same (index_settled c.machine.begun _) (memory_settled c.machine.begun _))
  show SameWindow x c.machine c.machine.cycle.state
  rw [cycle_eq]
  exact hkept.trans (.of_same rfl rfl)

/-- What a call carries out spares the index register and the window. -/
def Call.Spares (c : Console) (x : Nat) : Call → Prop
  | .execute op => op.Spares c.machine.index x
  | .load _     => False
  | call        => ∀ t ∈ c.carriedBy call, t.word.Spares t.index x

/-- What the calls of a run carry out spares the index register and the window. -/
def Spares (c : Console) (x : Nat) : List Call → Prop
  | []            => True
  | call :: calls => call.Spares c x ∧ (c.perform call).state.Spares x calls

theorem sameWindow_perform (h : c.machine.WellFormed) {call : Call} (hcall : call.Spares c x) :
    SameWindow x c.machine (c.perform call).state.machine := by
  cases call with
  | cycle => exact sameWindow_cycle h hcall
  | step =>
      refine sameWindow_step h fun hnone => hcall c.machine ?_
      rw [carriedBy, if_pos hnone]
      exact List.mem_singleton_self _
  | execute op => exact .of_frameLaw (frameLaw_execute h op) hcall
  | tickTimers => exact .of_same rfl rfl
  | settleAudio => exact .refl _
  | load program => exact absurd hcall id
  | keys call =>
      show SameWindow x c.machine (c.performKeys call).state.machine
      rw [performKeys_state h, afterKeys_eq]
      exact .of_same rfl rfl

/-- **RUNS THAT SPARE THE WINDOW KEEP IT.** -/
theorem sameWindow_run {calls : List Call} (h : c.machine.WellFormed)
    (hcalls : c.Spares x calls) : SameWindow x c.machine (c.run calls).machine := by
  induction calls generalizing c with
  | nil => exact .refl _
  | cons call rest ih =>
      obtain ⟨hfirst, hlater⟩ := hcalls
      exact (sameWindow_perform h hfirst).trans (ih (wellFormed_perform h call) hlater)

/-! ## Everything together -/

/-- A call that carries out a word: it names the word, or makes a single step at a place where
    memory holds it. -/
def Call.CarriesOut (c : Console) (op : Opcode) (call : Call) : Prop :=
  call = .execute op ∨ call = .step ∧ c.machine.word = op

theorem Call.CarriesOut.sameData {op : Opcode} {call : Call} (hcall : call.CarriesOut c op)
    (h : c.machine.WellFormed) :
    SameData (c.machine.execute op).state (c.perform call).state.machine := by
  rcases hcall with rfl | ⟨rfl, rfl⟩
  · exact .refl _
  · show SameData _ c.machine.step.state
    rw [step_execute h]
    exact ⟨rfl, rfl, rfl⟩

/-- **STORING AND LOADING REGISTERS UNDO EACH OTHER**, also around the end of memory.

    * On a well-formed machine, `Fx55` stores the registers up to `x` from the index register on,
      `Fx65` loads them from there, and nothing else changes but the program counter, which goes
      on by one word.
    * What `Fx55` has stored, `Fx65` restores after any run of calls that keeps the index
      register and the cells stored to; and it keeps them if none of the words carried out in it
      sets the index register or stores to one of these cells, and no program is loaded.
    * `Fx65` followed at once by `Fx55` leaves memory as it was.

    Both words may be called for or fetched from memory. -/
theorem saving_and_restoring :
    (∀ (m : Machine) (op : Opcode), m.WellFormed →
      (op.fits (.tail 0xF 0x55) → Saves m op.x (m.execute op)) ∧
      (op.fits (.tail 0xF 0x65) → Restores m op.x (m.execute op))) ∧
    (∀ (c : Console) (save restore : Opcode) (first last : Call) (calls : List Call),
      let saved := (c.perform first).state
      let kept := saved.run calls
      let restored := (kept.perform last).state
      c.machine.WellFormed → save.fits (.tail 0xF 0x55) → restore.fits (.tail 0xF 0x65) →
      restore.x = save.x → first.CarriesOut c save → last.CarriesOut kept restore →
      (SameWindow save.x saved.machine kept.machine ∨ saved.Spares save.x calls) →
      ∀ i ≤ save.x, restored.machine.registers.get i = c.machine.registers.get i) ∧
    ∀ (c : Console) (save restore : Opcode) (first last : Call),
      let restored := (c.perform first).state
      let saved := (restored.perform last).state
      c.machine.WellFormed → save.fits (.tail 0xF 0x55) → restore.fits (.tail 0xF 0x65) →
      restore.x = save.x → first.CarriesOut c restore → last.CarriesOut restored save →
      saved.machine.memory = c.machine.memory := by
  refine ⟨?_, ?_, ?_⟩
  · intro m op h
    exact ⟨saves_execute h, restores_execute h⟩
  · intro c save restore first last calls saved kept restored h hsave hrestore hx hfirst hlast
      hbetween i hi
    have hsaved : saved.machine.WellFormed := wellFormed_perform h first
    have hkept : kept.machine.WellFormed := wellFormed_run hsaved calls
    have hstored := hfirst.sameData h
    have hwindow : SameWindow save.x saved.machine kept.machine :=
      hbetween.elim id (sameWindow_run hsaved)
    have hload := restores_execute hkept hrestore
    rw [hx] at hload
    rw [(hlast.sameData hkept).registers]
    exact ((SameWindow.of_same hstored.index hstored.memory).trans hwindow).restores
      (saves_execute h hsave) hload hi
  · intro c save restore first last restored saved h hsave hrestore hx hfirst hlast
    have hrestored : restored.machine.WellFormed := wellFormed_perform h first
    have hload := restores_execute h hrestore
    rw [hx] at hload
    rw [(hlast.sameData hrestored).memory]
    exact hload.memory_of_saves (hfirst.sameData h) (saves_execute hrestored hsave) h
      (wellFormed_execute hrestored save)

/-- Four registers stored in the last two cells of memory and the first two are restored after
    two of them have been set and the timers have run; and to load and store them changes no
    cell. -/
theorem registers_saved_around_the_end :
    let m := { ((Machine.fresh 10 440 (.cycling [])).withRegister 0 7).withRegister 3 9 with
      index := 0xFFFE }
    let c := ofMachine m
    let calls := [Call.execute 0x6001, .tickTimers, .execute 0x6302]
    m.WellFormed ∧ (m.execute 0xF355).state.memory.get 1 = 9 ∧
      (m.execute 0xF365).state.registers.get 2 = m.memory.get 0 ∧
      (c.perform (.execute 0xF355)).state.Spares 3 calls ∧
      (((c.perform (.execute 0xF355)).state.run calls).perform
        (.execute 0xF365)).state.machine.registers.get 3 = 9 ∧
      ((c.perform (.execute 0xF365)).state.perform (.execute 0xF355)).state.machine.memory
        = m.memory := by
  intro m c calls
  have h : m.WellFormed :=
    (((Machine.wellFormed_fresh 10 440 (.cycling [])).withRegister 0 7).withRegister
      3 9).withIndex (by decide)
  obtain ⟨hexecute, hrun, hback⟩ := saving_and_restoring
  have hcalls : (c.perform (.execute 0xF355)).state.Spares 3 calls := by
    refine ⟨?_, ?_, ?_, trivial⟩
    · exact Opcode.spares_of_not_among (by decide) (by decide) _ _
    · exact fun _ ht => nomatch ht
    · exact Opcode.spares_of_not_among (by decide) (by decide) _ _
  have hsaves := (hexecute m 0xF355 h).1 (by decide)
  have hrestores := (hexecute m 0xF365 h).2 (by decide)
  have hnine : m.registers.get 3 = 9 := rfl
  refine ⟨h, (hsaves.cells 3 (by decide)).trans hnine, hrestores.registers 2 (by decide), hcalls,
    ?_, ?_⟩
  · have hthree := hrun c 0xF355 0xF365 _ _ calls h (by decide) (by decide) (by decide)
      (Or.inl rfl) (Or.inl rfl) (Or.inr hcalls) 3 (by decide)
    exact hthree.trans hnine
  · exact hback c 0xF355 0xF365 _ _ h (by decide) (by decide) (by decide) (Or.inl rfl)
      (Or.inl rfl)

end Console

end Chip8
