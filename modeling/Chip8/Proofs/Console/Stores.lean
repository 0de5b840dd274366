import Chip8.Proofs.Console.Taken
import Chip8.Proofs.Machine.Reach

/-! # What memory holds over whole runs

    Apart from loading, nothing writes to memory but the words that store.  So a cell that no
    such word has reached still holds what was put there: a glyph, a byte of the last program
    that was loaded, or zero (**`get_run`**).  The glyphs lie below every program, and are
    intact until a word stores over them (**`frame_law`**). -/

namespace Chip8

open Machine

namespace Machine

variable {m : Machine} {a : Nat}

/-- What a cell holds where nothing has stored: a glyph or a zero below the place of programs,
    and from there on a byte of the program or a zero behind it. -/
def image (program : List UInt8) (a : Nat) : Nat :=
  if a < programStart then (font.getD a 0).toNat else (program.getD (a - programStart) 0).toNat

theorem image_of_lt (ha : a < programStart) (program : List UInt8) :
    image program a = (font.getD a 0).toNat :=
  if_pos ha

theorem image_fresh (speed toneHz : Int) (random : RandomStream) (a : Nat) :
    (fresh speed toneHz random).memory.get a = image [] a := by
  rw [get_fresh]
  by_cases ha : a < programStart
  · rw [image_of_lt ha]
  · have hfont : font[a]? = none :=
      List.getElem?_eq_none (Nat.le_trans (by decide) (Nat.not_lt.1 ha))
    rw [image, if_neg ha, List.getD_eq_getElem?_getD, hfont]
    rfl

theorem image_load (h : m.WellFormed) {program : List UInt8} (hm : m.memory.get a = image program a)
    (ha : a < memorySize) (new : List UInt8) :
    (m.load new).state.memory.get a
      = image (if new.length ≤ programCapacity then new else program) a := by
  by_cases hfit : new.length ≤ programCapacity
  · rw [load_of_fits hfit, if_pos hfit, get_loaded h.memory_size hfit, h.memory_size]
    by_cases hlow : a < programStart
    · rw [if_neg fun hin => Nat.not_le.2 hlow hin.1, hm, image_of_lt hlow, image_of_lt hlow]
    · rw [if_pos ⟨Nat.not_lt.1 hlow, ha⟩, image, if_neg hlow]
  · rw [load_of_oversized (Nat.not_le.1 hfit), if_neg hfit]
    exact hm

/-- A step changes no cell that its word does not store to. -/
theorem get_step (h : m.WellFormed)
    (ha : m.step.failure = none → ¬ m.word.Stores m.index a) :
    m.step.state.memory.get a = m.memory.get a := by
  cases he : m.step.failure with
  | none => exact (frameLaw_step h).memory a (ha he)
  | some e =>
      obtain ⟨_, _, hstop, _⟩ := step_failure h he
      rw [hstop]
      rfl

theorem memory_settled (m : Machine) (b : Outcome Failure Log.Entry Machine) :
    (settled m b).memory = b.state.memory := by
  rw [settled]
  split <;> rfl

end Machine

namespace Console

variable {c : Console} {a : Nat}

/-- The program that calls leave behind: the last that fits, or else the one before them. -/
def lastProgram (program : List UInt8) : List Call → List UInt8
  | []                 => program
  | .load new :: calls =>
      lastProgram (if new.length ≤ programCapacity then new else program) calls
  | _ :: calls         => lastProgram program calls

/-- A frame changes no cell that none of its steps stores to. -/
theorem get_cycle (h : c.machine.WellFormed)
    (ha : ∀ t ∈ c.takenBy .cycle, ¬ t.word.Stores t.index a) :
    c.cycle.state.machine.memory.get a = c.machine.memory.get a := by
  have hloop := frameLoop_relates (R := fun m m' => m'.memory.get a = m.memory.get a)
    (fun _ => rfl) (fun hfirst hrest => hrest.trans hfirst) (fun _ => get_step) h ha
  show c.machine.cycle.state.memory.get a = _
  rw [cycle_eq]
  show (settled c.machine.begun _).memory.get a = _
  rw [memory_settled]
  exact hloop

/-- **CELLS THAT NO WORD STORES TO** hold what was put there last from outside. -/
theorem get_run {calls : List Call} (hcalls : ∀ call ∈ calls, call.isHosted = true)
    (h : c.machine.WellFormed) {program : List UInt8} (ha : a < memorySize)
    (hbefore : c.machine.memory.get a = image program a)
    (hout : ∀ t ∈ c.taken calls, ¬ t.word.Stores t.index a) :
    (c.run calls).machine.memory.get a = image (lastProgram program calls) a := by
  induction calls generalizing c program with
  | nil => exact hbefore
  | cons call rest ih =>
      obtain ⟨hhosted, hrest⟩ := List.forall_mem_cons.1 hcalls
      obtain ⟨hfirst, hlater⟩ := List.forall_mem_append.1 hout
      have hnext := wellFormed_perform h call
      rcases Call.isHosted_cases hhosted with hplayed | ⟨new, rfl⟩
      · rcases Call.isPlayed_cases hplayed with rfl | ⟨keys, rfl⟩
        · exact ih hrest hnext ((get_cycle h hfirst).trans hbefore) hlater
        · refine ih hrest hnext ?_ hlater
          show (c.performKeys keys).state.machine.memory.get a = _
          rw [performKeys_state h, afterKeys_eq]
          exact hbefore
      · exact ih hrest hnext (image_load h hbefore ha new) hlater

/-- **THE FRAME LAW.**  Carrying out any word, on any well-formed machine, changes no more than
    the word reaches.  So over every run of frames, programs and keys from a machine that has
    just been switched on, whoever else hears the keys,

    * a cell that none of the words carried out stores to holds what the last program that
      fits put there, or else a glyph or zero;
    * the glyphs are intact unless a word stores over them. -/
theorem frame_law :
    (∀ (m : Machine) (op : Opcode), m.WellFormed → FrameLaw op m (m.execute op).state) ∧
    ∀ (c : Console) (speed toneHz : Int) (random : RandomStream) (calls : List Call),
      c.machine = Machine.fresh speed toneHz random →
      (∀ call ∈ calls, call.isHosted = true) →
      (∀ a < memorySize, (∀ t ∈ c.taken calls, ¬ t.word.Stores t.index a) →
        (c.run calls).machine.memory.get a = image (lastProgram [] calls) a) ∧
      ((∀ a < font.length, ∀ t ∈ c.taken calls, ¬ t.word.Stores t.index (fontStart + a)) →
        (c.run calls).machine.memory.slice fontStart (fontStart + font.length) = font) := by
  refine ⟨fun m op h => frameLaw_execute h op, ?_⟩
  intro c speed toneHz random calls hfresh hcalls
  have hc : c.machine.WellFormed := hfresh ▸ Machine.wellFormed_fresh speed toneHz random
  have hstart (a : Nat) : c.machine.memory.get a = image [] a :=
    hfresh ▸ image_fresh speed toneHz random a
  have hcell : ∀ a < memorySize, (∀ t ∈ c.taken calls, ¬ t.word.Stores t.index a) →
      (c.run calls).machine.memory.get a = image (lastProgram [] calls) a :=
    fun a ha hout => get_run hcalls hc ha (hstart a) hout
  refine ⟨hcell, fun hout => ?_⟩
  have hsize := (wellFormed_run hc calls).memory_size
  have hfont : fontStart + font.length ≤ programStart := by decide
  refine Bank.slice_eq (hsize ▸ by decide) ?_
  intro i hi
  have hlow : fontStart + i < programStart := by omega
  rw [hcell _ (Nat.lt_trans hlow (by decide)) (hout i hi), image_of_lt hlow]
  rw [show fontStart + i = i from Nat.zero_add i]

/-- A frame of a program that jumps to itself stores nothing. -/
theorem not_stores_of_loop (h : c.machine.WellFormed) (hpc : c.machine.pc = programStart)
    (a : Nat) : ∀ t ∈ c.taken [.load [0x12, 0x00], .cycle], ¬ t.word.Stores t.index a := by
  have hfit : [(0x12 : UInt8), 0x00].length ≤ programCapacity := by decide
  have hload : (c.perform (.load [0x12, 0x00])).state.machine = c.machine.loaded [0x12, 0x00] :=
    machine_run_load c hfit
  have hthere : (c.machine.loaded [0x12, 0x00]).begun.pc = programStart := by
    simp only [begun, loaded, hpc]
  have hword : (c.machine.loaded [0x12, 0x00]).begun.word = (0x1200 : Nat) :=
    word_in_loaded (i := 0) h hfit rfl hthere (by decide)
  intro t ht
  simp only [taken, takenBy, hload, List.nil_append, List.append_nil] at ht
  split at ht
  · cases ht
  · have hjump := word_of_strides_of_loop (wellFormed_begun (wellFormed_loaded h hfit)) hthere
      hword _ t ht
    rintro ⟨j, _, ⟨hfits, _⟩ | ⟨hfits, _⟩⟩
    · rw [hjump] at hfits
      exact absurd hfits (by decide)
    · rw [hjump] at hfits
      exact absurd hfits (by decide)

/-- A word that stores two registers, and a run of a program that stores nothing. -/
theorem frame_law_of_loop :
    let m := Machine.fresh 3 440 (.cycling [])
    m.WellFormed ∧ FrameLaw 0xF155 m (m.execute 0xF155).state ∧
    (∀ call ∈ [Call.load [0x12, 0x00], .cycle], call.isHosted = true) ∧
    (∀ a, ∀ t ∈ (ofMachine m).taken [.load [0x12, 0x00], .cycle], ¬ t.word.Stores t.index a) ∧
    ((ofMachine m).run [.load [0x12, 0x00], .cycle]).machine.memory.get 0x200 = 0x12 ∧
    ((ofMachine m).run [.load [0x12, 0x00], .cycle]).machine.memory.slice fontStart
      (fontStart + font.length) = font := by
  intro m
  have hm : m.WellFormed := Machine.wellFormed_fresh 3 440 (.cycling [])
  have hcalls : ∀ call ∈ [Call.load [0x12, 0x00], .cycle], call.isHosted = true := by decide
  have hout := not_stores_of_loop (c := ofMachine m) hm rfl
  obtain ⟨hexecute, hrun⟩ := frame_law
  obtain ⟨hcell, hglyphs⟩ := hrun (ofMachine m) 3 440 (.cycling []) _ rfl hcalls
  have hbyte : image (lastProgram [] [.load [0x12, 0x00], .cycle]) 0x200 = 0x12 := by decide
  exact ⟨hm, hexecute m 0xF155 hm, hcalls, hout,
    (hcell 0x200 (by decide) (hout 0x200)).trans hbyte, hglyphs fun a _ => hout _⟩

end Console

end Chip8
