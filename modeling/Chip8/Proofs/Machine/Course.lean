import Chip8.Proofs.Machine.Fault
import Chip8.Proofs.Machine.Stride

/-! # Machines on the same course

    Two machines are on the **same course** if a program cannot tell them apart except by
    the delay timer: they agree on everything that instructions read, and may differ in the
    timers, in the settings and in what is kept for the host.

    One instruction alone reads a timer.  Steps that do not carry it out therefore keep two
    machines on the same course (**`course_step`**), and so do batches (**`course_batch`**)
    and whole frames (**`course_cycle`**).

    Machines that agree on the delay timer too are on the **same track**.  There that
    instruction does no harm, so no step leaves the track (**`track_step`**), no batch
    (**`track_batch`**) and no frame of two machines at the same speed (**`track_cycle`**). -/

namespace Chip8

open Machine

namespace Machine

/-- Two machines agree on all that a program can reach but the timers.  The second has carried
    out a fixed number of instructions more than the first. -/
structure SameCourse (ahead : Int) (m m' : Machine) : Prop where
  registers : m'.registers = m.registers
  index : m'.index = m.index
  pc : m'.pc = m.pc
  memory : m'.memory = m.memory
  stack : m'.stack = m.stack
  paused : m'.paused = m.paused
  waiting : m'.waiting = m.waiting
  halted : m'.halted = m.halted
  keypad : m'.keypad = m.keypad
  random : m'.random = m.random
  columns : m'.screen.columns = m.screen.columns
  rows : m'.screen.rows = m.screen.rows
  pixels : m'.screen.pixels = m.screen.pixels
  executed : (m'.executed : Int) = m.executed + ahead

variable {ahead : Int} {m m' m'' : Machine}

theorem SameCourse.refl (m : Machine) : SameCourse 0 m m :=
  ⟨rfl, rfl, rfl, rfl, rfl, rfl, rfl, rfl, rfl, rfl, rfl, rfl, rfl, (Int.add_zero _).symm⟩

theorem SameCourse.symm (h : SameCourse 0 m m') : SameCourse 0 m' m where
  registers := h.registers.symm
  index := h.index.symm
  pc := h.pc.symm
  memory := h.memory.symm
  stack := h.stack.symm
  paused := h.paused.symm
  waiting := h.waiting.symm
  halted := h.halted.symm
  keypad := h.keypad.symm
  random := h.random.symm
  columns := h.columns.symm
  rows := h.rows.symm
  pixels := h.pixels.symm
  executed := by
    have he := h.executed
    omega

theorem SameCourse.trans (h : SameCourse 0 m m') (h' : SameCourse ahead m' m'') :
    SameCourse ahead m m'' where
  registers := h'.registers.trans h.registers
  index := h'.index.trans h.index
  pc := h'.pc.trans h.pc
  memory := h'.memory.trans h.memory
  stack := h'.stack.trans h.stack
  paused := h'.paused.trans h.paused
  waiting := h'.waiting.trans h.waiting
  halted := h'.halted.trans h.halted
  keypad := h'.keypad.trans h.keypad
  random := h'.random.trans h.random
  columns := h'.columns.trans h.columns
  rows := h'.rows.trans h.rows
  pixels := h'.pixels.trans h.pixels
  executed := by
    have he := h.executed
    have he' := h'.executed
    omega

/-! ## What an instruction reads -/

namespace SameCourse

theorem value (h : SameCourse ahead m m') (r : Nat) :
    m'.registers.get r = m.registers.get r := by
  rw [h.registers]

theorem withRegister (h : SameCourse ahead m m') (r value : Nat) :
    SameCourse ahead (m.withRegister r value) (m'.withRegister r value) :=
  { h with registers := congrArg (fun b : Bank => b.put r value) h.registers }

theorem withByte (h : SameCourse ahead m m') (address : Int) (value : Nat) :
    SameCourse ahead (m.withByte address value) (m'.withByte address value) :=
  { h with memory := congrArg (fun b : Bank => b.put (addressOf address).toNat value) h.memory }

theorem advance (h : SameCourse ahead m m') : SameCourse ahead m.advance m'.advance :=
  { h with pc := congrArg (fun pc => addressOf (pc + 2)) h.pc }

theorem skipIf (h : SameCourse ahead m m') (condition : Bool) :
    SameCourse ahead (m.skipIf condition) (m'.skipIf condition) := by
  cases condition with
  | false => exact h
  | true => exact h.advance

theorem byteAt (h : SameCourse ahead m m') (address : Int) :
    m'.byteAt address = m.byteAt address :=
  congrArg (fun b : Bank => b.get (addressOf address).toNat) h.memory

theorem word (h : SameCourse ahead m m') : m'.word = m.word := by
  rw [Machine.word, Machine.word, h.pc, h.byteAt, h.byteAt]

theorem sprite (h : SameCourse ahead m m') (left top : Int) (height : Nat) :
    m'.sprite left top height = m.sprite left top height := by
  induction height with
  | zero => rfl
  | succ k ih => rw [Machine.sprite, Machine.sprite, ih, spriteRow, spriteRow, h.index, h.byteAt]

theorem storing (h : SameCourse ahead m m') (count : Nat) :
    m'.storing count = m.storing count := by
  induction count with
  | zero => exact h.memory
  | succ k ih => rw [Machine.storing, Machine.storing, ih, h.index, h.registers]

theorem loading (h : SameCourse ahead m m') (count : Nat) :
    m'.loading count = m.loading count := by
  induction count with
  | zero => exact h.registers
  | succ k ih => rw [Machine.loading, Machine.loading, ih, h.index, h.byteAt]

end SameCourse

end Machine

namespace Screen

/-- Two screens show the same picture. -/
structure SamePicture (s s' : Screen) : Prop where
  columns : s'.columns = s.columns
  rows : s'.rows = s.rows
  pixels : s'.pixels = s.pixels

variable {s s' : Screen}

theorem SamePicture.place (h : SamePicture s s') (x y : Int) : s'.place x y = s.place x y := by
  rw [Screen.place, Screen.place, h.columns, h.rows]

theorem SamePicture.cell (h : SamePicture s s') (x y : Int) : s'.cell x y = s.cell x y := by
  rw [Screen.cell, Screen.cell, h.place, h.pixels]

theorem SamePicture.flip (h : SamePicture s s') (x y : Int) :
    SamePicture (s.flip x y) (s'.flip x y) where
  columns := h.columns
  rows := h.rows
  pixels := by
    show s'.pixels.setIfInBounds _ _ = s.pixels.setIfInBounds _ _
    rw [h.place, h.cell, h.pixels]

theorem SamePicture.flipAll (h : SamePicture s s') (points : List (Int × Int)) :
    SamePicture (s.flipAll points) (s'.flipAll points) ∧
      s'.erases points = s.erases points := by
  induction points generalizing s s' with
  | nil => exact ⟨h, rfl⟩
  | cons p rest ih =>
      obtain ⟨hpicture, herases⟩ := ih (h.flip p.1 p.2)
      refine ⟨hpicture, ?_⟩
      show (s'.cell p.1 p.2 ^^^ 1 == 0 || (s'.flip p.1 p.2).erases rest) = _
      rw [h.cell, herases]
      rfl

end Screen

namespace Machine

variable {ahead : Int} {m m' : Machine} {i : Instruction}

/-- **INSTRUCTIONS KEEP THE COURSE**, unless they read the delay timer where it differs. -/
theorem course_effect (h : SameCourse ahead m m')
    (hdelay : i.operation = .readDelay → m'.delay = m.delay) :
    SameCourse ahead (i.effect m) (i.effect m') := by
  cases hop : i.operation <;> simp only [Instruction.effect, hop, h.value]
  case sys => exact h
  case clear =>
      have hsize : m'.screen.rows * m'.screen.columns = m.screen.rows * m.screen.columns := by
        rw [h.rows, h.columns]
      exact { h with pixels := congrArg (Array.replicate · 0) hsize }
  case ret =>
      exact { h with
        pc := congrArg₂ List.headD h.stack h.pc
        stack := congrArg List.tail h.stack }
  case jump => exact { h with pc := rfl }
  case call => exact { h with pc := rfl, stack := congrArg₂ List.cons h.pc h.stack }
  case skipEqByte => exact h.skipIf _
  case skipNeByte => exact h.skipIf _
  case skipEqReg => exact h.skipIf _
  case skipNeReg => exact h.skipIf _
  case setByte => exact h.withRegister _ _
  case addByte => exact h.withRegister _ _
  case move => exact h.withRegister _ _
  case or => exact h.withRegister _ _
  case and => exact h.withRegister _ _
  case xor => exact h.withRegister _ _
  case add => exact (h.withRegister _ _).withRegister _ _
  case sub => exact (h.withRegister _ _).withRegister _ _
  case subn => exact (h.withRegister _ _).withRegister _ _
  case shr => exact (h.withRegister _ _).withRegister _ _
  case shl => exact (h.withRegister _ _).withRegister _ _
  case setIndex => exact { h with index := rfl }
  case jumpOffset => exact { h with pc := rfl }
  case random =>
      rw [h.random]
      have hdrawn : SameCourse ahead { m with random := m.random.advance }
          { m' with random := m.random.advance } := { h with random := rfl }
      exact hdrawn.withRegister _ _
  case draw =>
      have hpicture : m.screen.SamePicture m'.screen := ⟨h.columns, h.rows, h.pixels⟩
      rw [h.sprite]
      generalize m.sprite _ _ _ = points
      obtain ⟨hflipped, herases⟩ := hpicture.flipAll points
      rw [herases]
      have hdrawn : SameCourse ahead { m with screen := m.screen.flipAll points }
          { m' with screen := m'.screen.flipAll points } :=
        { h with columns := hflipped.columns, rows := hflipped.rows, pixels := hflipped.pixels }
      exact hdrawn.withRegister _ _
  case skipHeld =>
      rw [h.keypad]
      exact h.skipIf _
  case skipNotHeld =>
      rw [h.keypad]
      exact h.skipIf _
  case readDelay =>
      rw [hdelay hop]
      exact h.withRegister _ _
  case waitKey => exact { h with paused := rfl, waiting := rfl }
  case setDelay => exact { h with }
  case setSound => exact { h with }
  case addIndex => exact { h with index := by rw [h.index] }
  case glyph => exact { h with index := rfl }
  case decimal =>
      rw [h.index]
      exact ((h.withByte _ _).withByte _ _).withByte _ _
  case store => exact { h with memory := h.storing _ }
  case load => exact { h with registers := h.loading _ }

/-! ## Steps -/

theorem SameCourse.fault? (h : SameCourse ahead m m') : m'.fault? = m.fault? := by
  rw [Machine.fault?, Machine.fault?, h.word]
  cases decode m.word with
  | none => rfl
  | some i => simp only [Instruction.stackFault?, h.stack]

theorem SameCourse.failure (h : SameCourse ahead m m') (hm : m.WellFormed)
    (hm' : m'.WellFormed) : m'.step.failure = m.step.failure := by
  rw [step_failure_eq hm, step_failure_eq hm', h.fault?, h.word, h.pc]

theorem SameCourse.completed (h : SameCourse ahead m m')
    (hdelay : i.operation = .readDelay → m'.delay = m.delay) :
    SameCourse ahead (m.completed i) (m'.completed i) :=
  { course_effect h.advance hdelay with
    executed := by
      have he := h.executed
      show ((m'.executed + 1 : Nat) : Int) = (m.executed + 1 : Nat) + ahead
      omega }

theorem SameCourse.stopped (h : SameCourse ahead m m') :
    SameCourse ahead m.stopped m'.stopped :=
  { h.advance with halted := rfl }

/-- A step of two machines on the same course, seen from both. -/
theorem SameCourse.step_cases (h : SameCourse ahead m m') (hm : m.WellFormed)
    (hm' : m'.WellFormed) :
    (m.step.failure = none ∧ ∃ i, decode m.word = some i ∧
      m.step.state = m.completed i ∧ m'.step.state = m'.completed i) ∨
    (m.step.failure ≠ none ∧ m.step.state = m.stopped ∧ m'.step.state = m'.stopped) := by
  have hsame := h.failure hm hm'
  cases he : m.step.failure with
  | none =>
      obtain ⟨i, hdec, _, hstep⟩ := step_success hm he
      obtain ⟨i', hdec', _, hstep'⟩ := step_success hm' (hsame.trans he)
      obtain rfl : i = i' := by
        rw [h.word, hdec] at hdec'
        exact Option.some.inj hdec'
      exact Or.inl ⟨rfl, i, hdec, by rw [hstep], by rw [hstep']⟩
  | some e =>
      obtain ⟨_, _, hstop, _⟩ := step_failure hm he
      obtain ⟨_, _, hstop', _⟩ := step_failure hm' (hsame.trans he)
      exact Or.inr ⟨Option.some_ne_none e, hstop, hstop'⟩

/-- **STEPS KEEP THE COURSE**, unless they read the delay timer where it differs. -/
theorem course_step (h : SameCourse ahead m m') (hm : m.WellFormed) (hm' : m'.WellFormed)
    (hdelay : m.step.failure = none → m.word.fits (.tail 0xF 0x07) → m'.delay = m.delay) :
    SameCourse ahead m.step.state m'.step.state := by
  rcases h.step_cases hm hm' with ⟨he, i, hdec, hstate, hstate'⟩ | ⟨_, hstate, hstate'⟩
  · rw [hstate, hstate']
    exact h.completed fun hop => hdelay he (fits_of_decode (by decide) hdec hop)
  · rw [hstate, hstate']
    exact h.stopped

/-! ## The track -/

/-- Two machines are on the same course, and agree on the delay timer as well if they are
    `timed`. -/
structure SameTrack (timed : Prop) (ahead : Int) (m m' : Machine) : Prop
    extends SameCourse ahead m m' where
  delay : timed → m'.delay = m.delay

variable {timed : Prop}

theorem SameCourse.untimed (h : SameCourse ahead m m') : SameTrack False ahead m m' :=
  ⟨h, False.elim⟩

theorem delay_effect (h : SameCourse ahead m m') (hdelay : m'.delay = m.delay)
    (i : Instruction) : (i.effect m').delay = (i.effect m).delay := by
  by_cases hop : i.operation = .setDelay
  · simp only [Instruction.effect, hop, h.value]
  · have hreach : .delay ∉ i.operation.reach := by
      cases hi : i.operation <;> first | decide | contradiction
    have hsame : (i.effect m).delay = m.delay := i.same_effect m hreach
    have hsame' : (i.effect m').delay = m'.delay := i.same_effect m' hreach
    rw [hsame, hsame', hdelay]

/-- **STEPS KEEP THE TRACK**, unless they read the delay timer of machines that are not timed. -/
theorem track_step (h : SameTrack timed ahead m m') (hm : m.WellFormed) (hm' : m'.WellFormed)
    (htimed : m.step.failure = none → m.word.fits (.tail 0xF 0x07) → timed) :
    SameTrack timed ahead m.step.state m'.step.state := by
  have hcourse := h.toSameCourse
  refine ⟨course_step hcourse hm hm' fun he hfits => h.delay (htimed he hfits), fun ht => ?_⟩
  rcases hcourse.step_cases hm hm' with ⟨_, i, _, hstate, hstate'⟩ | ⟨_, hstate, hstate'⟩
  · rw [hstate, hstate']
    exact delay_effect hcourse.advance (h.delay ht) i
  · rw [hstate, hstate']
    exact h.delay ht

/-! ## Batches and frames -/

/-- Unless it is halted, the machine carries out no instruction that reads the delay timer
    within a number of steps. -/
def Untimed (n : Nat) (m : Machine) : Prop :=
  m.halted = false → ∀ t ∈ strides n m, ¬ t.word.fits (.tail 0xF 0x07)

/-- **BATCHES KEEP THE TRACK**, fail alike and carry out the same words. -/
theorem track_batch (n : Nat) (h : SameTrack timed ahead m m') (hm : m.WellFormed)
    (hm' : m'.WellFormed) (htimed : ∀ t ∈ strides n m, t.word.fits (.tail 0xF 0x07) → timed) :
    SameTrack timed ahead (batch n m).state (batch n m').state ∧
      (batch n m').failure = (batch n m).failure ∧
      (strides n m').map word = (strides n m).map word := by
  induction n generalizing m m' with
  | zero => exact ⟨h, rfl, rfl⟩
  | succ n ih =>
      cases hp : m.paused with
      | true =>
          have hp' : m'.paused = true := h.paused.trans hp
          rw [batch_of_paused hp, batch_of_paused hp', strides_of_paused hp, strides_of_paused hp']
          exact ⟨h, rfl, rfl⟩
      | false =>
          have hp' : m'.paused = false := h.paused.trans hp
          have hfailure := h.failure hm hm'
          cases he : m.step.failure with
          | some e =>
              have he' : m'.step.failure = some e := hfailure.trans he
              have hstep := track_step h hm hm' fun hnone => nomatch hnone.symm.trans he
              rw [batch_succ_of_failure hp he, batch_succ_of_failure hp' he',
                strides_of_failure he, strides_of_failure he']
              exact ⟨hstep, hfailure, rfl⟩
          | none =>
              have he' : m'.step.failure = none := hfailure.trans he
              rw [strides_of_success hp he] at htimed
              obtain ⟨hfirst, hrest⟩ := List.forall_mem_cons.1 htimed
              have hstep := track_step h hm hm' fun _ => hfirst
              obtain ⟨hstate, hfail, hwords⟩ :=
                ih hstep (wellFormed_step hm) (wellFormed_step hm') hrest
              rw [batch_succ_of_success hp he, batch_succ_of_success hp' he',
                strides_of_success hp he, strides_of_success hp' he', List.map_cons, List.map_cons,
                hwords, h.word]
              exact ⟨hstate, hfail, rfl⟩

/-- **BATCHES KEEP THE COURSE**, fail alike and carry out the same words. -/
theorem course_batch (n : Nat) (h : SameCourse ahead m m') (hm : m.WellFormed)
    (hm' : m'.WellFormed) (hquiet : ∀ t ∈ strides n m, ¬ t.word.fits (.tail 0xF 0x07)) :
    SameCourse ahead (batch n m).state (batch n m').state ∧
      (batch n m').failure = (batch n m).failure ∧
      (strides n m').map word = (strides n m).map word := by
  obtain ⟨hstate, hfail, hwords⟩ := track_batch n h.untimed hm hm' hquiet
  exact ⟨hstate.toSameCourse, hfail, hwords⟩

theorem played_zero (m : Machine) : played 0 m = m := ite_self m

theorem wellFormed_played (h : m.WellFormed) (n : Nat) : (played n m).WellFormed := by
  rw [played]
  split
  · exact h
  · exact wellFormed_batch h n

theorem course_played (n : Nat) (h : SameCourse ahead m m') (hm : m.WellFormed)
    (hm' : m'.WellFormed) (hquiet : Untimed n m) :
    SameCourse ahead (played n m) (played n m') ∧ Untimed n m' := by
  cases hh : m.halted with
  | true =>
      have hh' : m'.halted = true := h.halted.trans hh
      rw [played_of_halted hh, played_of_halted hh']
      exact ⟨h, fun hrun => nomatch hrun.symm.trans hh'⟩
  | false =>
      have hh' : m'.halted = false := h.halted.trans hh
      obtain ⟨hstate, _, hwords⟩ := course_batch n h hm hm' (hquiet hh)
      rw [played_of_running hh, played_of_running hh']
      refine ⟨hstate, ?_⟩
      intro _ t ht
      have hmem : t.word ∈ (strides n m).map word := hwords ▸ List.mem_map_of_mem ht
      obtain ⟨t', ht', hsame⟩ := List.mem_map.1 hmem
      rw [← hsame]
      exact hquiet hh t' ht'

theorem untimed_add {n k : Nat} (h : m.WellFormed) (hquiet : Untimed (n + k) m) :
    Untimed n m ∧ Untimed k (played n m) := by
  refine ⟨?_, ?_⟩
  · intro hh t ht
    refine hquiet hh t ?_
    rw [strides_add]
    exact List.mem_append_left _ ht
  · intro hend t ht
    cases hh : m.halted with
    | true =>
        rw [played_of_halted hh] at hend
        exact nomatch hend.symm.trans hh
    | false =>
        rw [played_of_running hh] at hend ht
        cases he : (batch n m).failure with
        | some e => exact nomatch hend.symm.trans (halted_batch h he)
        | none =>
            refine hquiet hh t ?_
            rw [strides_add, if_pos he]
            exact List.mem_append_right _ ht

theorem course_settled (m : Machine) (b : Outcome Failure Log.Entry Machine) :
    SameCourse 0 b.state (settled m b) := by
  rw [settled]
  split
  · exact { SameCourse.refl b.state with }
  · exact SameCourse.refl b.state

/-- **A FRAME IS ON THE COURSE OF ITS STEPS**, as far as instructions do not read the delay
    timer: what else a frame does concerns the timers, the counters and the marks. -/
theorem course_cycle (h : m.WellFormed) (hquiet : Untimed m.speed.toNat m) :
    SameCourse 0 (played m.speed.toNat m) m.cycle.state := by
  have hbegin : SameCourse 0 m m.begun := { SameCourse.refl m with }
  have hplayed := (course_played m.speed.toNat hbegin h (wellFormed_begun h) hquiet).1
  have hloop : played m.speed.toNat m.begun = (frameLoop m.begun).2.state := by
    cases hh : m.begun.halted with
    | true => rw [played_of_halted hh, frameLoop_of_halted hh]; rfl
    | false => rw [played_of_running hh, frameLoop_eq_batch hh]; rfl
  rw [hloop] at hplayed
  have hend := hplayed.trans (course_settled m.begun (frameLoop m.begun).2)
  rw [cycle_eq]
  exact { hend with }

theorem track_settled {b b' : Outcome Failure Log.Entry Machine}
    (h : SameTrack timed ahead b.state b'.state) (hfailure : b'.failure = b.failure)
    (hhalted : m'.halted = m.halted) :
    SameTrack timed ahead (settled m b) (settled m' b') := by
  have hticks : Ticks m' b' ↔ Ticks m b := by
    rw [Ticks, Ticks, hhalted, hfailure, h.paused]
  rw [settled, settled]
  by_cases ht : Ticks m b
  · rw [if_pos ht, if_pos (hticks.2 ht)]
    exact { h with delay := fun hd => congrArg countDown (h.delay hd) }
  · rw [if_neg ht, if_neg fun ht' => ht (hticks.1 ht')]
    exact h

/-- **FRAMES AT THE SAME SPEED KEEP THE TRACK**, and fail alike. -/
theorem track_cycle (h : SameTrack timed ahead m m') (hspeed : m'.speed = m.speed)
    (hm : m.WellFormed) (hm' : m'.WellFormed)
    (htimed : m.halted = false →
      ∀ t ∈ strides m.speed.toNat m.begun, t.word.fits (.tail 0xF 0x07) → timed) :
    SameTrack timed ahead m.cycle.state m'.cycle.state ∧
      m'.cycle.failure = m.cycle.failure := by
  have hbegun : SameTrack timed ahead m.begun m'.begun := { h with }
  have hloop : SameTrack timed ahead (frameLoop m.begun).2.state (frameLoop m'.begun).2.state ∧
      (frameLoop m'.begun).2.failure = (frameLoop m.begun).2.failure := by
    cases hh : m.halted with
    | true =>
        have hh' : m'.halted = true := h.halted.trans hh
        rw [frameLoop_of_halted (m := m.begun) hh, frameLoop_of_halted (m := m'.begun) hh']
        exact ⟨hbegun, rfl⟩
    | false =>
        have hh' : m'.halted = false := h.halted.trans hh
        rw [frameLoop_eq_batch (m := m.begun) hh, frameLoop_eq_batch (m := m'.begun) hh']
        show SameTrack _ _ (batch m.speed.toNat m.begun).state
          (batch m'.speed.toNat m'.begun).state ∧ _
        rw [show m'.begun.speed = m.begun.speed from hspeed, hspeed]
        obtain ⟨hstate, hfail, _⟩ := track_batch m.speed.toNat hbegun (wellFormed_begun hm)
          (wellFormed_begun hm') (htimed hh)
        exact ⟨hstate, hfail⟩
  have hend := track_settled hloop.1 hloop.2 (show m'.begun.halted = m.begun.halted from h.halted)
  rw [cycle_eq, cycle_eq]
  exact ⟨{ hend with }, hloop.2⟩

end Machine

end Chip8
