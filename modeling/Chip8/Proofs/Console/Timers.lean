import Chip8.Proofs.Console.Taken
import Chip8.Proofs.Machine.Reach

/-! # Timers and tone over whole runs

    A frame ticks if it begins on a machine that is not halted, raises nothing and does not
    end in a wait.  Both timers go down by one in the frames that tick, to zero at the lowest,
    and in no others.  So over a run in which no word sets a timer, the timer is down by the
    number of frames that ticked (**`timer_run`**).

    The sound timer drives the tone.  As long as no word sets it, a tone that has ended does not
    come back (**`orders_silent`**), so the frames that sound it come first
    (**`orders_run`**). -/

namespace Chip8

open Machine

/-- The timers of a machine. -/
inductive Timer where
  | delay
  | sound
  deriving DecidableEq, Repr

namespace Timer

/-- What a timer shows. -/
def of (m : Machine) : Timer → Int
  | .delay => m.delay
  | .sound => m.sound

/-- The words that set a timer. -/
def setter : Timer → Shape
  | .delay => .tail 0xF 0x15
  | .sound => .tail 0xF 0x18

def part : Timer → Part
  | .delay => .delay
  | .sound => .sound

variable {m m' : Machine} {t : Timer}

theorem of_eq_of_same (h : t.part.Same m m') : t.of m' = t.of m := by
  cases t <;> exact h

theorem not_among_of_not_fits {op : Opcode} (h : ¬ op.fits t.setter) :
    ¬ op.among t.part.shapes := by
  rintro ⟨s, hs, hfits⟩
  have hsetter : s = t.setter := by
    cases t <;> exact List.mem_singleton.1 hs
  exact h (hsetter ▸ hfits)

theorem of_nonneg (h : m.WellFormed) (t : Timer) : 0 ≤ t.of m := by
  cases t with
  | delay => exact h.delay_range.1
  | sound => exact h.sound_range.1

theorem of_tickTimers (h : m.WellFormed) (t : Timer) : t.of m.tickTimers = max 0 (t.of m - 1) := by
  cases t with
  | delay => exact countDown_eq h.delay_range.1
  | sound => exact countDown_eq h.sound_range.1

/-- A step changes no timer that its word does not set. -/
theorem of_step (h : m.WellFormed) (hset : m.step.failure = none → ¬ m.word.fits t.setter) :
    t.of m.step.state = t.of m := by
  cases he : m.step.failure with
  | none =>
      exact of_eq_of_same ((frameLaw_step h).parts t.part (not_among_of_not_fits (hset he)))
  | some e =>
      obtain ⟨_, _, hstop, _⟩ := step_failure h he
      rw [hstop]
      cases t <;> rfl

end Timer

namespace Console

variable {c : Console} {t : Timer}

/-! ## Frames that tick -/

/-- The next frame begins on a machine that is not halted, raises nothing and does not end in
    a wait. -/
def Ticking (c : Console) : Prop :=
  c.machine.halted = false ∧ c.cycle.failure = none ∧ c.cycle.state.machine.paused = false

instance (c : Console) : Decidable c.Ticking := inferInstanceAs (Decidable (_ ∧ _ ∧ _))

/-- The number of frames of a run that tick. -/
def ticked (c : Console) : List Call → Nat
  | []             => 0
  | .cycle :: rest => (if c.Ticking then 1 else 0) + c.cycle.state.ticked rest
  | call :: rest   => (c.perform call).state.ticked rest

theorem ticking_iff (c : Console) :
    c.Ticking ↔ Ticks c.machine.begun (frameLoop c.machine.begun).2 := by
  have hfailure : c.cycle.failure = (frameLoop c.machine.begun).2.failure := by
    rw [failure_cycle, cycle_eq]
  have hpaused : c.cycle.state.machine.paused = (frameLoop c.machine.begun).2.state.paused := by
    show c.machine.cycle.state.paused = _
    rw [cycle_eq]
    exact paused_settled _ _
  rw [Ticking, hfailure, hpaused]
  exact Iff.rfl

/-- **ONE FRAME AND A TIMER** that none of its words sets. -/
theorem timer_cycle (h : c.machine.WellFormed)
    (hset : ∀ s ∈ c.takenBy .cycle, ¬ s.word.fits t.setter) :
    t.of c.cycle.state.machine
      = if c.Ticking then max 0 (t.of c.machine - 1) else t.of c.machine := by
  have hloop : t.of (frameLoop c.machine.begun).2.state = t.of c.machine.begun :=
    frameLoop_relates (R := fun m m' => t.of m' = t.of m) (fun _ => rfl)
      (fun hfirst hrest => hrest.trans hfirst) (fun _ => Timer.of_step) h hset
  have hbegun : t.of c.machine.begun = t.of c.machine := by
    cases t <;> rfl
  have hpresent (m : Machine) : t.of m.present = t.of m := by
    cases t <;> rfl
  show t.of c.machine.cycle.state = _
  rw [cycle_eq, hpresent, settled]
  by_cases hticks : Ticks c.machine.begun (frameLoop c.machine.begun).2
  · rw [if_pos hticks, if_pos ((ticking_iff c).2 hticks),
      Timer.of_tickTimers (wellFormed_frameLoop (wellFormed_begun h)), hloop, hbegun]
  · rw [if_neg hticks, if_neg fun ht => hticks ((ticking_iff c).1 ht), hloop, hbegun]

theorem timer_keys (h : c.machine.WellFormed) (keys : KeyCall) :
    t.of (c.performKeys keys).state.machine = t.of c.machine := by
  rw [performKeys_state h, afterKeys_eq]
  cases t <;> rfl

/-- **TIMERS COUNT THE FRAMES THAT TICK**, as far as no word sets them. -/
theorem timer_run {calls : List Call} (hcalls : ∀ call ∈ calls, call.isPlayed = true)
    (h : c.machine.WellFormed) (hset : ∀ s ∈ c.taken calls, ¬ s.word.fits t.setter) :
    t.of (c.run calls).machine = max 0 (t.of c.machine - c.ticked calls) := by
  induction calls generalizing c with
  | nil =>
      have hnonneg := Timer.of_nonneg h t
      show t.of c.machine = max 0 (t.of c.machine - (0 : Nat))
      omega
  | cons call rest ih =>
      obtain ⟨hplayed, hrest⟩ := List.forall_mem_cons.1 hcalls
      obtain ⟨hfirst, hlater⟩ := List.forall_mem_append.1 hset
      have hend := ih hrest (wellFormed_perform h call) hlater
      rcases Call.isPlayed_cases hplayed with rfl | ⟨keys, rfl⟩
      · have hframe := timer_cycle h hfirst
        have hcount : c.ticked (.cycle :: rest)
            = (if c.Ticking then 1 else 0) + c.cycle.state.ticked rest := rfl
        refine hend.trans ?_
        show max 0 (t.of c.cycle.state.machine - c.cycle.state.ticked rest) = _
        rw [hcount, hframe]
        split <;> omega
      · refine hend.trans ?_
        show max 0 (t.of (c.performKeys keys).state.machine - _) = _
        rw [timer_keys h]
        rfl

/-! ## The orders to the buzzer -/

/-- What the machine orders of the buzzer in the frames of a run, frame by frame. -/
def orders (c : Console) : List Call → List (List Command)
  | []             => []
  | .cycle :: rest => c.machine.cycle.reports.filterMap Machine.Report.command?
      :: c.cycle.state.orders rest
  | call :: rest   => (c.perform call).state.orders rest

theorem orders_cycle (c : Console) (rest : List Call) :
    c.orders (.cycle :: rest) = [c.cycle.state.machine.audio] :: c.cycle.state.orders rest :=
  congrArg (· :: c.cycle.state.orders rest) (commands_cycle c.machine)

theorem audio_keys (h : c.machine.WellFormed) (keys : KeyCall) :
    (c.performKeys keys).state.machine.sound = c.machine.sound ∧
      (c.performKeys keys).state.machine.halted = c.machine.halted ∧
      (c.performKeys keys).state.machine.toneHz = c.machine.toneHz := by
  rw [performKeys_state h, afterKeys_eq]
  exact ⟨rfl, rfl, rfl⟩

/-- **A TONE THAT HAS ENDED DOES NOT COME BACK**: not on a halted machine, and not as long as
    no word sets the sound timer. -/
theorem orders_silent {calls : List Call} (hcalls : ∀ call ∈ calls, call.isPlayed = true)
    (h : c.machine.WellFormed)
    (hsilent : c.machine.halted = true ∨
      c.machine.sound = 0 ∧ ∀ s ∈ c.taken calls, ¬ s.word.fits Timer.sound.setter) :
    ∀ order ∈ c.orders calls, order = [.stop] := by
  induction calls generalizing c with
  | nil => exact fun order horder => nomatch horder
  | cons call rest ih =>
      obtain ⟨hplayed, hrest⟩ := List.forall_mem_cons.1 hcalls
      rcases Call.isPlayed_cases hplayed with rfl | ⟨keys, rfl⟩
      · have hnext : c.cycle.state.machine.halted = true ∨ c.cycle.state.machine.sound = 0 ∧
            ∀ s ∈ c.cycle.state.taken rest, ¬ s.word.fits Timer.sound.setter := by
          rcases hsilent with hh | ⟨hzero, hset⟩
          · refine Or.inl ?_
            rw [(cycle_halted hh).2.2]
            exact hh
          · obtain ⟨hfirst, hlater⟩ := List.forall_mem_append.1 hset
            refine Or.inr ⟨?_, hlater⟩
            have hframe : c.cycle.state.machine.sound = _ := timer_cycle (t := .sound) h hfirst
            rw [hframe]
            show (if c.Ticking then max 0 (c.machine.sound - 1) else c.machine.sound) = 0
            rw [hzero]
            exact ite_self 0
        have haudio : c.cycle.state.machine.audio = .stop := by
          refine if_neg ?_
          rintro ⟨hpos, hrun⟩
          rcases hnext with hh | ⟨hzero, _⟩
          · exact Bool.false_ne_true (hrun.symm.trans hh)
          · exact Int.lt_irrefl 0 (hzero ▸ hpos)
        rw [orders_cycle, haudio]
        exact List.forall_mem_cons.2 ⟨rfl, ih hrest (wellFormed_cycle h) hnext⟩
      · obtain ⟨hsound, hhalted, _⟩ := audio_keys h keys
        refine ih hrest (wellFormed_perform h (.keys keys)) ?_
        show (c.performKeys keys).state.machine.halted = true ∨
          (c.performKeys keys).state.machine.sound = 0 ∧ _
        rw [hsound, hhalted]
        exact hsilent

/-- **THE FRAMES THAT SOUND THE TONE COME FIRST**, as far as no word sets the sound timer. -/
theorem orders_run {calls : List Call} (hcalls : ∀ call ∈ calls, call.isPlayed = true)
    (h : c.machine.WellFormed) (hset : ∀ s ∈ c.taken calls, ¬ s.word.fits Timer.sound.setter) :
    ∃ n k, c.orders calls = List.replicate n [.play (.whole c.machine.toneHz)]
      ++ List.replicate k [.stop] := by
  induction calls generalizing c with
  | nil => exact ⟨0, 0, rfl⟩
  | cons call rest ih =>
      obtain ⟨hplayed, hrest⟩ := List.forall_mem_cons.1 hcalls
      obtain ⟨hfirst, hlater⟩ := List.forall_mem_append.1 hset
      rcases Call.isPlayed_cases hplayed with rfl | ⟨keys, rfl⟩
      · have hnext := wellFormed_cycle h
        by_cases hdue : 0 < c.cycle.state.machine.sound ∧ c.cycle.state.machine.halted = false
        -- the tone sounds in this frame, and then perhaps in others
        · obtain ⟨n, k, hmore⟩ := ih (c := c.cycle.state) hrest hnext hlater
          have haudio : c.cycle.state.machine.audio = .play (.whole c.cycle.state.machine.toneHz) :=
            if_pos hdue
          refine ⟨n + 1, k, ?_⟩
          rw [orders_cycle, haudio, hmore, (host_cycle h).2]
          rfl
        -- it does not, and so in no other
        · have haudio : c.cycle.state.machine.audio = .stop := if_neg hdue
          have hsilent : c.cycle.state.machine.halted = true ∨ c.cycle.state.machine.sound = 0 ∧
              ∀ s ∈ c.cycle.state.taken rest, ¬ s.word.fits Timer.sound.setter := by
            cases hh : c.cycle.state.machine.halted with
            | true => exact Or.inl rfl
            | false =>
                have hnonneg := Timer.of_nonneg hnext .sound
                have hzero : ¬ 0 < c.cycle.state.machine.sound := fun hpos => hdue ⟨hpos, hh⟩
                exact Or.inr ⟨Int.le_antisymm (Int.not_lt.1 hzero) hnonneg, hlater⟩
          have hstops := orders_silent hrest hnext hsilent
          refine ⟨0, (c.cycle.state.orders rest).length + 1, ?_⟩
          rw [orders_cycle, haudio]
          exact congrArg ([.stop] :: ·) (List.eq_replicate_of_mem hstops)
      · obtain ⟨n, k, hmore⟩ := ih hrest (wellFormed_perform h (.keys keys)) hlater
        have htone : ((c.perform (.keys keys)).state).machine.toneHz = c.machine.toneHz :=
          (audio_keys h keys).2.2
        rw [htone] at hmore
        exact ⟨n, k, hmore⟩

/-- **TIMERS AND TONE OVER WHOLE RUNS** of frames and keys, from any well-formed machine:

    * a timer that no word sets is down by the number of frames that ticked, to zero at the
      lowest;
    * no timer is ever below zero, and a frame that begins halted, ends in a wait or raises a
      fault leaves alone the timers that none of its words sets;
    * if no word sets the sound timer, the frames that sound the tone come first, and all
      others stop it;
    * a frame that raises a fault stops the tone, and so do all after it. -/
theorem timers_over_runs (h : c.machine.WellFormed) {calls : List Call}
    (hcalls : ∀ call ∈ calls, call.isPlayed = true) :
    let d := c.run calls
    (∀ t : Timer, (∀ s ∈ c.taken calls, ¬ s.word.fits t.setter) →
      t.of d.machine = max 0 (t.of c.machine - c.ticked calls)) ∧
    (∀ t : Timer, 0 ≤ t.of d.machine ∧
      (d.machine.halted = true ∨ d.cycle.state.machine.paused = true ∨ d.cycle.failure ≠ none →
        (∀ s ∈ d.takenBy .cycle, ¬ s.word.fits t.setter) →
        t.of d.cycle.state.machine = t.of d.machine)) ∧
    ((∀ s ∈ c.taken calls, ¬ s.word.fits Timer.sound.setter) →
      ∃ n k, c.orders calls = List.replicate n [.play (.whole c.machine.toneHz)]
        ++ List.replicate k [.stop]) ∧
    (d.cycle.failure ≠ none → ∀ later : List Call, (∀ call ∈ later, call.isPlayed = true) →
      ∀ order ∈ d.orders (.cycle :: later), order = [.stop]) := by
  intro d
  have hd : d.machine.WellFormed := wellFormed_run h calls
  refine ⟨fun t hset => timer_run hcalls h hset, ?_, fun hset => orders_run hcalls h hset, ?_⟩
  · intro t
    refine ⟨Timer.of_nonneg hd t, ?_⟩
    intro hheld hset
    have hticks : ¬ d.Ticking := by
      rintro ⟨hrun, hnone, hgo⟩
      rcases hheld with hh | hp | hfail
      · exact Bool.false_ne_true (hrun.symm.trans hh)
      · exact Bool.false_ne_true (hgo.symm.trans hp)
      · exact hfail hnone
    rw [timer_cycle hd hset, if_neg hticks]
  · intro hfail later hlater
    obtain ⟨e, he⟩ := Option.ne_none_iff_exists'.1 hfail
    have hhalted : d.cycle.state.machine.halted = true := halted_cycle hd he
    have haudio : d.cycle.state.machine.audio = .stop :=
      if_neg fun hdue => Bool.false_ne_true (hdue.2.symm.trans hhalted)
    rw [orders_cycle, haudio]
    exact List.forall_mem_cons.2
      ⟨rfl, orders_silent hlater (wellFormed_cycle hd) (Or.inl hhalted)⟩

theorem ticked_of_looping (h : c.Looping) {calls : List Call}
    (hcalls : ∀ call ∈ calls, call.isPlayed = true) : c.ticked calls = calls.count .cycle := by
  induction calls generalizing c with
  | nil => rfl
  | cons call rest ih =>
      obtain ⟨hplayed, hrest⟩ := List.forall_mem_cons.1 hcalls
      rcases Call.isPlayed_cases hplayed with rfl | ⟨keys, rfl⟩
      · obtain ⟨hnone, hnext, _⟩ := h.frame
        have hticks : c.Ticking := ⟨h.running, hnone, hnext.paused⟩
        show (if c.Ticking then 1 else 0) + c.cycle.state.ticked rest = _
        rw [if_pos hticks, ih hnext hrest, List.count_cons_self, Nat.add_comm]
      · show (c.performKeys keys).state.ticked rest = _
        rw [ih (h.keys keys) hrest, List.count_cons_of_ne Call.noConfusion]

/-- Two frames of a program that jumps to itself, with a key in between. -/
theorem timers_of_loop :
    let m := (Machine.fresh 3 440 (.cycling [])).loaded [0x12, 0x00]
    let c := ofMachine { m with delay := 9, sound := 1 }
    let calls : List Call := [.cycle, .keys (.press 5), .cycle]
    c.machine.WellFormed ∧ (∀ call ∈ calls, call.isPlayed = true) ∧
      (∀ t : Timer, ∀ s ∈ c.taken calls, ¬ s.word.fits t.setter) ∧
      Timer.delay.of (c.run calls).machine = 7 ∧ Timer.sound.of (c.run calls).machine = 0 := by
  intro m c calls
  have hfresh := Machine.wellFormed_fresh 3 440 (.cycling [])
  have hm : m.WellFormed := wellFormed_loaded hfresh (by decide)
  have hc : c.machine.WellFormed := hm.withTimers (by decide) (by decide)
  have hloop : c.Looping := looping_of_loaded hfresh hc rfl rfl rfl rfl
  have hcalls : ∀ call ∈ calls, call.isPlayed = true := by decide
  have hset : ∀ t : Timer, ∀ s ∈ c.taken calls, ¬ s.word.fits t.setter := by
    intro t s hs
    rw [hloop.word_of_taken hcalls s hs]
    cases t <;> decide
  have htimers := (timers_over_runs hc hcalls).1
  have hticked : c.ticked calls = 2 := ticked_of_looping hloop hcalls
  have hdelay := htimers .delay (hset .delay)
  have hsound := htimers .sound (hset .sound)
  rw [hticked, show Timer.delay.of c.machine = 9 from rfl] at hdelay
  rw [hticked, show Timer.sound.of c.machine = 1 from rfl] at hsound
  exact ⟨hc, hcalls, hset, hdelay, hsound⟩

end Console

end Chip8
