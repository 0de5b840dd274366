import Chip8.Proofs.Console.Halt
import Chip8.Proofs.Machine.Course

/-! # Speed and timing

    Frames take as many steps as the speed says, so a number of slow frames and a smaller
    number of fast ones come to the same steps.  They tick the timers differently often, but
    no instruction except one looks at a timer: where that one is not carried out, both leave
    a program at the same place.

    * **`course_frames`**: frames are on the course of their steps, taken in one go,
    * **`speed_is_timing`**: two ways to divide the same steps into frames. -/

namespace Chip8

open Machine

/-- Two machines differ in nothing but the timers, the speed, the count of frames, the number
    of pictures presented and whether one is to be drawn. -/
def Machine.SameButTiming (m m' : Machine) : Prop :=
  m' = { m with
    delay := m'.delay
    sound := m'.sound
    cycles := m'.cycles
    speed := m'.speed
    screen := { m.screen with stale := m'.screen.stale, frames := m'.screen.frames } }

theorem Machine.SameCourse.sameButTiming {m m' : Machine} (h : SameCourse 0 m m')
    (htone : m'.toneHz = m.toneHz) : SameButTiming m m' := by
  have hexecuted : m'.executed = m.executed := by
    have he := h.executed
    omega
  have hscreen : (⟨m.screen.columns, m.screen.rows, m.screen.pixels, m'.screen.stale,
      m'.screen.frames⟩ : Screen) = m'.screen := by
    rw [← h.columns, ← h.rows, ← h.pixels]
  rw [SameButTiming, ← h.registers, ← h.index, ← h.pc, ← h.memory, ← h.stack, ← h.paused,
    ← h.waiting, ← h.halted, ← h.keypad, ← h.random, ← hexecuted, ← htone]
  exact congrArg (fun screen => { m' with screen }) hscreen.symm

namespace Console

variable {c : Console}

/-- The console set to a number of instructions to a frame. -/
def atSpeed (c : Console) (speed : Int) : Console := { c with machine := { c.machine with speed } }

/-- Frames one after the other, whatever becomes of them. -/
def frames (n : Nat) (c : Console) : Console := c.run (List.replicate n .cycle)

theorem frames_succ (n : Nat) (c : Console) : c.frames (n + 1) = c.cycle.state.frames n := rfl

theorem course_atSpeed (c : Console) (speed : Int) :
    SameCourse 0 c.machine (c.atSpeed speed).machine :=
  { SameCourse.refl c.machine with }

/-- What frames leave alone, and the mark that the first of them sets. -/
theorem frames_host (n : Nat) (h : c.machine.WellFormed) :
    (c.frames n).machine.toneHz = c.machine.toneHz ∧
      (c.frames n).handlers = c.handlers ∧
      (c.frames n).machine.screen.stale = if n = 0 then c.machine.screen.stale else true := by
  induction n generalizing c with
  | zero => exact ⟨rfl, rfl, rfl⟩
  | succ n ih =>
      obtain ⟨_, htone⟩ := host_cycle h
      obtain ⟨htone', hhandlers, hstale⟩ := ih (c := c.cycle.state) (wellFormed_cycle h)
      have hpresented : c.cycle.state.machine.screen.stale = true := by
        show c.machine.cycle.state.screen.stale = true
        rw [cycle_eq]
        rfl
      rw [frames_succ]
      refine ⟨htone'.trans htone, hhandlers, ?_⟩
      rw [hstale, hpresented, ite_self]
      rfl

/-- **FRAMES ARE ON THE COURSE OF THEIR STEPS**, taken from a machine on the same course, as
    far as no instruction reads the delay timer. -/
theorem course_frames (speed : Nat) :
    ∀ (n : Nat) (m : Machine) (c : Console), m.WellFormed → c.machine.WellFormed →
      SameCourse 0 m c.machine → c.machine.speed = speed → Untimed (n * speed) m →
      SameCourse 0 (played (n * speed) m) (c.frames n).machine := by
  intro n
  induction n with
  | zero =>
      intro m c _ _ hcourse _ _
      rw [Nat.zero_mul, played_zero]
      exact hcourse
  | succ n ih =>
      intro m c hm hc hcourse hspeed hquiet
      rw [Nat.succ_mul, Nat.add_comm] at hquiet ⊢
      obtain ⟨hfirst, hrest⟩ := untimed_add hm hquiet
      obtain ⟨hplayed, hquiet'⟩ := course_played speed hcourse hm hc hfirst
      -- the first frame is on the course of the first steps
      have hnat : c.machine.speed.toNat = speed := by
        rw [hspeed]
        rfl
      have hcycle : SameCourse 0 (played speed m) c.cycle.state.machine := by
        have hframe := course_cycle hc (hnat.symm ▸ hquiet')
        rw [hnat] at hframe
        exact hplayed.trans hframe
      rw [played_add hm, frames_succ]
      exact ih (played speed m) c.cycle.state (wellFormed_played hm speed) (wellFormed_cycle hc)
        hcycle ((host_cycle hc).1.trans hspeed) hrest

/-- **SPEED CHANGES TIMING ONLY.**  Let `k` frames at speed `a` come to as many steps as `n`
    frames at speed `b`, and let none of these steps, taken from the same machine up to a wait
    or a fault, read the delay timer.  Then the two runs leave machines that differ, apart from
    the speed itself, in nothing but their timing: the two timers, the count of frames, the
    number of pictures presented and whether one is to be drawn.  Every frame asks for the
    latter, so it is the same too if both runs have a frame, or neither. -/
theorem speed_is_timing (h : c.machine.WellFormed) (a b k n : Nat) (hsteps : k * a = n * b)
    (hquiet : ∀ t ∈ strides (k * a) c.machine, ¬ t.word.fits (.tail 0xF 0x07)) :
    let p := (c.atSpeed a).frames k
    let q := (c.atSpeed b).frames n
    p.machine.SameButTiming q.machine ∧
    ((k = 0 ↔ n = 0) → q.machine.screen.stale = p.machine.screen.stale) ∧
    q.handlers = p.handlers := by
  intro p q
  have hset (speed : Int) : (c.atSpeed speed).machine.WellFormed := { h with }
  obtain ⟨hptone, hphandlers, hpstale⟩ := frames_host k (hset a)
  obtain ⟨hqtone, hqhandlers, hqstale⟩ := frames_host n (hset b)
  have hp : SameCourse 0 (played (k * a) c.machine) p.machine :=
    course_frames a k c.machine (c.atSpeed a) h (hset a) (course_atSpeed c a) rfl fun _ => hquiet
  have hq : SameCourse 0 (played (k * a) c.machine) q.machine := by
    rw [hsteps] at hquiet ⊢
    exact course_frames b n c.machine (c.atSpeed b) h (hset b) (course_atSpeed c b) rfl
      fun _ => hquiet
  refine ⟨?_, ?_, hqhandlers.trans hphandlers.symm⟩
  · exact (hp.symm.trans hq).sameButTiming (hqtone.trans hptone.symm)
  · intro hboth
    rw [hqstale, hpstale]
    exact if_congr hboth.symm rfl rfl

/-- Three frames of two steps and two frames of three, of a program that jumps to itself. -/
theorem loop_at_two_speeds :
    let c := (fresh 10 440 (.cycling [])).run [.load [0x12, 0x00]]
    c.machine.WellFormed ∧ 3 * 2 = 2 * 3 ∧
      (∀ t ∈ strides (3 * 2) c.machine, ¬ t.word.fits (.tail 0xF 0x07)) ∧
      SameButTiming ((c.atSpeed (2 : Nat)).frames 3).machine
        ((c.atSpeed (3 : Nat)).frames 2).machine ∧
      ((c.atSpeed (3 : Nat)).frames 2).machine.screen.stale
        = ((c.atSpeed (2 : Nat)).frames 3).machine.screen.stale := by
  intro c
  have hfresh := Machine.wellFormed_fresh 10 440 (.cycling [])
  have hfit : [(0x12 : UInt8), 0x00].length ≤ programCapacity := by decide
  have hloaded : c.machine = (Machine.fresh 10 440 (.cycling [])).loaded [0x12, 0x00] :=
    machine_run_load _ hfit
  have h : c.machine.WellFormed := hloaded ▸ wellFormed_loaded hfresh hfit
  have hword : c.machine.word = (0x1200 : Nat) := hloaded ▸ word_loaded hfresh rfl hfit
  have hquiet : ∀ t ∈ strides (3 * 2) c.machine, ¬ t.word.fits (.tail 0xF 0x07) := by
    intro t ht
    rw [word_of_strides_of_loop h (hloaded ▸ rfl) hword _ t ht]
    decide
  obtain ⟨hsame, hstale, _⟩ := speed_is_timing h 2 3 3 2 rfl hquiet
  exact ⟨h, rfl, hquiet, hsame, hstale (by decide)⟩

/-- An idle frame asks for the picture to be drawn, which no frame at all does not. -/
theorem idle_frame_asks_to_draw :
    let screen := { Screen.dark screenColumns screenRows with stale := false }
    let c := ofMachine { Machine.fresh 10 440 (.cycling []) with screen }
    let p := (c.atSpeed 5).frames 0
    let q := (c.atSpeed 0).frames 1
    0 * 5 = 1 * 0 ∧ c.machine.WellFormed ∧
      (∀ t ∈ strides (0 * 5) c.machine, ¬ t.word.fits (.tail 0xF 0x07)) ∧
      p.machine.screen.stale = false ∧ q.machine.screen.stale = true := by
  intro screen c p q
  have hfresh := Machine.wellFormed_fresh 10 440 (.cycling [])
  have h : c.machine.WellFormed :=
    hfresh.withScreen ⟨rfl, rfl, Screen.standard_dark.complete, Screen.standard_dark.binary⟩
  refine ⟨rfl, h, (fun t ht => nomatch ht), rfl, ?_⟩
  exact (frames_host (c := c.atSpeed 0) 1 { h with }).2.2

end Console

end Chip8
