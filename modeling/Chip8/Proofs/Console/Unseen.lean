import Chip8.Proofs.Console.Taken
import Chip8.Proofs.Machine.Course
import Chip8.Session

/-! # What a program does not see

    The sound timer, the tone, the buzzer, the counters and the log are written by programs
    and frames, and never read.  Two consoles that differ in nothing else are **alike**, and
    every call that drives a program leaves them alike and fails in both or in neither
    (**`alike_perform`**, **`alike_run`**).

    The delay timer is read by one instruction.  Consoles that are not `timed` may differ in it
    too, and stay alike until that instruction is carried out. -/

namespace Chip8

open Machine

namespace Machine

variable {timed : Prop} {ahead : Int} {m m' : Machine}

theorem SameTrack.keyed (h : SameTrack timed ahead m m') (e : KeyEvent) :
    SameTrack timed ahead (m.keyed e) (m'.keyed e) :=
  { h with keypad := congrArg (fun p : Keypad => p.after e) h.keypad }

theorem SameTrack.heard (h : SameTrack timed ahead m m') (e : KeyEvent) :
    SameTrack timed ahead (m.heard e) (m'.heard e) := by
  cases e with
  | up k => exact h
  | down k =>
      cases hw : m.waiting with
      | none =>
          rw [heard_of_not_waiting hw, heard_of_not_waiting (h.waiting.trans hw)]
          exact h
      | some r =>
          rw [heard_down hw, heard_down (h.waiting.trans hw)]
          have hfilled := h.toSameCourse.withRegister r.toNat k.val
          exact { hfilled with paused := rfl, waiting := rfl, delay := h.delay }

end Machine

namespace Console

variable {timed : Prop} {ahead : Int} {c c' : Console}

/-- A program cannot tell two consoles apart, except by the delay timer if they are not
    `timed`. -/
structure Alike (timed : Prop) (ahead : Int) (c c' : Console) : Prop where
  track : SameTrack timed ahead c.machine c'.machine
  speed : c'.machine.speed = c.machine.speed
  handlers : c'.handlers = c.handlers

/-! ## Keys -/

theorem alike_afterKey (h : Alike timed ahead c c') (e : KeyEvent) :
    Alike timed ahead (c.afterKey e) (c'.afterKey e) := by
  have hkeyed := h.track.keyed e
  simp only [afterKey, told, h.handlers]
  by_cases hheeds : Listener.machine ∈ heardBy c.handlers
  · rw [if_pos hheeds, if_pos hheeds]
    refine ⟨hkeyed.heard e, ?_, rfl⟩
    rw [heard_eq, heard_eq (c.machine.keyed e)]
    exact h.speed
  · rw [if_neg hheeds, if_neg hheeds]
    exact ⟨hkeyed, h.speed, rfl⟩

theorem alike_afterKeys (h : Alike timed ahead c c') (es : List KeyEvent) :
    Alike timed ahead (c.afterKeys es) (c'.afterKeys es) := by
  induction es generalizing c c' with
  | nil => exact h
  | cons e rest ih => exact ih (alike_afterKey h e)

/-! ## Calls -/

/-- **CALLS THAT DRIVE A PROGRAM KEEP CONSOLES ALIKE**, and fail in both or in neither. -/
theorem alike_perform (h : Alike timed ahead c c') (hc : c.machine.WellFormed)
    (hc' : c'.machine.WellFormed) {call : Call} (hcall : call.isDriven = true)
    (htimed : ∀ t ∈ c.carriedBy call, t.word.fits (.tail 0xF 0x07) → timed) :
    Alike timed ahead (c.perform call).state (c'.perform call).state ∧
      (c'.perform call).failure = (c.perform call).failure := by
  rcases Call.isDriven_cases hcall with rfl | rfl | ⟨keys, rfl⟩
  · have hstrides : c.machine.halted = false →
        ∀ t ∈ strides c.machine.speed.toNat c.machine.begun,
          t.word.fits (.tail 0xF 0x07) → timed := by
      intro hh t ht
      refine htimed t ?_
      show t ∈ c.takenBy .cycle
      rw [takenBy, hh]
      exact ht
    obtain ⟨htrack, hfailure⟩ := track_cycle h.track h.speed hc hc' hstrides
    refine ⟨⟨htrack, ?_, h.handlers⟩, hfailure⟩
    exact (host_cycle hc').1.trans (h.speed.trans (host_cycle hc).1.symm)
  · have hword : c.machine.step.failure = none → c.machine.word.fits (.tail 0xF 0x07) → timed := by
      intro he
      refine htimed c.machine ?_
      rw [carriedBy, if_pos he]
      exact List.mem_singleton_self c.machine
    refine ⟨⟨track_step h.track hc hc' hword, ?_, h.handlers⟩, h.track.failure hc hc'⟩
    exact (host_step hc').speed.trans (h.speed.trans (host_step hc).speed.symm)
  · show Alike timed ahead (c.performKeys keys).state (c'.performKeys keys).state ∧
      (c'.performKeys keys).failure = (c.performKeys keys).failure
    rw [performKeys_state hc, performKeys_state hc', performKeys_failure hc,
      performKeys_failure hc', h.track.keypad]
    exact ⟨alike_afterKeys h _, rfl⟩

theorem alike_run {calls : List Call} (hcalls : ∀ call ∈ calls, call.isDriven = true)
    (h : Alike timed ahead c c') (hc : c.machine.WellFormed) (hc' : c'.machine.WellFormed)
    (htimed : ∀ t ∈ c.carried calls, t.word.fits (.tail 0xF 0x07) → timed) :
    Alike timed ahead (c.run calls) (c'.run calls) ∧ c'.failures calls = c.failures calls := by
  induction calls generalizing c c' with
  | nil => exact ⟨h, rfl⟩
  | cons call rest ih =>
      obtain ⟨hdriven, hrest⟩ := List.forall_mem_cons.1 hcalls
      obtain ⟨hfirst, hlater⟩ := List.forall_mem_append.1 htimed
      obtain ⟨halike, hfailure⟩ := alike_perform h hc hc' hdriven hfirst
      obtain ⟨hend, hfailures⟩ :=
        ih hrest halike (wellFormed_perform hc call) (wellFormed_perform hc' call) hlater
      refine ⟨hend, ?_⟩
      rw [failures, failures, hfailure, hfailures]

end Console

/-! ## Sessions -/

namespace Session

/-- The session after calls on its console, each made whatever became of the one before. -/
def driven (s : Session) : List Console.Call → Session
  | []            => s
  | call :: calls => (s.onConsole (·.perform call)).state.driven calls

def drivenFailures (s : Session) : List Console.Call → List (Option Failure)
  | []            => []
  | call :: calls => (s.onConsole (·.perform call)).failure
      :: (s.onConsole (·.perform call)).state.drivenFailures calls

theorem driven_eq (s : Session) (calls : List Console.Call) :
    s.driven calls = { s with console := s.console.run calls } ∧
      s.drivenFailures calls = s.console.failures calls := by
  induction calls generalizing s with
  | nil => exact ⟨rfl, rfl⟩
  | cons call rest ih =>
      obtain ⟨hstate, hfailures⟩ := ih (s.onConsole (·.perform call)).state
      exact ⟨hstate, congrArg ((s.console.perform call).failure :: ·) hfailures⟩

/-- **SOUND, COUNTERS AND LOG NEVER REACH A PROGRAM.**  Let the machines of two sessions be on
    the same course, at the same speed and with the same handlers; the sound timer, the tone,
    the buzzer, the counters and the level of the log may differ in any way.  Then frames,
    single steps and keys leave them so, and raise the same in both

    * if the delay timers are the same, which they then remain;
    * and if they are not, as long as no instruction that reads the delay timer is carried
      out. -/
theorem unseen_never_matters {s s' : Session} {ahead : Int}
    (h : s.console.machine.WellFormed) (h' : s'.console.machine.WellFormed)
    (hsame : SameCourse ahead s.console.machine s'.console.machine)
    (hspeed : s'.console.machine.speed = s.console.machine.speed)
    (hhandlers : s'.console.handlers = s.console.handlers) {calls : List Console.Call}
    (hcalls : ∀ call ∈ calls, call.isDriven = true) :
    let m := (s.driven calls).console.machine
    let m' := (s'.driven calls).console.machine
    let agree := SameCourse ahead m m' ∧ m'.speed = m.speed ∧
      s'.drivenFailures calls = s.drivenFailures calls
    (s'.console.machine.delay = s.console.machine.delay → agree ∧ m'.delay = m.delay) ∧
    ((∀ t ∈ s.console.carried calls, ¬ t.word.fits (.tail 0xF 0x07)) → agree) := by
  intro m m' agree
  have hrun (timed : Prop) (hdelay : timed → s'.console.machine.delay = s.console.machine.delay)
      (htimed : ∀ t ∈ s.console.carried calls, t.word.fits (.tail 0xF 0x07) → timed) :
      agree ∧ (timed → m'.delay = m.delay) := by
    obtain ⟨halike, hfailures⟩ :=
      Console.alike_run hcalls ⟨⟨hsame, hdelay⟩, hspeed, hhandlers⟩ h h' htimed
    obtain ⟨hstate, hraised⟩ := s.driven_eq calls
    obtain ⟨hstate', hraised'⟩ := s'.driven_eq calls
    simp only [agree, m, m', hstate, hstate', hraised, hraised']
    exact ⟨⟨halike.track.toSameCourse, halike.speed, hfailures⟩, halike.track.delay⟩
  constructor
  · intro hdelay
    obtain ⟨hagree, hend⟩ := hrun True (fun _ => hdelay) fun _ _ _ => trivial
    exact ⟨hagree, hend trivial⟩
  · intro hquiet
    exact (hrun False False.elim hquiet).1

/-- Two sessions of a program that jumps to itself, with nothing in common that it does not
    see, and with different delays. -/
theorem unseen_of_loop :
    let m := (Machine.fresh 3 440 (.cycling [])).loaded [0x12, 0x00]
    let m' := { m with
      delay := 4, sound := 9, toneHz := 880, cycles := 5, executed := 7
      screen := { m.screen with stale := false, frames := 5 } }
    let around (c : Console) (level : Log.Level) : Session := {
      host := .boundless, console := c, settings := ⟨10, 3, 60, 440, true, false⟩, level
      clock := .finite 0, measuredAt := .finite 0, drawn := 0, executedThen := 0
      frameLabel := ⟨"", 0⟩, speedLabel := ⟨"", 0⟩, picture := ⟨0, 0, []⟩
      scheduled := [.frame], closed := false }
    let s := around ⟨m, [⟨.machine, false⟩], .silent⟩ .debug
    let s' := around ⟨m', [⟨.machine, false⟩], ⟨some 2, some (.whole 660), 2⟩⟩ .error
    let calls : List Console.Call := [.cycle, .keys (.press 5), .step, .keys (.press 16), .cycle]
    m.WellFormed ∧ m'.WellFormed ∧ SameCourse 7 m m' ∧ m'.delay ≠ m.delay ∧
      (∀ t ∈ s.console.carried calls, ¬ t.word.fits (.tail 0xF 0x07)) ∧
      SameCourse 7 (s.driven calls).console.machine (s'.driven calls).console.machine ∧
      s'.drivenFailures calls = s.drivenFailures calls := by
  intro m m' around s s' calls
  have hfresh := Machine.wellFormed_fresh 3 440 (.cycling [])
  have hm : m.WellFormed := wellFormed_loaded hfresh (by decide)
  have hloop : s.console.Looping := Console.looping_of_loaded hfresh hm rfl rfl rfl rfl
  have hdelay : m.delay = 0 := rfl
  have hexecuted : m.executed = 0 := rfl
  clear_value m
  have hm' : m'.WellFormed :=
    { hm with
      delay_range := (by decide : (0 : Int) ≤ 4 ∧ (4 : Int) < 256)
      sound_range := (by decide : (0 : Int) ≤ 9 ∧ (9 : Int) < 256)
      screen_standard := { hm.screen_standard with } }
  have hsame : SameCourse 7 m m' :=
    { SameCourse.refl m with
      executed := by
        rw [hexecuted]
        rfl }
  have hcalls : ∀ call ∈ calls, call.isDriven = true := by decide
  have hquiet : ∀ t ∈ s.console.carried calls, ¬ t.word.fits (.tail 0xF 0x07) := by
    intro t ht
    rw [hloop.word_of_carried hcalls t ht]
    decide
  obtain ⟨hend, _, hfailures⟩ :=
    (@unseen_never_matters s s' 7 hm hm' hsame rfl rfl calls hcalls).2 hquiet
  have hother : (4 : Int) ≠ m.delay := by
    rw [hdelay]
    decide
  exact ⟨hm, hm', hsame, hother, hquiet, hend, hfailures⟩

end Session

end Chip8
