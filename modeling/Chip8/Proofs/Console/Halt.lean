import Chip8.Proofs.Console.Run

/-! # Faults are final

    A console whose host only runs frames, loads programs and passes on keys never halts
    while it waits for a key: frames look at the wait before every step, so a fault finds
    none.  Hearing a key does not look at the halt at all, so everything rests on that
    (**`settled_run`**).

    **`frozen_run`** is what follows: after a frame has raised a fault, nothing that a
    program can reach changes any more, whatever frames and keys follow. -/

namespace Chip8.Console

open Machine

/-- The calls of a host: frames, programs and keys, but no single instruction. -/
def Call.isHosted : Call → Bool
  | .cycle | .load _ | .keys _ => true
  | _                          => false

/-- The calls of a host that loads no program: frames and keys. -/
def Call.isPlayed : Call → Bool
  | .cycle | .keys _ => true
  | _                => false

theorem Call.isPlayed_cases {call : Call} (hcall : call.isPlayed = true) :
    call = .cycle ∨ ∃ keys, call = .keys keys := by
  cases call with
  | cycle => exact Or.inl rfl
  | keys keys => exact Or.inr ⟨keys, rfl⟩
  | _ => exact nomatch hcall

theorem Call.isHosted_cases {call : Call} (hcall : call.isHosted = true) :
    call.isPlayed = true ∨ ∃ program, call = .load program := by
  cases call with
  | cycle => exact Or.inl rfl
  | keys keys => exact Or.inl rfl
  | load program => exact Or.inr ⟨program, rfl⟩
  | _ => exact nomatch hcall

theorem Call.isHosted_of_isPlayed {call : Call} (hcall : call.isPlayed = true) :
    call.isHosted = true := by
  rcases isPlayed_cases hcall with rfl | ⟨keys, rfl⟩ <;> rfl

/-- The command to the buzzer that a report is, if it is one. -/
def Report.command? : Report → Option Command
  | .command c => some c
  | _          => none

variable {c : Console}

theorem failure_cycle (c : Console) : c.cycle.failure = c.machine.cycle.failure := rfl

theorem host_cycle (h : c.machine.WellFormed) :
    c.cycle.state.machine.speed = c.machine.speed ∧
      c.cycle.state.machine.toneHz = c.machine.toneHz := by
  have hhost := (host_frameLoop (wellFormed_begun h)).trans
    (host_settled c.machine.begun (frameLoop c.machine.begun).2)
  show c.machine.cycle.state.speed = _ ∧ c.machine.cycle.state.toneHz = _
  rw [cycle_eq]
  exact ⟨hhost.speed, hhost.toneHz⟩

/-- A frame that raises anything halts the machine. -/
theorem halted_cycle (h : c.machine.WellFormed) {e : Failure} (he : c.cycle.failure = some e) :
    c.cycle.state.machine.halted = true := by
  have hfault : (frameLoop c.machine.begun).2.failure = some e := by
    rw [← he, failure_cycle, cycle_eq]
  obtain ⟨_, _, hhalted, _⟩ := frameLoop_failure (wellFormed_begun h) hfault
  show c.machine.cycle.state.halted = true
  rw [cycle_eq]
  exact (halted_settled _ _).trans hhalted

/-! ## What keys leave alone -/

theorem frozen_afterKey (hw : c.machine.waiting = none) (e : KeyEvent) :
    Frozen c.machine (c.afterKey e).machine := by
  have hheard : (c.machine.keyed e).heard e = c.machine.keyed e :=
    heard_of_not_waiting (m := c.machine.keyed e) hw e
  simp only [afterKey, told, hheard, ite_self]
  exact { Frozen.refl c.machine with }

theorem frozen_afterKeys (hw : c.machine.waiting = none) (es : List KeyEvent) :
    Frozen c.machine (c.afterKeys es).machine := by
  induction es generalizing c with
  | nil => exact Frozen.refl c.machine
  | cons e rest ih =>
      have hfirst := frozen_afterKey hw e
      exact hfirst.trans (ih (hfirst.waiting.trans hw))

theorem halted_afterKeys (c : Console) (es : List KeyEvent) :
    (c.afterKeys es).machine.halted = c.machine.halted := by
  rw [afterKeys_eq]

/-! ## A halted machine waits for nothing -/

/-- The machine is well-formed, and if it is halted it waits for no key. -/
structure Settled (c : Console) : Prop where
  wellFormed : c.machine.WellFormed
  waiting : c.machine.halted = true → c.machine.waiting = none

theorem settled_cycle (h : Settled c) : Settled c.cycle.state := by
  refine ⟨wellFormed_cycle h.wellFormed, ?_⟩
  show c.machine.cycle.state.halted = true → c.machine.cycle.state.waiting = none
  intro hend
  cases hh : c.machine.halted with
  | true =>
      rw [(frozen_cycle (Or.inl hh)).waiting]
      exact h.waiting hh
  | false =>
      have hbegun := wellFormed_begun h.wellFormed
      refine (wellFormed_cycle h.wellFormed).waiting_eq_none ?_
      rw [cycle_eq] at hend ⊢
      have hhalted : (frameLoop c.machine.begun).2.state.halted = true :=
        (halted_settled _ _).symm.trans hend
      -- a frame halts the machine only in a step that it took while nothing waited
      cases he : (frameLoop c.machine.begun).2.failure with
      | none => exact nomatch (frameLoop_running hbegun hh he).symm.trans hhalted
      | some e =>
          obtain ⟨_, _, _, hp⟩ := frameLoop_failure hbegun he
          exact (paused_settled _ _).trans hp

theorem settled_keys (h : Settled c) (call : KeyCall) : Settled (c.performKeys call).state := by
  rw [performKeys_state h.wellFormed]
  refine ⟨wellFormed_afterKeys h.wellFormed _, ?_⟩
  intro hend
  rw [halted_afterKeys] at hend
  exact (frozen_afterKeys (h.waiting hend) _).waiting.trans (h.waiting hend)

theorem settled_load (h : Settled c) (program : List UInt8) :
    Settled (c.perform (.load program)).state := by
  refine ⟨wellFormed_load h.wellFormed program, ?_⟩
  show (c.machine.load program).state.halted = true → (c.machine.load program).state.waiting = none
  rw [load_memory]
  exact h.waiting

theorem settled_perform (h : Settled c) {call : Call} (hcall : call.isHosted = true) :
    Settled (c.perform call).state := by
  rcases Call.isHosted_cases hcall with hplayed | ⟨program, rfl⟩
  · rcases Call.isPlayed_cases hplayed with rfl | ⟨keys, rfl⟩
    · exact settled_cycle h
    · exact settled_keys h keys
  · exact settled_load h program

theorem settled_fresh (speed toneHz : Int) (random : RandomStream) :
    Settled (fresh speed toneHz random) :=
  ⟨Machine.wellFormed_fresh speed toneHz random, fun hh => nomatch hh⟩

theorem settled_run (h : Settled c) {calls : List Call}
    (hcalls : ∀ call ∈ calls, call.isHosted = true) : Settled (c.run calls) :=
  run_preserves (P := Settled) (K := fun call => call.isHosted = true)
    (fun _ _ hc hcall => settled_perform hc hcall) calls c hcalls h

/-! ## After a fault -/

theorem commands_stop (b : Buzzer) :
    (relay b [.command .stop]).2.filterMap Report.command? = [.stop] := by
  cases hp : b.player with
  | none =>
      simp only [relay, Buzzer.obey, Buzzer.stop, hp]
      rfl
  | some player =>
      simp only [relay, Buzzer.obey, Buzzer.stop, hp]
      rfl

/-- A frame of a halted machine raises nothing, stops the buzzer and presents a picture. -/
theorem cycle_halted (hh : c.machine.halted = true) :
    c.cycle.failure = none ∧ c.cycle.reports.filterMap Report.command? = [.stop] ∧
      c.cycle.state.machine = c.machine.begun.present := by
  have hcycle := cycle_idle (m := c.machine) (Or.inl hh)
  have haudio : c.machine.audio = .stop :=
    if_neg fun hsound => Bool.false_ne_true (hsound.2.symm.trans hh)
  rw [haudio] at hcycle
  refine ⟨?_, ?_, ?_⟩
  · rw [failure_cycle, hcycle]
  · show (relay c.buzzer c.machine.cycle.reports).2.filterMap Report.command? = [.stop]
    rw [hcycle]
    exact commands_stop c.buzzer
  · show c.machine.cycle.state = c.machine.begun.present
    rw [hcycle]

theorem cycle_failure_of_unknown (program : List UInt8) (h : c.machine.WellFormed)
    (hpc : c.machine.pc = programStart) (hh : c.machine.halted = false)
    (hp : c.machine.paused = false) (hspeed : 0 < c.machine.speed)
    (hfit : program.length ≤ programCapacity)
    (hdec : decode (256 * (program.getD 0 0).toNat + (program.getD 1 0).toNat : Nat) = none) :
    ∃ f, (c.run [.load program]).cycle.failure = some (.fault f) := by
  have hload : (c.run [.load program]).machine = c.machine.loaded program :=
    machine_run_load c hfit
  have hstep := step_of_unknown (wellFormed_begun (wellFormed_loaded h hfit))
    ((congrArg decode (word_loaded h hpc hfit)).trans hdec)
  rw [failure_cycle, hload]
  exact ⟨_, cycle_failure_of_step hh hp hspeed hstep⟩

theorem frozen_perform (h : Settled c) (hh : c.machine.halted = true) {call : Call}
    (hcall : call.isPlayed = true) : Frozen c.machine (c.perform call).state.machine := by
  rcases Call.isPlayed_cases hcall with rfl | ⟨keys, rfl⟩
  · exact frozen_cycle (Or.inl hh)
  · show Frozen c.machine (c.performKeys keys).state.machine
    rw [performKeys_state h.wellFormed]
    exact frozen_afterKeys (h.waiting hh) _

theorem frozen_run (h : Settled c) (hh : c.machine.halted = true) :
    ∀ calls : List Call, (∀ call ∈ calls, call.isPlayed = true) →
      Frozen c.machine (c.run calls).machine := by
  intro calls hcalls
  have hkept : Settled (c.run calls) ∧ Frozen c.machine (c.run calls).machine := by
    refine run_preserves (P := fun d => Settled d ∧ Frozen c.machine d.machine)
      (K := fun call => call.isPlayed = true) ?_ calls c hcalls ⟨h, Frozen.refl c.machine⟩
    intro d call hd hcall
    have hhalted : d.machine.halted = true := hd.2.halted.trans hh
    exact ⟨settled_perform hd.1 (Call.isHosted_of_isPlayed hcall),
      hd.2.trans (frozen_perform hd.1 hhalted hcall)⟩
  exact hkept.2

/-- **FAULTS ARE FINAL.**  Over a run of frames, programs and keys from a console that has
    just been switched on, the machine is never halted while it waits for a key.  And if a
    frame raises anything, it is a fault; whatever frames and keys follow,

    * nothing that a program can reach changes any more, and the machine stays halted;
    * no later frame raises anything, and each gives one command, to stop, and presents
      one picture. -/
theorem fault_is_final (speed toneHz : Int) (random : RandomStream) (before after : List Call)
    (hbefore : ∀ call ∈ before, call.isHosted = true)
    (hafter : ∀ call ∈ after, call.isPlayed = true) :
    let c := (fresh speed toneHz random).run before
    ¬ (c.machine.halted = true ∧ (c.machine.paused = true ∨ c.machine.waiting.isSome = true)) ∧
    ∀ e, c.cycle.failure = some e →
      let f := c.cycle.state
      let d := f.run after
      (∃ fault, e = .fault fault) ∧ Frozen f.machine d.machine ∧ d.machine.halted = true ∧
      d.cycle.failure = none ∧ d.cycle.reports.filterMap Report.command? = [.stop] ∧
      d.cycle.state.machine.screen.frames = d.machine.screen.frames + 1 ∧
      d.cycle.state.machine.screen.stale = true := by
  intro c
  have hc : Settled c := settled_run (settled_fresh speed toneHz random) hbefore
  refine ⟨?_, ?_⟩
  · rintro ⟨hh, hwait⟩
    have hnone := hc.waiting hh
    rcases hwait with hp | hs
    · exact nomatch (hc.wellFormed.paused_eq_false hnone).symm.trans hp
    · rw [hnone] at hs
      exact nomatch hs
  · intro e he f d
    have hfault : (frameLoop c.machine.begun).2.failure = some e := by
      rw [← he, failure_cycle, cycle_eq]
    -- the frame that failed leaves a machine that is halted and still settled
    obtain ⟨fault, hfaulted, hloop, _⟩ := frameLoop_failure (wellFormed_begun hc.wellFormed) hfault
    have hf : Settled f := settled_cycle hc
    have hhalted : f.machine.halted = true := by
      show c.machine.cycle.state.halted = true
      rw [cycle_eq]
      exact (halted_settled _ _).trans hloop
    -- so nothing that follows reaches it
    have hfrozen : Frozen f.machine d.machine := frozen_run hf hhalted after hafter
    have hd : d.machine.halted = true := hfrozen.halted.trans hhalted
    obtain ⟨hnone, hstop, hstate⟩ := cycle_halted hd
    rw [hstate]
    exact ⟨⟨fault, hfaulted⟩, hfrozen, hd, hnone, hstop, rfl, rfl⟩

/-- A program that begins with a word that is no instruction shows that frames do fault. -/
theorem fault_of_unknown_word :
    let c := (fresh 1 440 (.cycling [])).run [.load [0xFF, 0xFF]]
    let d := c.cycle.state.run [.keys (.press 5), .cycle]
    (∃ f, c.cycle.failure = some (.fault f)) ∧ d.machine.halted = true ∧
      Frozen c.cycle.state.machine d.machine ∧ d.cycle.failure = none := by
  have hfresh : (fresh 1 440 (.cycling [])).machine.WellFormed :=
    Machine.wellFormed_fresh 1 440 (.cycling [])
  obtain ⟨f, hfault⟩ := cycle_failure_of_unknown [0xFF, 0xFF] hfresh rfl rfl rfl (by decide)
    (by decide) (by decide)
  have hfinal := (fault_is_final 1 440 (.cycling []) [.load [0xFF, 0xFF]]
    [.keys (.press 5), .cycle] (by decide) (by decide)).2
  obtain ⟨_, hfrozen, hhalted, hnone, _⟩ := hfinal _ hfault
  exact ⟨⟨f, hfault⟩, hhalted, hfrozen, hnone⟩

end Chip8.Console
