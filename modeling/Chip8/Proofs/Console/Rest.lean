import Chip8.Proofs.Console.NetKeys
import Chip8.Proofs.Console.Sound
import Chip8.Proofs.Machine.Complaints

/-! # A machine at rest

    Two machines are one at rest (**`Machine.Rested`**) if no program has run from the one to
    the other: the memory, the stack, the counters, the timers and the pixels agree.  Registers
    and the wait for a key may differ, for a key changes those.

    Keys leave a machine at rest, and the buzzer alone, and never make the emulator complain
    (**`calm_performKeys`**); and a console reports complaints nowhere but as the failure of an
    operation (**`complaints_cycle`**, **`complaints_silence`**). -/

namespace Chip8

/-- The complaint with which an entry says that a session ends. -/
def Log.Entry.complaint? : Log.Entry → Option Complaint
  | .failed c => some c
  | _         => none

theorem none_ne_complaint (c : Complaint) : (none : Option Failure) ≠ some (.complaint c) :=
  (Option.some_ne_none _).symm

namespace Machine

variable {m m' m'' : Machine}

/-- Nothing that programs change has changed, but for registers and the wait for a key. -/
structure Rested (m m' : Machine) : Prop where
  memory : m'.memory = m.memory
  pc : m'.pc = m.pc
  index : m'.index = m.index
  stack : m'.stack = m.stack
  delay : m'.delay = m.delay
  sound : m'.sound = m.sound
  pixels : m'.screen.pixels = m.screen.pixels
  frames : m'.screen.frames = m.screen.frames
  cycles : m'.cycles = m.cycles
  executed : m'.executed = m.executed

theorem Rested.refl (m : Machine) : Rested m m := ⟨rfl, rfl, rfl, rfl, rfl, rfl, rfl, rfl, rfl, rfl⟩

theorem Rested.trans (h : Rested m m') (h' : Rested m' m'') : Rested m m'' where
  memory := h'.memory.trans h.memory
  pc := h'.pc.trans h.pc
  index := h'.index.trans h.index
  stack := h'.stack.trans h.stack
  delay := h'.delay.trans h.delay
  sound := h'.sound.trans h.sound
  pixels := h'.pixels.trans h.pixels
  frames := h'.frames.trans h.frames
  cycles := h'.cycles.trans h.cycles
  executed := h'.executed.trans h.executed

/-- Hearing a key changes registers and the wait, or it fails to. -/
theorem hear_cases (m : Machine) (e : KeyEvent) :
    m.hear e = .done m ∨ (∃ refusal, m.hear e = .fail m (.bank refusal)) ∨
    ∃ registers k r, m.hear e
      = ⟨{ m with registers, waiting := none, paused := false }, [.resumed k r], none⟩ := by
  cases e with
  | up k => exact Or.inl rfl
  | down k =>
      cases hw : m.waiting with
      | none => exact Or.inl (hear_of_not_waiting hw _)
      | some r =>
          cases hwrite : m.registers.write r k.val with
          | error refusal =>
              have hset : m.setRegister r k.val = .error (.bank refusal) := by
                rw [setRegister, hwrite]
                rfl
              exact Or.inr (Or.inl ⟨refusal, hear_of_refused hw hset⟩)
          | ok registers =>
              have hset : m.setRegister r k.val = .ok { m with registers } := by
                rw [setRegister, hwrite]
                rfl
              exact Or.inr (Or.inr ⟨registers, k.val, r, hear_of_filled hw hset⟩)

/-! ## No step reports a complaint -/

theorem complaints_notes (i : Instruction) : i.notes.filterMap Log.Entry.complaint? = [] := by
  cases hop : i.operation <;> simp only [Instruction.notes, hop] <;> rfl

theorem complaints_apply (i : Instruction) (m : Machine) :
    (i.apply m).reports.filterMap Log.Entry.complaint? = [] := by
  rcases i.apply_cases m with hplain | ⟨next, _, happly⟩ | ⟨reason, happly⟩
  · rw [hplain.silent]
    rfl
  · rw [happly]
    exact complaints_notes i
  · rw [happly]
    rfl

theorem complaints_execute (m : Machine) (op : Opcode) :
    (m.execute op).reports.filterMap Log.Entry.complaint? = [] := by
  rw [execute]
  split
  · rfl
  · rename_i i _
    exact complaints_apply i m.advance

theorem complaints_step (m : Machine) : m.step.reports.filterMap Log.Entry.complaint? = [] := by
  rw [step]
  split
  · rfl
  · rename_i op _
    have hexecute := complaints_execute m op
    simp only
    split
    · exact hexecute
    · simp only [List.filterMap_append, hexecute]
      rfl
    · exact hexecute

theorem complaints_batch (n : Nat) (m : Machine) :
    (batch n m).reports.filterMap Log.Entry.complaint? = [] := by
  induction n generalizing m with
  | zero => rfl
  | succ n ih =>
      cases hp : m.paused with
      | true =>
          rw [batch_of_paused hp]
          rfl
      | false =>
          cases he : m.step.failure with
          | some e =>
              rw [batch_succ_of_failure hp he]
              exact complaints_step m
          | none =>
              rw [batch_succ_of_success hp he]
              show (m.step.reports ++ _).filterMap _ = []
              rw [List.filterMap_append, complaints_step, ih]
              rfl

theorem complaints_frameLoop (m : Machine) :
    (frameLoop m).2.reports.filterMap Log.Entry.complaint? = [] := by
  cases hh : m.halted with
  | true =>
      rw [frameLoop_of_halted hh]
      rfl
  | false =>
      rw [frameLoop_eq_batch hh]
      exact complaints_batch _ m

end Machine

namespace Console

def Report.complaint? : Report → Option Complaint
  | .entry e => e.complaint?
  | _        => none

/-- The complaints that reports tell of. -/
def complaints (reports : List Report) : List Complaint := reports.filterMap Report.complaint?

theorem complaints_append (rs rs' : List Report) :
    complaints (rs ++ rs') = complaints rs ++ complaints rs' :=
  List.filterMap_append ..

theorem complaints_entries (entries : List Log.Entry) :
    complaints (entries.map .entry) = entries.filterMap Log.Entry.complaint? :=
  List.filterMap_map ..

theorem heedless_complaints : Heedless Report.complaint? :=
  ⟨fun _ => rfl, fun _ => rfl, fun _ => rfl, rfl⟩

theorem complaints_ofBuzzer (b : Buzzer) (order : Command) :
    complaints ((b.obey Buzzer.willing order).reports.map .ofBuzzer) = [] :=
  heedless_complaints.obey b order

/-- **A FRAME REPORTS NO COMPLAINT**; if the emulator has one, the frame fails with it. -/
theorem complaints_cycle (c : Console) : complaints c.cycle.reports = [] := by
  show complaints (relay c.buzzer c.machine.cycle.reports).2 = []
  rw [relay_cycle, complaints_append, complaints_entries, Machine.complaints_frameLoop,
    complaints_ofBuzzer]
  rfl

/-- Falling silent is carried out. -/
theorem silence_eq (c : Console) :
    c.silence = ⟨{ c with buzzer := (c.buzzer.stop Buzzer.willing).state },
      (c.buzzer.stop Buzzer.willing).reports.map .ofBuzzer, none⟩ := by
  rw [silence, relay_command]
  rfl

theorem complaints_silence (c : Console) : complaints c.silence.reports = [] := by
  rw [silence_eq]
  exact complaints_ofBuzzer c.buzzer .stop

theorem playing_silence (c : Console) : c.silence.state.buzzer.playing = false := by
  rw [silence_eq]
  show (c.buzzer.stop Buzzer.willing).state.playing = false
  cases hp : c.buzzer.player with
  | none =>
      rw [Buzzer.stop_of_silent hp, Buzzer.playing, hp]
      rfl
  | some p =>
      rw [Buzzer.stop_of_playing hp]
      rfl

/-! ## Keys -/

variable {c : Console} {o : Result}

/-- Whether a report tells of a key. -/
def Report.ofKeys : Report → Bool
  | .entry (.key _ _)     => true
  | .entry (.resumed _ _) => true
  | .observed _ _         => true
  | _                     => false

/-- The machine is left at rest and the buzzer alone, the reports are of keys, and the emulator
    complains of nothing. -/
structure Calm (c : Console) (o : Result) : Prop where
  machine : c.machine.Rested o.state.machine
  buzzer : o.state.buzzer = c.buzzer
  reports : ∀ r ∈ o.reports, r.ofKeys = true
  failure : ∀ complaint, o.failure ≠ some (.complaint complaint)

/-- A reading that heeds no keys reads nothing. -/
theorem Calm.unread (h : Calm c o) {α : Type} {read : Report → Option α}
    (hread : ∀ r, r.ofKeys = true → read r = none) : o.reports.filterMap read = [] :=
  List.filterMap_eq_nil_iff.2 fun r hr => hread r (h.reports r hr)

theorem Calm.uncomplaining (h : Calm c o) : complaints o.reports = [] := by
  refine h.unread fun r hr => ?_
  cases r with
  | entry e => cases e <;> first | rfl | exact nomatch hr
  | _ => rfl

theorem Calm.andThen (h : Calm c o) {next : Console → Result} (hnext : ∀ d, Calm d (next d)) :
    Calm c (o.andThen next) := by
  rw [Outcome.andThen]
  split
  · exact h
  · have hrest := hnext o.state
    exact {
      machine := h.machine.trans hrest.machine
      buzzer := hrest.buzzer.trans h.buzzer
      reports := List.forall_mem_append.2 ⟨h.reports, hrest.reports⟩
      failure := hrest.failure }

theorem calm_done (c : Console) : Calm c (.done c) :=
  ⟨.refl c.machine, rfl, fun _ hr => (nomatch hr), none_ne_complaint⟩

theorem calm_tell (e : KeyEvent) (l : Listener) (c : Console) : Calm c (c.tell e l) := by
  cases l with
  | observer name =>
      exact ⟨.refl c.machine, rfl, List.forall_mem_singleton.2 rfl, none_ne_complaint⟩
  | machine =>
      rw [tell, onMachine]
      rcases c.machine.hear_cases e with hhear | ⟨refusal, hhear⟩ | ⟨registers, k, r, hhear⟩
      · rw [hhear]
        exact calm_done c
      · rw [hhear]
        refine ⟨.refl c.machine, rfl, List.forall_mem_nil _, fun complaint hfail => ?_⟩
        cases hfail
      · rw [hhear]
        exact ⟨{ Machine.Rested.refl c.machine with }, rfl, List.forall_mem_singleton.2 rfl,
          none_ne_complaint⟩

theorem calm_tellAll (e : KeyEvent) (ls : List Listener) (c : Console) :
    Calm c (tellAll e ls c) := by
  induction ls generalizing c with
  | nil => exact calm_done c
  | cons l rest ih => exact (calm_tell e l c).andThen ih

theorem calm_signalAll (es : List KeyEvent) (c : Console) : Calm c (signalAll es c) := by
  induction es generalizing c with
  | nil => exact calm_done c
  | cons e rest ih =>
      have htold := calm_tellAll e (heardBy c.handlers) { c with machine := c.machine.keyed e }
      have hsignal : Calm c (c.signal e) :=
        { machine := { htold.machine with }
          buzzer := htold.buzzer
          reports := by
            refine List.forall_mem_cons.2 ⟨?_, htold.reports⟩
            cases e <;> rfl
          failure := htold.failure }
      exact hsignal.andThen ih

/-- **KEYS LEAVE A CONSOLE CALM.** -/
theorem calm_performKeys (c : Console) (call : KeyCall) : Calm c (c.performKeys call) := by
  rw [performKeys_eq]
  refine (calm_signalAll _ c).andThen fun d => ?_
  cases (call.plan c.machine.keypad).2 with
  | none => exact calm_done d
  | some bad =>
      refine ⟨.refl d.machine, rfl, fun _ hr => (nomatch hr), fun complaint hfail => ?_⟩
      cases hfail

end Console

end Chip8
