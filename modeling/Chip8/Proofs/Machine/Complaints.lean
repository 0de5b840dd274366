import Chip8.Proofs.Machine.Step

/-! # Complaints come before changes

    On a machine that is not well-formed an access to memory, registers or the screen may be
    refused in the middle of an instruction, and what has been changed by then stays changed.
    Even so there are only three ways that an instruction can take, on any machine
    (**`apply_cases`**):

    * it is **`Plain`**: it has nothing to report and leaves the keypad alone, and whatever
      makes it fail is a refused access;
    * it does not fail, and reports what it has done;
    * the emulator complains of the stack, before anything has been changed.

    So whenever the emulator complains of a step, the machine is past the word, halted, and
    otherwise as it was (**`step_of_complaint`**). -/

namespace Chip8

/-- Whether memory, registers or the screen refused an access. -/
def Failure.ofAccess : Failure → Bool
  | .bank _ | .screen _ => true
  | _                   => false

/-- An access that is refused by memory, registers or the screen, if at all. -/
def Refusable {α : Type} (x : Except Failure α) : Prop := ∀ e, x = .error e → e.ofAccess = true

/-- What is left has a property, there is nothing to report, and if anything failed, it was an
    access. -/
structure Plain {σ : Type} (P : σ → Prop) (o : Outcome Failure Log.Entry σ) : Prop where
  state : P o.state
  silent : o.reports = []
  access : ∀ e, o.failure = some e → e.ofAccess = true

section Sequences

variable {α σ τ : Type} {P : σ → Prop} {Q : τ → Prop} {s : σ} {o : Outcome Failure Log.Entry σ}

theorem refusable_bank (x : Except Bank.Error α) : Refusable (x.mapError .bank) := by
  cases x with
  | error refusal =>
      rintro e ⟨⟩
      rfl
  | ok a => exact fun _ he => nomatch he

theorem refusable_ok (a : α) : Refusable (.ok a) := fun _ he => nomatch he

theorem Refusable.bind {β : Type} {x : Except Failure α} {f : α → Except Failure β}
    (hx : Refusable x) (hf : ∀ a, Refusable (f a)) : Refusable (x >>= f) := by
  cases x with
  | error e => exact fun e' he => hx e' (by cases he; rfl)
  | ok a => exact hf a

theorem plain_done (hs : P s) : Plain P (.done s) := ⟨hs, rfl, fun _ he => nomatch he⟩

theorem plain_given (hs : P s) {x : Except Failure α} (hx : Refusable x)
    {next : α → Outcome Failure Log.Entry σ} (hnext : ∀ a, Plain P (next a)) :
    Plain P (.given s x next) := by
  cases x with
  | error e => exact ⟨hs, rfl, fun e' he => hx e' (congrArg Except.error (Option.some.inj he))⟩
  | ok a => exact hnext a

theorem plain_change (hs : P s) {x : Except Failure σ} (hx : Refusable x)
    (hok : ∀ s', x = .ok s' → P s') : Plain P (.change s x) := by
  cases x with
  | error e => exact ⟨hs, rfl, fun e' he => hx e' (congrArg Except.error (Option.some.inj he))⟩
  | ok a => exact plain_done (hok a rfl)

theorem Plain.andThen (ho : Plain P o) {next : σ → Outcome Failure Log.Entry σ}
    (hnext : ∀ s, P s → Plain P (next s)) : Plain P (o.andThen next) := by
  cases hfailure : o.failure with
  | some e =>
      simp only [Outcome.andThen, hfailure]
      exact ho
  | none =>
      obtain ⟨hstate, hsilent, haccess⟩ := hnext o.state ho.state
      rw [Outcome.andThen_of_success hfailure]
      refine ⟨hstate, ?_, haccess⟩
      show o.reports ++ (next o.state).reports = []
      rw [ho.silent, hsilent, List.nil_append]

theorem Plain.mapState (ho : Plain P o) {f : σ → τ} (hf : ∀ s, P s → Q (f s)) :
    Plain Q (o.mapState f) :=
  ⟨hf _ ho.state, ho.silent, ho.access⟩

end Sequences

namespace Machine

variable {m : Machine} {p : Keypad}

/-- The keys of a machine are those of a keypad. -/
def HasKeys (p : Keypad) (m : Machine) : Prop := m.keypad = p

/-! ## Accesses -/

theorem refusable_register (m : Machine) (r : Int) : Refusable (m.register r) :=
  refusable_bank _

theorem refusable_peek (m : Machine) (address : Int) : Refusable (m.peek address) :=
  refusable_bank _

theorem refusable_fetch (m : Machine) : Refusable m.fetch :=
  (refusable_peek m _).bind fun _ => (refusable_peek m _).bind fun _ => refusable_ok _

/-- A bank that is written to, if that is not refused. -/
theorem plain_written (h : m.HasKeys p) (x : Except Bank.Error Bank) {written : Bank → Machine}
    (hwritten : ∀ bank, (written bank).HasKeys p) :
    Plain (HasKeys p) (.change m (x.mapError .bank >>= fun bank => .ok (written bank))) := by
  refine plain_change h ((refusable_bank x).bind fun _ => refusable_ok _) fun m' hm' => ?_
  obtain ⟨bank, -, hset⟩ := exists_of_bind hm'
  cases hset
  exact hwritten bank

theorem plain_setRegister (h : m.HasKeys p) (r value : Int) :
    Plain (HasKeys p) (.change m (m.setRegister r value)) :=
  plain_written h _ fun _ => h

theorem plain_poke (h : m.HasKeys p) (address value : Int) :
    Plain (HasKeys p) (.change m (m.poke address value)) :=
  plain_written h _ fun _ => h

theorem plain_skipIf (h : m.HasKeys p) (condition : Bool) :
    Plain (HasKeys p) (.done (m.skipIf condition)) := by
  cases condition with
  | false => exact plain_done h
  | true => exact plain_done (s := m.advance) h

theorem plain_storeRegisters (h : m.HasKeys p) (n : Nat) :
    Plain (HasKeys p) (m.storeRegisters n) := by
  induction n with
  | zero => exact plain_done h
  | succ k ih =>
      exact ih.andThen fun m hm => plain_given hm (refusable_register m k) fun value =>
        plain_poke hm _ value

theorem plain_loadRegisters (h : m.HasKeys p) (n : Nat) :
    Plain (HasKeys p) (m.loadRegisters n) := by
  induction n with
  | zero => exact plain_done h
  | succ k ih =>
      exact ih.andThen fun m hm => plain_given hm (refusable_peek m _) fun value =>
        plain_setRegister hm k value

/-! ### Drawing -/

theorem silent_toggleAll (screen : Screen) (points : List (Int × Int)) :
    (screen.toggleAll points).reports = [] := by
  induction points generalizing screen with
  | nil => rfl
  | cons point rest ih =>
      obtain ⟨x, y⟩ := point
      rw [Screen.toggleAll]
      cases screen.toggle x y with
      | error e => rfl
      | ok toggled => exact ih toggled.1

theorem plain_toggleAll (screen : Screen) (points : List (Int × Int)) :
    Plain (fun _ => True) ((screen.toggleAll points).mapFailure .screen) := by
  refine ⟨trivial, silent_toggleAll screen points, fun e he => ?_⟩
  obtain ⟨refusal, -, rfl⟩ := Option.map_eq_some_iff.1 he
  rfl

theorem plain_drawRow (left top : Int) (row : Nat) (drawn : Machine × Bool)
    (h : drawn.1.HasKeys p) :
    Plain (fun drawn => drawn.1.HasKeys p) (drawRow left top row drawn) := by
  obtain ⟨m, erased⟩ := drawn
  rw [drawRow]
  refine plain_given (P := fun drawn : Machine × Bool => drawn.1.HasKeys p) h
    (refusable_peek m _) fun byte => ?_
  exact (plain_toggleAll m.screen _).mapState fun _ _ => h

theorem plain_drawRows (left top : Int) (height : Nat) (drawn : Machine × Bool)
    (h : drawn.1.HasKeys p) :
    Plain (fun drawn => drawn.1.HasKeys p) (drawRows left top height drawn) := by
  induction height with
  | zero => exact plain_done h
  | succ k ih => exact ih.andThen (plain_drawRow left top k)

end Machine

namespace Instruction

open Machine

variable (i : Instruction) {m : Machine} {p : Keypad}

/-! ## Operations -/

theorem plain_onRegister (h : m.HasKeys p) {next : Nat → Result}
    (hnext : ∀ a, Plain (HasKeys p) (next a)) : Plain (HasKeys p) (i.onRegister m next) :=
  plain_given h (refusable_register m i.x) hnext

theorem plain_onRegisters (h : m.HasKeys p) {next : Nat → Nat → Result}
    (hnext : ∀ a b, Plain (HasKeys p) (next a b)) :
    Plain (HasKeys p) (i.onRegisters m next) :=
  plain_given h (refusable_register m i.x) fun a =>
    plain_given h (refusable_register m i.y) fun b => hnext a b

theorem plain_combine (h : m.HasKeys p) (result : Nat → Nat → Nat) :
    Plain (HasKeys p) (i.combine m result) :=
  plain_onRegisters i h fun _ _ => plain_setRegister h i.x _

theorem plain_withFlag (h : m.HasKeys p) (raised : Bool) (result : Int) :
    Plain (HasKeys p) (i.withFlag m raised result) :=
  (plain_setRegister h flagRegister _).andThen fun _ hm => plain_setRegister hm i.x result

theorem plain_drawn (h : m.HasKeys p) (left top : Int) (height : Nat) :
    Plain (HasKeys p) (((drawRows left top height (m, false)).andThen fun (m, erased) =>
      (Outcome.change m (m.setRegister flagRegister (flag erased))).mapState
        (·, erased)).mapState Prod.fst) := by
  have hrows := plain_drawRows left top height (m, false) h
  refine (hrows.andThen fun drawn hdrawn => ?_).mapState fun _ hdrawn => hdrawn
  exact (plain_setRegister hdrawn flagRegister _).mapState fun _ hm => hm

/-- **THE WAYS OF AN INSTRUCTION** on any machine. -/
theorem apply_cases (m : Machine) :
    Plain (HasKeys m.keypad) (i.apply m) ∨
    (∃ next, next.keypad = m.keypad ∧ i.apply m = ⟨next, i.notes, none⟩) ∨
    ∃ reason, i.apply m = .fail m (i.faultAt reason m) := by
  have h : m.HasKeys m.keypad := rfl
  cases hop : i.operation <;> simp only [apply, notes, hop]
  case sys => exact Or.inl (plain_done rfl)
  case clear => exact Or.inr (Or.inl ⟨{ m with screen := m.screen.clear }, rfl, rfl⟩)
  case ret =>
      cases m.stack with
      | nil => exact Or.inr (Or.inr ⟨.stackUnderflow, rfl⟩)
      | cons top rest => exact Or.inl (plain_done rfl)
  case jump => exact Or.inl (plain_done rfl)
  case call =>
      by_cases hfull : stackDepth ≤ m.stack.length
      · exact Or.inr (Or.inr ⟨.stackOverflow, if_pos hfull⟩)
      · rw [if_neg hfull]
        exact Or.inl (plain_done rfl)
  case skipEqByte => exact Or.inl (plain_onRegister i h fun _ => plain_skipIf h _)
  case skipNeByte => exact Or.inl (plain_onRegister i h fun _ => plain_skipIf h _)
  case skipEqReg => exact Or.inl (plain_onRegisters i h fun _ _ => plain_skipIf h _)
  case skipNeReg => exact Or.inl (plain_onRegisters i h fun _ _ => plain_skipIf h _)
  case setByte => exact Or.inl (plain_setRegister h _ _)
  case addByte => exact Or.inl (plain_onRegister i h fun _ => plain_setRegister h _ _)
  case move =>
      exact Or.inl (plain_given h (refusable_register m i.y) fun _ => plain_setRegister h _ _)
  case or => exact Or.inl (plain_combine i h _)
  case and => exact Or.inl (plain_combine i h _)
  case xor => exact Or.inl (plain_combine i h _)
  case add => exact Or.inl (plain_onRegisters i h fun _ _ => plain_withFlag i h _ _)
  case sub => exact Or.inl (plain_onRegisters i h fun _ _ => plain_withFlag i h _ _)
  case subn => exact Or.inl (plain_onRegisters i h fun _ _ => plain_withFlag i h _ _)
  case shr => exact Or.inl (plain_onRegister i h fun _ => plain_withFlag i h _ _)
  case shl => exact Or.inl (plain_onRegister i h fun _ => plain_withFlag i h _ _)
  case setIndex => exact Or.inl (plain_done rfl)
  case jumpOffset =>
      exact Or.inl (plain_given h (refusable_register m 0) fun _ => plain_done rfl)
  case random =>
      exact Or.inl (plain_setRegister (m := { m with random := m.random.advance }) rfl _ _)
  case draw => exact Or.inl (plain_onRegisters i h fun _ _ => plain_drawn h _ _ _)
  case skipHeld => exact Or.inl (plain_onRegister i h fun _ => plain_skipIf h _)
  case skipNotHeld => exact Or.inl (plain_onRegister i h fun _ => plain_skipIf h _)
  case readDelay => exact Or.inl (plain_setRegister h _ _)
  case waitKey =>
      exact Or.inr (Or.inl ⟨{ m with paused := true, waiting := some (i.x : Int) }, rfl, rfl⟩)
  case setDelay => exact Or.inl (plain_onRegister i h fun _ => plain_done rfl)
  case setSound => exact Or.inl (plain_onRegister i h fun _ => plain_done rfl)
  case addIndex => exact Or.inl (plain_onRegister i h fun _ => plain_done rfl)
  case glyph => exact Or.inl (plain_onRegister i h fun _ => plain_done rfl)
  case decimal =>
      refine Or.inl (plain_onRegister i h fun value => ?_)
      exact ((plain_poke h _ _).andThen fun _ hm => plain_poke hm _ _).andThen fun _ hm =>
        plain_poke hm _ _
  case store => exact Or.inl (plain_storeRegisters h _)
  case load => exact Or.inl (plain_loadRegisters h _)

/-- **A COMPLAINT COMES BEFORE ANY CHANGE.** -/
theorem apply_of_complaint {c : Complaint} (hfail : (i.apply m).failure = some (.complaint c)) :
    ∃ reason, .complaint c = i.faultAt reason m ∧ i.apply m = .fail m (.complaint c) := by
  rcases i.apply_cases m with hplain | ⟨next, _, happly⟩ | ⟨reason, happly⟩
  · exact absurd (hplain.access _ hfail) Bool.false_ne_true
  · rw [happly] at hfail
    cases hfail
  · rw [happly] at hfail ⊢
    obtain hfault := Option.some.inj hfail
    exact ⟨reason, hfault.symm, congrArg (Outcome.fail m) hfault⟩

end Instruction

namespace Machine

variable {m : Machine} {c : Complaint}

theorem execute_of_complaint {op : Opcode}
    (hfail : (m.execute op).failure = some (.complaint c)) :
    (∃ f, c = .execution f) ∧ (m.execute op).state = m.advance := by
  rw [execute] at hfail ⊢
  cases hdec : decode op with
  | none =>
      rw [hdec] at hfail
      cases hfail
      exact ⟨⟨_, rfl⟩, rfl⟩
  | some i =>
      rw [hdec] at hfail
      obtain ⟨reason, hfault, happly⟩ := i.apply_of_complaint hfail
      cases hfault
      exact ⟨⟨_, rfl⟩, congrArg Outcome.state happly⟩

/-- **WHAT A COMPLAINT LEAVES**, on any machine. -/
theorem step_of_complaint (hfail : m.step.failure = some (.complaint c)) :
    m.step.state = m.stopped := by
  rw [step] at hfail ⊢
  cases hword : m.fetch with
  | error e =>
      rw [hword] at hfail
      obtain rfl : e = .complaint c := Option.some.inj hfail
      exact absurd (refusable_fetch m _ hword) Bool.false_ne_true
  | ok op =>
      obtain ⟨o, ho⟩ : ∃ o, m.execute op = o := ⟨_, rfl⟩
      obtain ⟨state, reports, failure⟩ := o
      simp only [hword, ho] at hfail ⊢
      cases failure with
      | none => cases hfail
      | some e =>
          obtain rfl : e = .complaint c := by
            cases e with
            | complaint c' => cases c' <;> exact Option.some.inj hfail
            | _ => exact Option.some.inj hfail
          obtain ⟨⟨f, rfl⟩, hstate⟩ := execute_of_complaint (congrArg Outcome.failure ho)
          rw [ho] at hstate
          obtain rfl : state = m.advance := hstate
          rfl

end Machine

end Chip8
