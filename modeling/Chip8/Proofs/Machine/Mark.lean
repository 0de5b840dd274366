import Chip8.Machine.Cycle
import Chip8.Machine.Input

/-! # The mark on the screen

    The screen is marked when its picture should be drawn again, and whoever draws it takes the
    mark away.  No instruction and no frame looks at the mark.

    * An operation is **`Outcome.Blind`** to what a `blur` takes away if it comes to the same,
      blurred, whether or not that was taken away before.  Sequences of such operations are such
      operations.
    * **`blind_apply`**: every instruction is blind to the mark, operation by operation; so are
      steps, batches and frames (**`blind_cycle`**), and hearing a key (**`blind_hear`**). -/

namespace Chip8

namespace Outcome

variable {ε ω ω' σ α : Type} {blur : σ → σ} {f g : σ → Outcome ε ω σ}

/-- An operation that does not see what `blur` takes away. -/
def Blind (blur : σ → σ) (f : σ → Outcome ε ω σ) : Prop :=
  ∀ s, (f (blur s)).mapState blur = (f s).mapState blur

theorem mapState_eq_iff {o o' : Outcome ε ω σ} : o.mapState blur = o'.mapState blur ↔
    blur o.state = blur o'.state ∧ o.reports = o'.reports ∧ o.failure = o'.failure := by
  simp only [mapState, mk.injEq]

/-- From states that look the same, a blind operation comes to outcomes that look the same. -/
theorem Blind.agree (hf : Blind blur f) {s s' : σ} (h : blur s = blur s') :
    (f s).mapState blur = (f s').mapState blur := by
  rw [← hf s, ← hf s', h]

theorem Blind.andThen (hf : Blind blur f) (hg : Blind blur g) :
    Blind blur fun s => (f s).andThen g := by
  intro s
  obtain ⟨hstate, hreports, hfailure⟩ := mapState_eq_iff.1 (hf s)
  rw [mapState_eq_iff]
  simp only [Outcome.andThen, hfailure]
  cases (f s).failure with
  | some e => exact ⟨hstate, hreports, hfailure⟩
  | none =>
      obtain ⟨hstate', hreports', hfailure'⟩ := mapState_eq_iff.1 (hg.agree hstate)
      exact ⟨hstate', by simp only [hreports, hreports'], hfailure'⟩

theorem blind_done {h : σ → σ} (hh : ∀ s, blur (h (blur s)) = blur (h s)) :
    Blind blur fun s => (done (h s) : Outcome ε ω σ) := by
  intro s
  rw [mapState_eq_iff]
  exact ⟨hh s, rfl, rfl⟩

/-- First something is read, and what is taken away is no part of it. -/
theorem blind_given (hblur : ∀ s, blur (blur s) = blur s) {x : σ → Except ε α}
    {next : α → σ → Outcome ε ω σ} (hx : ∀ s, x (blur s) = x s)
    (hnext : ∀ a, Blind blur (next a)) : Blind blur fun s => given s (x s) (next · s) := by
  intro s
  simp only [hx s]
  cases x s with
  | error e => exact mapState_eq_iff.2 ⟨hblur s, rfl, rfl⟩
  | ok a => exact hnext a s

/-- A change leaves what is taken away as it was. -/
theorem blind_change (hblur : ∀ s, blur (blur s) = blur s) {x : σ → Except ε σ}
    (hx : ∀ s, x (blur s) = (x s).map blur) :
    Blind blur fun s => (change s (x s) : Outcome ε ω σ) := by
  intro s
  simp only [hx s]
  cases x s with
  | error e => exact mapState_eq_iff.2 ⟨hblur s, rfl, rfl⟩
  | ok a => exact mapState_eq_iff.2 ⟨hblur a, rfl, rfl⟩

/-- What does not see the mark may be chosen by what does not see it either. -/
theorem Blind.ite (hf : Blind blur f) (hg : Blind blur g) {b : σ → Bool}
    (hb : ∀ s, b (blur s) = b s) : Blind blur fun s => if b s then f s else g s := by
  intro s
  simp only [hb s]
  cases b s with
  | true => exact hf s
  | false => exact hg s

theorem Blind.mapReports (hf : Blind blur f) (words : ω → List ω') :
    Blind blur fun s => (f s).mapReports words := by
  intro s
  obtain ⟨hstate, hreports, hfailure⟩ := mapState_eq_iff.1 (hf s)
  rw [mapState_eq_iff]
  exact ⟨hstate, congrArg (List.flatMap words) hreports, hfailure⟩

theorem Blind.lastly (hf : Blind blur f) (hg : Blind blur g) :
    Blind blur fun s => (f s).lastly g := by
  intro s
  obtain ⟨hstate, hreports, hfailure⟩ := mapState_eq_iff.1 (hf s)
  obtain ⟨hstate', hreports', hfailure'⟩ := mapState_eq_iff.1 (hg.agree hstate)
  rw [mapState_eq_iff]
  simp only [Outcome.lastly, hreports, hreports', hfailure, hfailure']
  exact ⟨hstate', trivial, trivial⟩

end Outcome

/-- The screen when its picture has been taken. -/
def Screen.unmarked (screen : Screen) : Screen := { screen with stale := false }

namespace Machine

open Outcome

variable {α : Type} {m : Machine}

/-- The machine with the mark on its screen taken away. -/
def unmarked (m : Machine) : Machine := { m with screen := m.screen.unmarked }

theorem unmarked_unmarked (m : Machine) : m.unmarked.unmarked = m.unmarked := rfl

/-! ## Instructions -/

/-- First something is read, and the mark is no part of it. -/
theorem blind_read {x : Machine → Except Failure α} {next : α → Machine → Result}
    (hx : ∀ m : Machine, x m.unmarked = x m) (hnext : ∀ a, Blind unmarked (next a)) :
    Blind unmarked fun m => .given m (x m) (next · m) :=
  blind_given unmarked_unmarked hx hnext

theorem register_unmarked (r : Int) (m : Machine) : m.unmarked.register r = m.register r := rfl

theorem setRegister_unmarked (r value : Int) (m : Machine) :
    m.unmarked.setRegister r value = (m.setRegister r value).map unmarked := by
  show ((m.registers.write r value).mapError Failure.bank >>= _)
    = ((m.registers.write r value).mapError Failure.bank >>= _).map unmarked
  cases m.registers.write r value <;> rfl

theorem poke_unmarked (address value : Int) (m : Machine) :
    m.unmarked.poke address value = (m.poke address value).map unmarked := by
  show ((m.memory.write _ value).mapError Failure.bank >>= _)
    = ((m.memory.write _ value).mapError Failure.bank >>= _).map unmarked
  cases m.memory.write (addressOf address) value <;> rfl

theorem blind_setRegister (r value : Int) :
    Blind unmarked fun m => (.change m (m.setRegister r value) : Result) :=
  blind_change unmarked_unmarked (setRegister_unmarked r value)

theorem blind_poke (address value : Int) :
    Blind unmarked fun m => (.change m (m.poke address value) : Result) :=
  blind_change unmarked_unmarked (poke_unmarked address value)

theorem blind_skipIf (condition : Bool) :
    Blind unmarked fun m => (.done (m.skipIf condition) : Result) :=
  blind_done fun _ => by cases condition <;> rfl

theorem blind_storeRegisters (n : Nat) : Blind unmarked (·.storeRegisters n) := by
  induction n with
  | zero => exact fun _ => rfl
  | succ k ih =>
      refine ih.andThen (blind_read (register_unmarked k) fun value => ?_)
      exact fun m => blind_poke (m.index + k) value m

theorem blind_loadRegisters (n : Nat) : Blind unmarked (·.loadRegisters n) := by
  induction n with
  | zero => exact fun _ => rfl
  | succ k ih =>
      exact ih.andThen (blind_read (fun _ => rfl) fun value => blind_setRegister k value)

/-! ### Drawing -/

/-- A machine with its mark taken away, and whether a pixel has been erased so far. -/
def unmarkedDrawn (drawn : Machine × Bool) : Machine × Bool := (drawn.1.unmarked, drawn.2)

/-- The first pixel that is toggled marks the screen, whether or not it was marked. -/
theorem toggleAll_unmarked (screen : Screen) (points : List (Int × Int)) :
    (screen.unmarked.toggleAll points).mapState (fun r => (r.1.unmarked, r.2))
      = (screen.toggleAll points).mapState (fun r => (r.1.unmarked, r.2)) := by
  cases points with
  | nil => rfl
  | cons p rest =>
      obtain ⟨x, y⟩ := p
      have htoggle : screen.unmarked.toggle x y = screen.toggle x y := rfl
      rw [Screen.toggleAll, Screen.toggleAll, htoggle]
      cases screen.toggle x y <;> rfl

theorem blind_drawRow (left top : Int) (row : Nat) :
    Blind unmarkedDrawn (drawRow left top row) := by
  rintro ⟨m, erased⟩
  have hpeek : m.unmarked.peek (m.unmarked.index + row) = m.peek (m.index + row) := rfl
  rw [unmarkedDrawn, drawRow, drawRow, hpeek]
  cases m.peek (m.index + row) with
  | error e => rfl
  | ok byte =>
      have htoggled := toggleAll_unmarked m.screen
        ((spriteColumns byte).map fun (column : Nat) => (left + column, top + row))
      obtain ⟨hscreen, hreports, hfailure⟩ := mapState_eq_iff.1 htoggled
      refine mapState_eq_iff.2 ⟨?_, hreports, congrArg (Option.map Failure.screen) hfailure⟩
      exact congrArg
        (fun r : Screen × Bool => (({ m with screen := r.1 } : Machine), erased || r.2)) hscreen

theorem blind_drawRows (left top : Int) (height : Nat) :
    Blind unmarkedDrawn (drawRows left top height) := by
  induction height with
  | zero => exact fun _ => rfl
  | succ k ih => exact ih.andThen (blind_drawRow left top k)

/-- Drawing sets the flag when the rows have been drawn. -/
theorem blind_draw (left top : Int) (height : Nat) : Blind unmarked fun m =>
    (((drawRows left top height (m, false)).andThen fun (m, erased) =>
      (Outcome.change m (m.setRegister flagRegister (flag erased))).mapState
        (·, erased)).mapState Prod.fst : Result) := by
  have hflag : Blind unmarkedDrawn fun drawn : Machine × Bool =>
      ((Outcome.change drawn.1 (drawn.1.setRegister flagRegister (flag drawn.2))).mapState
        (·, drawn.2) : Outcome Failure Log.Entry (Machine × Bool)) := by
    rintro ⟨m, erased⟩
    obtain ⟨hstate, hreports, hfailure⟩ :=
      mapState_eq_iff.1 (blind_setRegister flagRegister (flag erased) m)
    exact mapState_eq_iff.2 ⟨congrArg (·, erased) hstate, hreports, hfailure⟩
  intro m
  obtain ⟨hstate, hreports, hfailure⟩ :=
    mapState_eq_iff.1 ((blind_drawRows left top height).andThen hflag (m, false))
  exact mapState_eq_iff.2 ⟨congrArg Prod.fst hstate, hreports, hfailure⟩

/-! ### Operations -/

variable (i : Instruction)

theorem blind_onRegister {next : Nat → Machine → Result}
    (hnext : ∀ a, Blind unmarked (next a)) : Blind unmarked fun m => i.onRegister m (next · m) :=
  blind_read (register_unmarked i.x) hnext

theorem blind_onRegisters {next : Nat → Nat → Machine → Result}
    (hnext : ∀ a b, Blind unmarked (next a b)) :
    Blind unmarked fun m => i.onRegisters m (next · · m) :=
  blind_read (register_unmarked i.x) fun a => blind_read (register_unmarked i.y) (hnext a)

theorem blind_combine (result : Nat → Nat → Nat) : Blind unmarked (i.combine · result) :=
  blind_onRegisters i fun a b => blind_setRegister i.x (result a b)

theorem blind_withFlag (raised : Bool) (result : Int) :
    Blind unmarked (i.withFlag · raised result) :=
  (blind_setRegister flagRegister (flag raised)).andThen (blind_setRegister i.x result)

/-- **NO INSTRUCTION SEES THE MARK.** -/
theorem blind_apply : Blind unmarked i.apply := by
  obtain ⟨o, op⟩ := i
  let i : Instruction := ⟨o, op⟩
  cases o with
  | sys => exact fun _ => rfl
  | clear => exact fun _ => rfl
  | ret =>
      intro m
      obtain ⟨stack, hstack⟩ : ∃ stack, m.stack = stack := ⟨_, rfl⟩
      have hstack' : m.unmarked.stack = stack := hstack
      simp only [Instruction.apply, hstack, hstack']
      cases stack <;> rfl
  | jump => exact fun _ => rfl
  | call =>
      intro m
      have hstack : m.unmarked.stack = m.stack := rfl
      simp only [Instruction.apply, hstack]
      split <;> rfl
  | skipEqByte => exact blind_onRegister i fun a => blind_skipIf _
  | skipNeByte => exact blind_onRegister i fun a => blind_skipIf _
  | skipEqReg => exact blind_onRegisters i fun a b => blind_skipIf _
  | skipNeReg => exact blind_onRegisters i fun a b => blind_skipIf _
  | setByte => exact blind_setRegister _ _
  | addByte => exact blind_onRegister i fun a => blind_setRegister _ _
  | move => exact blind_read (register_unmarked i.y) fun b => blind_setRegister _ _
  | or => exact blind_combine i _
  | and => exact blind_combine i _
  | xor => exact blind_combine i _
  | add => exact blind_onRegisters i fun a b => blind_withFlag i _ _
  | sub => exact blind_onRegisters i fun a b => blind_withFlag i _ _
  | subn => exact blind_onRegisters i fun a b => blind_withFlag i _ _
  | shr => exact blind_onRegister i fun a => blind_withFlag i _ _
  | shl => exact blind_onRegister i fun a => blind_withFlag i _ _
  | setIndex => exact fun _ => rfl
  | jumpOffset => exact blind_read (register_unmarked 0) fun a => blind_done fun _ => rfl
  | random => exact fun m => blind_setRegister i.x _ { m with random := m.random.advance }
  | draw => exact blind_onRegisters i fun left top => blind_draw left top i.n
  | skipHeld => exact blind_onRegister i fun a m => blind_skipIf (m.keypad.isHeld a) m
  | skipNotHeld => exact blind_onRegister i fun a m => blind_skipIf (!m.keypad.isHeld a) m
  | readDelay => exact fun m => blind_setRegister i.x m.delay m
  | waitKey => exact fun _ => rfl
  | setDelay => exact blind_onRegister i fun a => blind_done fun _ => rfl
  | setSound => exact blind_onRegister i fun a => blind_done fun _ => rfl
  | addIndex => exact blind_onRegister i fun a => blind_done fun _ => rfl
  | glyph => exact blind_onRegister i fun a => blind_done fun _ => rfl
  | decimal =>
      refine blind_onRegister i fun value => ?_
      have hhundreds : Blind unmarked fun m =>
          (.change m (m.poke m.index (value / 100 : Nat)) : Result) :=
        fun m => blind_poke m.index _ m
      have htens : Blind unmarked fun m =>
          (.change m (m.poke (m.index + 1) (value / 10 % 10 : Nat)) : Result) :=
        fun m => blind_poke (m.index + 1) _ m
      exact (hhundreds.andThen htens).andThen fun m => blind_poke (m.index + 2) _ m
  | store => exact blind_storeRegisters (i.x + 1)
  | load => exact blind_loadRegisters (i.x + 1)

/-! ## Frames and keys -/

theorem blind_execute (op : Opcode) : Blind unmarked (·.execute op) := by
  intro m
  have hadvance : m.unmarked.advance = m.advance.unmarked := rfl
  rw [mapState_eq_iff]
  simp only [execute, hadvance]
  cases decode op with
  | none => exact ⟨rfl, rfl, rfl⟩
  | some i =>
      obtain ⟨hstate, hreports, hfailure⟩ := mapState_eq_iff.1 (blind_apply i m.advance)
      exact ⟨hstate, congrArg (_ :: ·) hreports, hfailure⟩

theorem blind_step : Outcome.Blind unmarked step := by
  intro m
  have hfetch : m.unmarked.fetch = m.fetch := rfl
  rw [mapState_eq_iff]
  simp only [step, hfetch]
  cases m.fetch with
  | error e => exact ⟨rfl, rfl, rfl⟩
  | ok op =>
      obtain ⟨hstate, hreports, hfailure⟩ := mapState_eq_iff.1 (blind_execute op m)
      simp only [hfailure]
      split
      · exact ⟨congrArg (fun m : Machine => { m with executed := m.executed + 1 }) hstate,
          hreports, rfl⟩
      · exact ⟨congrArg (fun m : Machine => { m with halted := true }) hstate,
          congrArg (· ++ _) hreports, rfl⟩
      · exact ⟨hstate, hreports, hfailure⟩

theorem blind_batch (n : Nat) : Outcome.Blind unmarked (batch n) := by
  induction n with
  | zero => exact fun _ => rfl
  | succ n ih =>
      have hstop : Outcome.Blind unmarked (.done : Machine → Outcome Failure Log.Entry Machine) :=
        fun _ => rfl
      exact hstop.ite (blind_step.andThen ih) fun _ => rfl

theorem blind_work : Outcome.Blind unmarked work := by
  have hstop : Outcome.Blind unmarked (.done : Machine → Outcome Failure Log.Entry Machine) :=
    fun _ => rfl
  have hbatch : Outcome.Blind unmarked fun m : Machine => batch m.speed.toNat m :=
    fun m => blind_batch m.speed.toNat m
  have htimers : Outcome.Blind unmarked fun m : Machine =>
      (.done (if m.paused then m else m.tickTimers) : Outcome Failure Log.Entry Machine) := by
    refine blind_done fun m => ?_
    show (if m.paused then m.unmarked else m.unmarked.tickTimers).unmarked = _
    cases m.paused <;> rfl
  exact hstop.ite (hbatch.andThen htimers) fun _ => rfl

/-- **NO FRAME SEES THE MARK.** -/
theorem blind_cycle : Outcome.Blind unmarked cycle := by
  have hwork : Outcome.Blind unmarked fun m : Machine => { m with cycles := m.cycles + 1 }.work :=
    fun m => blind_work { m with cycles := m.cycles + 1 }
  have hend : Outcome.Blind unmarked fun m : Machine =>
      (⟨m.present, [Report.command m.audio], none⟩ : Outcome Failure Report Machine) :=
    fun _ => rfl
  exact (hwork.mapReports fun e => [Report.entry e]).lastly hend

theorem blind_hear (e : KeyEvent) : Outcome.Blind unmarked (·.hear e) := by
  intro m
  cases e with
  | up k => rfl
  | down k =>
      have hwaiting : m.unmarked.waiting = m.waiting := rfl
      simp only [hear, hwaiting, setRegister_unmarked]
      cases m.waiting with
      | none => rfl
      | some r =>
          dsimp only
          cases m.setRegister r k.val <;> rfl

end Machine

end Chip8
