import Chip8.Proofs.Machine.Reach

/-! # Arithmetic with a flag

    The instructions that add, subtract and shift read both operands before they write anything,
    and write the flag before the result.  So the result is the same whichever registers
    coincide, an operand in the flag register is read before the flag is set, and a result that
    goes to the flag register replaces the flag (**`get_flagged`**).

    **`Calculates`** says what is left behind by an instruction with a result and a flag,
    **`Adds`** what an addition does to the registers alone.  Three additions, the second of
    which adds the carry of the first, are an addition of sixteen bits (**`Adds.wide`**).

    **`flag_arithmetic`** is the whole table, with every coincidence of registers. -/

namespace Chip8.Machine

open Instruction

variable {m : Machine} {op : Opcode} {i : Instruction}

/-! ## Results and flags -/

theorem flagRegister_lt : flagRegister < registerCount := by decide

/-- Registers after a result that also sets the flag register. -/
theorem get_flagged (h : m.WellFormed) (i : Instruction) (raised : Bool) {result : Nat}
    (hlt : result < 256) (r : Nat) :
    (i.flagged m raised result).registers.get r =
      if r = i.x then result else if r = flagRegister then raised.toNat
      else m.registers.get r := by
  have hflag : flagRegister < m.registers.size := by
    rw [h.registers_size]
    exact flagRegister_lt
  have hx : i.x < (m.registers.put flagRegister raised.toNat).size := by
    rw [Bank.size_put, h.registers_size]
    exact i.x_lt
  have hbit : raised.toNat % 256 = raised.toNat := by
    cases raised <;> rfl
  show ((m.registers.put flagRegister raised.toNat).put i.x result).get r = _
  rw [Bank.get_put _ hx, Bank.get_put _ hflag, Nat.mod_eq_of_lt hlt, hbit]

/-- What an instruction with a result and a flag leaves behind: the result in register `x`, the
    flag in the flag register unless that is where the result went, and everything else as it
    was but for the program counter. -/
structure Calculates (m : Machine) (x : Nat) (result flag : Int)
    (o : Outcome Failure Log.Entry Machine) : Prop where
  success : o.failure = none
  result : (o.state.registers.get x : Int) = result
  flag : x ≠ flagRegister → (o.state.registers.get flagRegister : Int) = flag
  others : ∀ r, r ≠ x → r ≠ flagRegister → o.state.registers.get r = m.registers.get r
  rest : o.state = { m with
    pc := addressOf (m.pc + 2)
    registers := o.state.registers }

/-- Words whose instruction ends with a result and a flag. -/
theorem calculates_flagged (h : m.WellFormed) (hdec : decode op = some i)
    (hs : i.stackFault? m = none) {raised : Prop} [Decidable raised] (result : Nat) {value : Int}
    (heffect : i.effect m.advance = i.flagged m.advance (decide raised) result)
    (hlt : result < 256) (hvalue : (result : Int) = value) :
    Calculates m op.x value (if raised then 1 else 0) (m.execute op) := by
  have hx : op.x = i.x := congrArg Opcode.x (opcode_of_decode hdec).symm
  have hget := get_flagged h.advance i (decide raised) hlt
  rw [execute_of_decode h hdec hs, heffect, hx]
  refine ⟨rfl, ?_, ?_, ?_, rfl⟩
  · rw [hget, if_pos rfl, hvalue]
  · intro hne
    rw [hget, if_neg hne.symm, if_pos rfl]
    by_cases hraised : raised <;> simp [hraised]
  · intro r hrx hrf
    rw [hget, if_neg hrx, if_neg hrf]
    rfl

theorem calculates_add (h : m.WellFormed) (hfits : op.fits (.ends 0x8 0x4)) :
    let a := m.registers.get op.x
    let b := m.registers.get op.y
    Calculates m op.x ((a + b) % 256) (if 255 < a + b then 1 else 0) (m.execute op) := by
  intro a b
  have hdec : decode op = some ⟨.add, op⟩ := decode_of_fits (by decide) (by decide) hfits
  exact calculates_flagged h hdec rfl ((a + b) % 256) rfl (Nat.mod_lt _ (by decide)) (by omega)

/-- Adding a byte has a result, and keeps the flag. -/
theorem calculates_addByte (h : m.WellFormed) (hfits : op.fits (.top 0x7)) :
    Calculates m op.x ((m.registers.get op.x + op.kk) % 256) (m.registers.get flagRegister)
      (m.execute op) := by
  have hdec : decode op = some ⟨.addByte, op⟩ := decode_of_fits (by decide) (by decide) hfits
  have hx : op.x < m.registers.size := by
    rw [h.registers_size]
    exact op.x_lt
  rw [execute_of_decode h hdec rfl]
  refine ⟨rfl, ?_, ?_, ?_, rfl⟩
  · show (((m.registers.put op.x ((m.registers.get op.x + op.kk) % 256)).get op.x : Nat) : Int) = _
    rw [Bank.get_put _ hx, if_pos rfl]
    omega
  · intro hne
    exact congrArg Int.ofNat (get_withRegister_of_ne (m := m.advance) hne.symm _)
  · intro r hrx _
    exact get_withRegister_of_ne (m := m.advance) hrx _

/-! ## Addition of sixteen bits -/

/-- What adding register `y` to register `x` does to the registers, when the carry does not go
    to the register of the result. -/
structure Adds (x y : Nat) (m m' : Machine) : Prop where
  sum : m'.registers.get x = (m.registers.get x + m.registers.get y) % 256
  carry : m'.registers.get flagRegister = (m.registers.get x + m.registers.get y) / 256
  others : ∀ r, r ≠ x → r ≠ flagRegister → m'.registers.get r = m.registers.get r

/-- The number whose high byte is in one register and whose low byte is in another. -/
def pair (m : Machine) (hi lo : Nat) : Nat := 256 * m.registers.get hi + m.registers.get lo

/-- **THREE ADDITIONS ARE ONE OF SIXTEEN BITS**: of the low bytes, of the carry to a high byte,
    and of the high bytes. -/
theorem Adds.wide {lo₁ hi₁ lo₂ hi₂ : Nat} {m m₁ m₂ m₃ : Machine}
    (hdistinct : [lo₁, hi₁, lo₂, hi₂, flagRegister].Nodup) (hlow : Adds lo₁ lo₂ m m₁)
    (hcarry : Adds hi₁ flagRegister m₁ m₂) (hhigh : Adds hi₁ hi₂ m₂ m₃) :
    m₃.pair hi₁ lo₁ = (m.pair hi₁ lo₁ + m.pair hi₂ lo₂) % 65536 := by
  simp only [List.nodup_cons, List.mem_cons, List.not_mem_nil, or_false, not_or] at hdistinct
  obtain ⟨⟨hlh, _, hlh₂, hlf⟩, ⟨_, hhh₂, hhf⟩, _, hh₂f, _⟩ := hdistinct
  -- the low byte is done after the first addition, and the high bytes wait for the third
  have hlow₃ : m₃.registers.get lo₁ = m₁.registers.get lo₁ :=
    (hhigh.others lo₁ hlh hlf).trans (hcarry.others lo₁ hlh hlf)
  have hhi₁ : m₁.registers.get hi₁ = m.registers.get hi₁ := hlow.others hi₁ (Ne.symm hlh) hhf
  have hhi₂ : m₂.registers.get hi₂ = m.registers.get hi₂ :=
    (hcarry.others hi₂ (Ne.symm hhh₂) hh₂f).trans (hlow.others hi₂ (Ne.symm hlh₂) hh₂f)
  rw [pair, pair, pair, hhigh.sum, hcarry.sum, hhi₁, hhi₂, hlow₃, hlow.sum, hlow.carry]
  omega

/-- The word that adds register `y` to register `x`. -/
def addition (x y : Nat) : Opcode := (0x8004 + 256 * x + 16 * y : Nat)

variable {x y : Nat}

theorem fields_addition (hx : x < registerCount) (hy : y < registerCount) :
    (addition x y).fits (.ends 0x8 0x4) ∧ (addition x y).x = x ∧ (addition x y).y = y := by
  simp only [registerCount] at hx hy
  have hword : (addition x y).word = 0x8004 + 256 * x + 16 * y := by
    show (((0x8004 + 256 * x + 16 * y : Nat) : Int) % 65536).toNat = _
    omega
  rw [Opcode.fits_ends, Opcode.family, Opcode.n, Opcode.x, Opcode.y, hword]
  omega

theorem adds_execute (h : m.WellFormed) (hx : x < registerCount) (hy : y < registerCount)
    (hne : x ≠ flagRegister) :
    (m.execute (addition x y)).failure = none ∧ Adds x y m (m.execute (addition x y)).state := by
  obtain ⟨hfits, hopx, hopy⟩ := fields_addition hx hy
  have hcalc := calculates_add h hfits
  rw [hopx, hopy] at hcalc
  have ha : m.registers.get x < 256 := Bank.get_lt _ _
  have hb : m.registers.get y < 256 := Bank.get_lt _ _
  refine ⟨hcalc.success, ?_, ?_, hcalc.others⟩
  · have hsum := hcalc.result
    omega
  · have hcarry := hcalc.flag hne
    split at hcarry <;> omega

/-- A step through the word of an addition adds, and goes on to the next word. -/
theorem adds_step (h : m.WellFormed) (hx : x < registerCount) (hy : y < registerCount)
    (hne : x ≠ flagRegister) (hword : m.word = addition x y) :
    (m.step.failure = none ∧ Adds x y m m.step.state) ∧
      m.step.state.memory = m.memory ∧ m.step.state.pc = m.advance.pc := by
  obtain ⟨hfits, _, _⟩ := fields_addition hx hy
  obtain ⟨_, hadds⟩ := adds_execute h hx hy hne
  have hdec : decode m.word = some ⟨.add, m.word⟩ :=
    decode_of_fits (by decide) (by decide) (hword ▸ hfits)
  have hrest := (calculates_add h (hword ▸ hfits)).rest
  refine ⟨⟨?_, ?_⟩, ?_, ?_⟩
  · rw [step_of_decode h hdec rfl]
  · rw [step_execute h, hword]
    exact { hadds with }
  · rw [step_execute h, hrest]
  · rw [step_execute h, hrest]
    rfl

variable {lo₁ hi₁ lo₂ hi₂ : Nat}

theorem ne_flagRegister (hdistinct : [lo₁, hi₁, lo₂, hi₂, flagRegister].Nodup) :
    lo₁ ≠ flagRegister ∧ hi₁ ≠ flagRegister := by
  refine ⟨fun heq => ?_, fun heq => ?_⟩
  · simp [heq] at hdistinct
  · simp [heq] at hdistinct

/-- Operations in sequence, each of which adds. -/
theorem Adds.wide_andThen {o : Outcome Failure Log.Entry Machine}
    {second third : Machine → Outcome Failure Log.Entry Machine}
    (hdistinct : [lo₁, hi₁, lo₂, hi₂, flagRegister].Nodup)
    (hlow : o.failure = none ∧ Adds lo₁ lo₂ m o.state)
    (hcarry : (second o.state).failure = none ∧
      Adds hi₁ flagRegister o.state (second o.state).state)
    (hhigh : (third (second o.state).state).failure = none ∧
      Adds hi₁ hi₂ (second o.state).state (third (second o.state).state).state) :
    ((o.andThen second).andThen third).failure = none ∧
      ((o.andThen second).andThen third).state.pair hi₁ lo₁
        = (m.pair hi₁ lo₁ + m.pair hi₂ lo₂) % 65536 := by
  rw [Outcome.andThen_assoc, Outcome.andThen_of_success hlow.1,
    Outcome.andThen_of_success hcarry.1]
  exact ⟨hhigh.1, Adds.wide hdistinct hlow.2 hcarry.2 hhigh.2⟩

/-- Additions in sequence, carried out one by one. -/
theorem execute_wide (h : m.WellFormed) (hrange : ∀ r ∈ [lo₁, hi₁, lo₂, hi₂], r < registerCount)
    (hdistinct : [lo₁, hi₁, lo₂, hi₂, flagRegister].Nodup) :
    let o := ((m.execute (addition lo₁ lo₂)).andThen
      (execute · (addition hi₁ flagRegister))).andThen (execute · (addition hi₁ hi₂))
    o.failure = none ∧ o.state.pair hi₁ lo₁ = (m.pair hi₁ lo₁ + m.pair hi₂ lo₂) % 65536 := by
  obtain ⟨hlf, hhf⟩ := ne_flagRegister hdistinct
  have hhi₁ : hi₁ < registerCount := hrange hi₁ (by simp)
  have h₁ := wellFormed_execute h (addition lo₁ lo₂)
  have h₂ := wellFormed_execute h₁ (addition hi₁ flagRegister)
  refine Adds.wide_andThen hdistinct ?_ ?_ ?_
  · exact adds_execute h (hrange lo₁ (by simp)) (hrange lo₂ (by simp)) hlf
  · exact adds_execute h₁ hhi₁ flagRegister_lt hhf
  · exact adds_execute h₂ hhi₁ (hrange hi₂ (by simp)) hhf

/-- Additions in sequence, fetched from memory. -/
theorem steps_wide (h : m.WellFormed) (hrange : ∀ r ∈ [lo₁, hi₁, lo₂, hi₂], r < registerCount)
    (hdistinct : [lo₁, hi₁, lo₂, hi₂, flagRegister].Nodup) (hlow : m.word = addition lo₁ lo₂)
    (hcarry : m.advance.word = addition hi₁ flagRegister)
    (hhigh : m.advance.advance.word = addition hi₁ hi₂) :
    let o := (m.step.andThen step).andThen step
    o.failure = none ∧ o.state.pair hi₁ lo₁ = (m.pair hi₁ lo₁ + m.pair hi₂ lo₂) % 65536 := by
  obtain ⟨hlf, hhf⟩ := ne_flagRegister hdistinct
  have hhi₁ : hi₁ < registerCount := hrange hi₁ (by simp)
  have h₁ := wellFormed_step h
  have h₂ := wellFormed_step h₁
  obtain ⟨hfirst, hmem₁, hpc₁⟩ :=
    adds_step h (hrange lo₁ (by simp)) (hrange lo₂ (by simp)) hlf hlow
  -- an addition changes no word, so the next one is there when it is fetched
  have hword₁ : m.step.state.word = addition hi₁ flagRegister :=
    (word_congr (m := m.advance) hmem₁ hpc₁).trans hcarry
  obtain ⟨hsecond, hmem₂, hpc₂⟩ := adds_step h₁ hhi₁ flagRegister_lt hhf hword₁
  have hword₂ : m.step.state.step.state.word = addition hi₁ hi₂ := by
    have hpc : m.step.state.step.state.pc = m.advance.advance.pc := by
      rw [hpc₂, advance, hpc₁]
      rfl
    exact (word_congr (m := m.advance.advance) (hmem₂.trans hmem₁) hpc).trans hhigh
  obtain ⟨hthird, _, _⟩ := adds_step h₂ hhi₁ (hrange hi₂ (by simp)) hhf hword₂
  exact Adds.wide_andThen hdistinct hfirst hsecond hthird

/-! ## The table -/

/-- **ARITHMETIC IS EXACT, WHICHEVER REGISTERS COINCIDE.**  On a well-formed machine, with `a`
    and `b` the values of the two registers that a word names:

    * `8xy4`, `8xy5`, `8xy6`, `8xy7` and `8xyE` leave in register `x` the sum, the difference,
      the half, the difference the other way round and the double, and in the flag register,
      unless it is `x`, whether it carried, whether it did not borrow, or the bit shifted out;
      `7xkk` adds a byte and keeps the flag;
    * nothing else changes but the program counter, which goes on by one word;
    * to add the low bytes, the carry and the high bytes of two numbers is an addition of
      sixteen bits, whether the three words are carried out one by one or fetched. -/
theorem flag_arithmetic (h : m.WellFormed) :
    (∀ op : Opcode,
      let a := m.registers.get op.x
      let b := m.registers.get op.y
      let o := m.execute op
      (op.fits (.ends 0x8 0x4) →
        Calculates m op.x ((a + b) % 256) (if 255 < a + b then 1 else 0) o) ∧
      (op.fits (.ends 0x8 0x5) →
        Calculates m op.x ((a - b) % 256) (if b < a then 1 else 0) o) ∧
      (op.fits (.ends 0x8 0x6) → Calculates m op.x (a / 2) (a % 2) o) ∧
      (op.fits (.ends 0x8 0x7) →
        Calculates m op.x ((b - a) % 256) (if a < b then 1 else 0) o) ∧
      (op.fits (.ends 0x8 0xE) →
        Calculates m op.x (2 * a % 256) (if 128 ≤ a then 1 else 0) o) ∧
      (op.fits (.top 0x7) →
        Calculates m op.x ((a + op.kk) % 256) (m.registers.get flagRegister) o)) ∧
    ∀ lo₁ hi₁ lo₂ hi₂ : Nat, (∀ r ∈ [lo₁, hi₁, lo₂, hi₂], r < registerCount) →
      [lo₁, hi₁, lo₂, hi₂, flagRegister].Nodup →
      let sum := (m.pair hi₁ lo₁ + m.pair hi₂ lo₂) % 65536
      let executed := ((m.execute (addition lo₁ lo₂)).andThen
        (execute · (addition hi₁ flagRegister))).andThen (execute · (addition hi₁ hi₂))
      let fetched := (m.step.andThen step).andThen step
      (executed.failure = none ∧ executed.state.pair hi₁ lo₁ = sum) ∧
      (m.word = addition lo₁ lo₂ → m.advance.word = addition hi₁ flagRegister →
        m.advance.advance.word = addition hi₁ hi₂ →
        fetched.failure = none ∧ fetched.state.pair hi₁ lo₁ = sum) := by
  refine ⟨?_, ?_⟩
  · intro op a b o
    have ha : a < 256 := Bank.get_lt _ _
    have hb : b < 256 := Bank.get_lt _ _
    refine ⟨calculates_add h, ?_, ?_, ?_, ?_, calculates_addByte h⟩
    · intro hfits
      have hdec := decode_of_fits (o := .sub) (by decide) (by decide) hfits
      exact calculates_flagged h hdec rfl ((256 + a - b) % 256) rfl (by omega) (by omega)
    · intro hfits
      have hdec := decode_of_fits (o := .shr) (by decide) (by decide) hfits
      have hbit : (a % 2 : Int) = if a % 2 = 1 then 1 else 0 := by
        split <;> omega
      rw [hbit]
      exact calculates_flagged h hdec rfl (a / 2) rfl (by omega) (by omega)
    · intro hfits
      have hdec := decode_of_fits (o := .subn) (by decide) (by decide) hfits
      exact calculates_flagged h hdec rfl ((256 + b - a) % 256) rfl (by omega) (by omega)
    · intro hfits
      have hdec := decode_of_fits (o := .shl) (by decide) (by decide) hfits
      exact calculates_flagged h hdec rfl (2 * a % 256) rfl (by omega) (by omega)
  · intro lo₁ hi₁ lo₂ hi₂ hrange hdistinct
    exact ⟨execute_wide h hrange hdistinct, steps_wide h hrange hdistinct⟩

/-- The flag register doubled is not its carry, subtracted from itself it is zero, and
    `0x12FF + 0x3402` carries. -/
theorem arithmetic_of_coinciding_registers :
    let m := ((((fresh 10 440 (.cycling [])).withRegister 1 0xFF).withRegister 2 0x12).withRegister
      3 0x02).withRegister 4 0x34
    let m' := m.withRegister flagRegister 200
    m'.WellFormed ∧ (m'.execute 0x8FF4).state.registers.get flagRegister = 144 ∧
      (m'.execute 0x8FF5).state.registers.get flagRegister = 0 ∧
      (m'.execute 0x81F5).state.registers.get flagRegister = 1 ∧
      (((m.execute (addition 1 3)).andThen (execute · (addition 2 flagRegister))).andThen
        (execute · (addition 2 4))).state.pair 2 1 = 0x4701 := by
  intro m m'
  have h : m.WellFormed :=
    ((((wellFormed_fresh 10 440 (.cycling [])).withRegister _ _).withRegister _ _).withRegister
      _ _).withRegister _ _
  have h' : m'.WellFormed := h.withRegister _ _
  obtain ⟨hadd, _⟩ := (flag_arithmetic h').1 0x8FF4
  obtain ⟨_, hself, _⟩ := (flag_arithmetic h').1 0x8FF5
  obtain ⟨_, hsub, _⟩ := (flag_arithmetic h').1 0x81F5
  obtain ⟨⟨_, hwide⟩, _⟩ := (flag_arithmetic h).2 1 2 3 4 (by decide) (by decide)
  refine ⟨h', ?_, ?_, ?_, ?_⟩
  · exact Int.ofNat.inj ((hadd (by decide)).result.trans (by decide))
  · exact Int.ofNat.inj ((hself (by decide)).result.trans (by decide))
  · exact Int.ofNat.inj (((hsub (by decide)).flag (by decide)).trans (by decide))
  · exact hwide.trans (by decide)

end Chip8.Machine
