import Chip8.Machine.Execute
import Chip8.Proofs.Machine.WellFormed

/-! # What instructions do

    On a well-formed machine an instruction fails in two cases only, a call with the stack
    full and a return with it empty (**`stackFault?`**).  In all others it does what
    **`Instruction.effect`** says, a function without checks, and leaves the machine
    well-formed.

    * **`apply_eq`** is the equation between the checked and the unchecked instruction.
    * **`wellFormed_effect`** is the preservation of the invariant.
    * **`outside_effect`** says what no instruction reaches, and **`same_effect`** which
      parts of the machine (**`Operation.reach`**) an operation leaves alone. -/

namespace Chip8

open Machine

namespace Machine

/-- Two machines agree on what is the host's: the keys, the frame counters and the
    settings. -/
structure SameHost (m m' : Machine) : Prop where
  keypad : m'.keypad = m.keypad
  cycles : m'.cycles = m.cycles
  speed : m'.speed = m.speed
  toneHz : m'.toneHz = m.toneHz
  frames : m'.screen.frames = m.screen.frames

/-- Two machines agree on what no instruction reaches: what is the host's, the halt and the
    count of instructions. -/
structure SameOutside (m m' : Machine) : Prop extends SameHost m m' where
  halted : m'.halted = m.halted
  executed : m'.executed = m.executed

theorem SameHost.refl (m : Machine) : SameHost m m := ⟨rfl, rfl, rfl, rfl, rfl⟩

theorem SameHost.trans {m m' m'' : Machine} (h : SameHost m m') (h' : SameHost m' m'') :
    SameHost m m'' where
  keypad := h'.keypad.trans h.keypad
  cycles := h'.cycles.trans h.cycles
  speed := h'.speed.trans h.speed
  toneHz := h'.toneHz.trans h.toneHz
  frames := h'.frames.trans h.frames

theorem SameOutside.refl (m : Machine) : SameOutside m m := ⟨.refl m, rfl, rfl⟩

/-! ## The loops without checks -/

def spriteRow (m : Machine) (left top : Int) (row : Nat) : List (Int × Int) :=
  (spriteColumns (m.byteAt (m.index + row))).map fun (column : Nat) => (left + column, top + row)

def sprite (m : Machine) (left top : Int) : Nat → List (Int × Int)
  | 0     => []
  | h + 1 => m.sprite left top h ++ m.spriteRow left top h

def storing (m : Machine) : Nat → Bank
  | 0     => m.memory
  | k + 1 => (m.storing k).put (addressOf (m.index + k)).toNat (m.registers.get k)

def loading (m : Machine) : Nat → Bank
  | 0     => m.registers
  | k + 1 => (m.loading k).put k (m.byteAt (m.index + k))

variable {m : Machine}

theorem size_storing (m : Machine) (count : Nat) : (m.storing count).size = m.memory.size := by
  induction count with
  | zero => rfl
  | succ k ih => exact (Bank.size_put _ _ _).trans ih

theorem size_loading (m : Machine) (count : Nat) : (m.loading count).size = m.registers.size := by
  induction count with
  | zero => rfl
  | succ k ih => exact (Bank.size_put _ _ _).trans ih

namespace WellFormed

theorem storing (h : m.WellFormed) (count : Nat) :
    WellFormed { m with memory := m.storing count } :=
  { h with memory_size := (size_storing m count).trans h.memory_size }

theorem loading (h : m.WellFormed) (count : Nat) :
    WellFormed { m with registers := m.loading count } :=
  { h with registers_size := (size_loading m count).trans h.registers_size }

theorem drawRow_eq (h : m.WellFormed) (left top : Int) (row : Nat) (erased : Bool) :
    drawRow left top row (m, erased) =
      .done ({ m with screen := m.screen.flipAll (m.spriteRow left top row) },
        erased || m.screen.erases (m.spriteRow left top row)) := by
  rw [drawRow, h.peek_given]
  show ((m.screen.toggleAll (m.spriteRow left top row)).mapFailure Failure.screen).mapState
    (fun r => ({ m with screen := r.1 }, erased || r.2)) = _
  rw [h.screen_standard.bitmap.toggleAll_eq]
  rfl

/-- Drawing reads memory row by row, and changes none of it. -/
theorem drawRows_eq (h : m.WellFormed) (left top : Int) (height : Nat) :
    drawRows left top height (m, false) =
      .done ({ m with screen := m.screen.flipAll (m.sprite left top height) },
        m.screen.erases (m.sprite left top height)) := by
  induction height with
  | zero => rfl
  | succ k ih =>
      have hscreen := h.screen_standard.flipAll (m.sprite left top k)
      rw [drawRows, ih, Outcome.done_andThen, (h.withScreen hscreen).drawRow_eq, sprite,
        Screen.flipAll_append, Screen.erases_append]
      rfl

theorem storeRegisters_eq (h : m.WellFormed) {count : Nat} (hc : count ≤ registerCount) :
    m.storeRegisters count = .done { m with memory := m.storing count } := by
  induction count with
  | zero => rfl
  | succ k ih =>
      have hstored := h.storing k
      rw [storeRegisters, ih (by omega), Outcome.done_andThen, hstored.register_given (by omega)]
      exact hstored.poke_change _ (byte_range (Bank.get_lt _ _))

theorem loadRegisters_eq (h : m.WellFormed) {count : Nat} (hc : count ≤ registerCount) :
    m.loadRegisters count = .done { m with registers := m.loading count } := by
  induction count with
  | zero => rfl
  | succ k ih =>
      have hloaded := h.loading k
      rw [loadRegisters, ih (by omega), Outcome.done_andThen, hloaded.peek_given]
      exact hloaded.setRegister_change (by omega) (byte_range (byteAt_lt _ _))

end WellFormed

end Machine

/-! ## Parts -/

/-- A part of a machine that a program can change, the program counter apart. -/
inductive Part where
  | memory
  | registers
  | index
  | stack
  | delay
  | sound
  | screen
  /-- Whether the machine waits, and for which register. -/
  | wait
  | random
  deriving DecidableEq, Repr

namespace Part

/-- Two machines agree on a part. -/
def Same (m m' : Machine) : Part → Prop
  | .memory    => m'.memory = m.memory
  | .registers => m'.registers = m.registers
  | .index     => m'.index = m.index
  | .stack     => m'.stack = m.stack
  | .delay     => m'.delay = m.delay
  | .sound     => m'.sound = m.sound
  | .screen    => m'.screen = m.screen
  | .wait      => m'.paused = m.paused ∧ m'.waiting = m.waiting
  | .random    => m'.random = m.random

theorem Same.refl (m : Machine) (p : Part) : p.Same m m := by
  cases p <;> first | rfl | exact ⟨rfl, rfl⟩

end Part

/-- The parts that an operation reaches. -/
def Operation.reach : Operation → List Part
  | .sys | .jump | .jumpOffset                                        => []
  | .skipEqByte | .skipNeByte | .skipEqReg | .skipNeReg               => []
  | .skipHeld | .skipNotHeld                                          => []
  | .clear                                                            => [.screen]
  | .draw                                                             => [.screen, .registers]
  | .ret | .call                                                      => [.stack]
  | .setByte | .addByte | .move | .or | .and | .xor                   => [.registers]
  | .add | .sub | .shr | .subn | .shl | .readDelay | .load            => [.registers]
  | .random                                                           => [.registers, .random]
  | .setIndex | .addIndex | .glyph                                    => [.index]
  | .waitKey                                                          => [.wait]
  | .setDelay                                                         => [.delay]
  | .setSound                                                         => [.sound]
  | .decimal | .store                                                 => [.memory]

namespace Instruction

variable {m : Machine}

theorem x_lt (i : Instruction) : i.x < registerCount := i.opcode.x_lt

theorem y_lt (i : Instruction) : i.y < registerCount := i.opcode.y_lt

theorem kk_lt (i : Instruction) : i.kk < 256 := i.opcode.kk_lt

theorem nnn_range (i : Instruction) : 0 ≤ (i.nnn : Int) ∧ (i.nnn : Int) < memorySize :=
  ⟨Int.natCast_nonneg _, Int.ofNat_lt.2 i.opcode.nnn_lt⟩

/-! ## Effects -/

/-- A result that also sets the flag register, first. -/
def flagged (i : Instruction) (m : Machine) (raised : Bool) (result : Nat) : Machine :=
  (m.withRegister flagRegister raised.toNat).withRegister i.x result

/-- The effect of an instruction that does not fail, on a machine that has moved past it. -/
def effect (i : Instruction) (m : Machine) : Machine :=
  let a := m.registers.get i.x
  let b := m.registers.get i.y
  match i.operation with
  | .sys         => m
  | .clear       => { m with screen := m.screen.clear }
  | .ret         => { m with pc := m.stack.headD m.pc, stack := m.stack.tail }
  | .jump        => { m with pc := i.nnn }
  | .call        => { m with pc := i.nnn, stack := m.pc :: m.stack }
  | .skipEqByte  => m.skipIf (a == i.kk)
  | .skipNeByte  => m.skipIf (a != i.kk)
  | .skipEqReg   => m.skipIf (a == b)
  | .skipNeReg   => m.skipIf (a != b)
  | .setByte     => m.withRegister i.x i.kk
  | .addByte     => m.withRegister i.x ((a + i.kk) % 256)
  | .move        => m.withRegister i.x b
  | .or          => m.withRegister i.x (a ||| b)
  | .and         => m.withRegister i.x (a &&& b)
  | .xor         => m.withRegister i.x (a ^^^ b)
  | .add         => i.flagged m (255 < a + b) ((a + b) % 256)
  | .sub         => i.flagged m (b < a) ((256 + a - b) % 256)
  | .subn        => i.flagged m (a < b) ((256 + b - a) % 256)
  | .shr         => i.flagged m (a % 2 = 1) (a / 2)
  | .shl         => i.flagged m (128 ≤ a) (2 * a % 256)
  | .setIndex    => { m with index := i.nnn }
  | .jumpOffset  => { m with pc := addressOf (i.nnn + m.registers.get 0) }
  | .random      =>
      { m with random := m.random.advance }.withRegister i.x (m.random.next.toNat &&& i.kk)
  | .draw        =>
      let points := m.sprite a b i.n
      { m with screen := m.screen.flipAll points }.withRegister flagRegister
        (m.screen.erases points).toNat
  | .skipHeld    => m.skipIf (m.keypad.isHeld a)
  | .skipNotHeld => m.skipIf (!m.keypad.isHeld a)
  | .readDelay   => m.withRegister i.x m.delay.toNat
  | .waitKey     => { m with paused := true, waiting := some (i.x : Int) }
  | .setDelay    => { m with delay := a }
  | .setSound    => { m with sound := a }
  | .addIndex    => { m with index := (m.index + a) % 65536 }
  | .glyph       => { m with index := fontStart + a * glyphSize }
  | .decimal     => ((m.withByte m.index (a / 100)).withByte (m.index + 1) (a / 10 % 10)).withByte
      (m.index + 2) (a % 10)
  | .store       => { m with memory := m.storing (i.x + 1) }
  | .load        => { m with registers := m.loading (i.x + 1) }

/-- What an instruction reports that does not fail. -/
def notes (i : Instruction) : List Log.Entry :=
  match i.operation with
  | .clear   => Screen.clearNotes
  | .waitKey => [.awaiting i.x]
  | _        => []

/-- The reason for which an instruction fails on a well-formed machine, if it does. -/
def stackFault? (i : Instruction) (m : Machine) : Option Fault.Reason :=
  match i.operation with
  | .ret  => if m.stack = [] then some .stackUnderflow else none
  | .call => if stackDepth ≤ m.stack.length then some .stackOverflow else none
  | _     => none

theorem flag_range (raised : Bool) : 0 ≤ flag raised ∧ flag raised < 256 := by
  cases raised <;> decide

theorem toNat_flag (raised : Bool) : (flag raised).toNat = raised.toNat := by
  cases raised <;> rfl

/-- A result with a flag is written after the flag. -/
theorem withFlag_eq (h : m.WellFormed) (i : Instruction) (raised : Bool) {result : Int}
    {value : Nat} (hv : result = value) (hlt : value < 256) :
    i.withFlag m raised result = .done (i.flagged m raised value) := by
  have hflagged := h.withRegister flagRegister raised.toNat
  rw [withFlag, h.setRegister_change (by decide) (flag_range _), Outcome.done_andThen,
    toNat_flag, hv]
  exact hflagged.setRegister_change i.x_lt (by omega)

theorem onRegister_eq (h : m.WellFormed) (i : Instruction) (next : Nat → Result) :
    i.onRegister m next = next (m.registers.get i.x) :=
  h.register_given i.x_lt m next

theorem onRegisters_eq (h : m.WellFormed) (i : Instruction) (next : Nat → Nat → Result) :
    i.onRegisters m next = next (m.registers.get i.x) (m.registers.get i.y) :=
  (h.register_given i.x_lt m _).trans (h.register_given i.y_lt m _)

theorem combine_eq (h : m.WellFormed) (i : Instruction) {result : Nat → Nat → Nat}
    (hlt : result (m.registers.get i.x) (m.registers.get i.y) < 256) :
    i.combine m result
      = .done (m.withRegister i.x (result (m.registers.get i.x) (m.registers.get i.y))) := by
  rw [combine, onRegisters_eq h]
  exact h.setRegister_change i.x_lt (by omega)

/-- **INSTRUCTIONS ON A WELL-FORMED MACHINE**: a call and a return may find the stack full
    or empty, and have then changed nothing; nothing else can fail. -/
theorem apply_eq (h : m.WellFormed) (i : Instruction) :
    i.apply m = match i.stackFault? m with
      | some reason => .fail m (i.faultAt reason m)
      | none        => ⟨i.effect m, i.notes, none⟩ := by
  have ha : m.registers.get i.x < 256 := Bank.get_lt _ _
  have hb : m.registers.get i.y < 256 := Bank.get_lt _ _
  have hkk := i.kk_lt
  cases hop : i.operation <;>
    simp only [apply, effect, notes, stackFault?, hop, onRegister_eq h, onRegisters_eq h]
  case sys => rfl
  case ret =>
      cases m.stack with
      | nil => rfl
      | cons top rest => rfl
  case jump => rfl
  case call =>
      by_cases hfull : stackDepth ≤ m.stack.length
      · rw [if_pos hfull, if_pos hfull]
      · rw [if_neg hfull, if_neg hfull]
        rfl
  case skipEqByte => rfl
  case skipNeByte => rfl
  case skipEqReg => rfl
  case skipNeReg => rfl
  case setByte => exact h.setRegister_change i.x_lt (by omega)
  case addByte => exact h.setRegister_change i.x_lt (by omega)
  case move =>
      rw [h.register_given i.y_lt]
      exact h.setRegister_change i.x_lt (by omega)
  case or => exact combine_eq h i (Nat.or_lt_two_pow (n := 8) ha hb)
  case and => exact combine_eq h i (Nat.lt_of_le_of_lt Nat.and_le_left ha)
  case xor => exact combine_eq h i (Nat.xor_lt_two_pow (n := 8) ha hb)
  case add => exact withFlag_eq h i _ (by omega) (by omega)
  case sub => exact withFlag_eq h i _ (by omega) (by omega)
  case subn => exact withFlag_eq h i _ (by omega) (by omega)
  case shr => exact withFlag_eq h i _ rfl (by omega)
  case shl => exact withFlag_eq h i _ (by omega) (by omega)
  case setIndex => rfl
  case jumpOffset => exact h.register_given (r := 0) (by decide) _ _
  case random =>
      have hmask : m.random.next.toNat &&& i.kk < 256 := Nat.lt_of_le_of_lt Nat.and_le_right hkk
      exact (h.withRandom _).setRegister_change i.x_lt (byte_range hmask)
  case draw =>
      have hdrawn := h.withScreen (h.screen_standard.flipAll
        (m.sprite (m.registers.get i.x) (m.registers.get i.y) i.n))
      rw [h.drawRows_eq, Outcome.done_andThen, hdrawn.setRegister_change (by decide)
        (flag_range _), toNat_flag]
      rfl
  case skipHeld => rfl
  case skipNotHeld => rfl
  case readDelay => exact h.setRegister_change i.x_lt h.delay_range
  case setDelay => rfl
  case setSound => rfl
  case addIndex => rfl
  case glyph => rfl
  case decimal =>
      -- each digit is stored on a machine that the digits before it left well-formed
      have h₁ := h.withByte m.index (m.registers.get i.x / 100)
      have h₂ := h₁.withByte (m.index + 1) (m.registers.get i.x / 10 % 10)
      rw [h.poke_change _ (by omega), Outcome.done_andThen]
      refine (congrArg (Outcome.andThen · _) (h₁.poke_change _ (by omega))).trans ?_
      exact h₂.poke_change _ (by omega)
  case store => exact h.storeRegisters_eq i.x_lt
  case load => exact h.loadRegisters_eq i.x_lt

/-! ## The invariant -/

theorem wellFormed_flagged (h : m.WellFormed) (i : Instruction) (raised : Bool) (result : Nat) :
    (i.flagged m raised result).WellFormed :=
  (h.withRegister _ _).withRegister _ _

/-- **INSTRUCTIONS KEEP A MACHINE WELL-FORMED.** -/
theorem wellFormed_effect (h : m.WellFormed) (i : Instruction) (hs : i.stackFault? m = none) :
    (i.effect m).WellFormed := by
  have ha : m.registers.get i.x < 256 := Bank.get_lt _ _
  cases hop : i.operation <;> simp only [effect, stackFault?, hop] at hs ⊢
  case sys => exact h
  case clear => exact h.withScreen h.screen_standard.clear
  case ret =>
      -- the address is good because it was an address when it was put on the stack
      cases hstack : m.stack with
      | nil => simp only [hstack, if_true, reduceCtorEq] at hs
      | cons top rest =>
          have hlen : (top :: rest).length ≤ stackDepth := hstack ▸ h.stack_length
          have hrange := hstack ▸ h.stack_range
          exact { h with
            pc_range := hrange top List.mem_cons_self
            stack_length := Nat.le_of_succ_le hlen
            stack_range := fun a ha => hrange a (List.mem_cons_of_mem _ ha) }
  case jump => exact h.withPc i.nnn_range
  case call =>
      have hroom : ¬ stackDepth ≤ m.stack.length := by
        intro hfull
        simp only [hfull, if_true, reduceCtorEq] at hs
      exact { h with
        pc_range := i.nnn_range
        stack_length := Nat.lt_of_not_le hroom
        stack_range := List.forall_mem_cons.2 ⟨h.pc_range, h.stack_range⟩ }
  case skipEqByte => exact h.skipIf _
  case skipNeByte => exact h.skipIf _
  case skipEqReg => exact h.skipIf _
  case skipNeReg => exact h.skipIf _
  case setByte => exact h.withRegister _ _
  case addByte => exact h.withRegister _ _
  case move => exact h.withRegister _ _
  case or => exact h.withRegister _ _
  case and => exact h.withRegister _ _
  case xor => exact h.withRegister _ _
  case add => exact wellFormed_flagged h i _ _
  case sub => exact wellFormed_flagged h i _ _
  case subn => exact wellFormed_flagged h i _ _
  case shr => exact wellFormed_flagged h i _ _
  case shl => exact wellFormed_flagged h i _ _
  case setIndex =>
      have hnnn := i.opcode.nnn_lt
      exact h.withIndex ⟨Int.natCast_nonneg _, Int.ofNat_lt.2 (Nat.lt_trans hnnn (by decide))⟩
  case jumpOffset => exact h.withPc (addressOf_range _)
  case random => exact (h.withRandom _).withRegister _ _
  case draw => exact (h.withScreen (h.screen_standard.flipAll _)).withRegister _ _
  case skipHeld => exact h.skipIf _
  case skipNotHeld => exact h.skipIf _
  case readDelay => exact h.withRegister _ _
  case waitKey =>
      exact { h with
        paused_iff := ⟨fun _ => rfl, fun _ => rfl⟩
        waiting_range := by
          intro r hr
          obtain rfl : (i.x : Int) = r := Option.some.inj hr
          exact ⟨Int.natCast_nonneg _, Int.ofNat_lt.2 i.x_lt⟩ }
  case setDelay => exact { h with delay_range := byte_range ha }
  case setSound => exact { h with sound_range := byte_range ha }
  case addIndex =>
      exact h.withIndex ⟨Int.emod_nonneg _ (by decide), Int.emod_lt_of_pos _ (by decide)⟩
  case glyph =>
      have hglyph : fontStart + m.registers.get i.x * glyphSize < 65536 := by
        simp only [fontStart, glyphSize]
        omega
      exact h.withIndex ⟨Int.natCast_nonneg _, Int.ofNat_lt.2 hglyph⟩
  case decimal => exact ((h.withByte _ _).withByte _ _).withByte _ _
  case store => exact h.storing _
  case load => exact h.loading _

/-! ## What instructions leave alone -/

theorem outside_skipIf (m : Machine) (condition : Bool) : SameOutside m (m.skipIf condition) := by
  cases condition with
  | false => exact SameOutside.refl m
  | true => exact { SameOutside.refl m with }

theorem outside_effect (i : Instruction) (m : Machine) : SameOutside m (i.effect m) := by
  cases hop : i.operation <;> simp only [effect, hop]
  case skipEqByte => exact outside_skipIf m _
  case skipNeByte => exact outside_skipIf m _
  case skipEqReg => exact outside_skipIf m _
  case skipNeReg => exact outside_skipIf m _
  case skipHeld => exact outside_skipIf m _
  case skipNotHeld => exact outside_skipIf m _
  case draw => exact { SameOutside.refl m with frames := Screen.frames_flipAll _ _ }
  all_goals exact { SameOutside.refl m with }

theorem same_skipIf (m : Machine) (condition : Bool) (p : Part) :
    p.Same m (m.skipIf condition) := by
  cases condition with
  | false => exact Part.Same.refl m p
  | true => cases p <;> first | rfl | exact ⟨rfl, rfl⟩

/-- **OPERATIONS LEAVE ALONE WHAT THEY DO NOT REACH.** -/
theorem same_effect (i : Instruction) (m : Machine) {p : Part} (hp : p ∉ i.operation.reach) :
    p.Same m (i.effect m) := by
  cases hop : i.operation <;> rw [hop] at hp <;> simp only [effect, hop]
  case skipEqByte => exact same_skipIf m _ p
  case skipNeByte => exact same_skipIf m _ p
  case skipEqReg => exact same_skipIf m _ p
  case skipNeReg => exact same_skipIf m _ p
  case skipHeld => exact same_skipIf m _ p
  case skipNotHeld => exact same_skipIf m _ p
  all_goals
    cases p <;> first
      | rfl
      | exact ⟨rfl, rfl⟩
      | exact absurd (by decide) hp

theorem waiting_effect (i : Instruction) (m : Machine) (hi : i.operation ≠ .waitKey) :
    (i.effect m).paused = m.paused ∧ (i.effect m).waiting = m.waiting := by
  have hreach : .wait ∉ i.operation.reach := by
    cases hop : i.operation <;> first | decide | contradiction
  exact same_effect i m hreach

end Instruction

end Chip8
