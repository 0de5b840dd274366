import Mathlib.Data.Int.Bitwise
import Mathlib.Data.List.Perm.Basic
import Chip8.Proofs.Instruction.Shapes

/-! # The instruction set as a table of masks

    The nibbles that a shape fixes can be kept by a mask, and an opcode has the shape exactly
    if the mask leaves of it the pattern of the shape (**`accepts_eq_matchedBy`**), however many
    bits it has and whatever its sign: masking a negative number is masking its two's
    complement.  **`scan`** reads a table of rows in that way, the first row that matches wins.

    Which rows match an opcode is known exactly (**`matching_cases`**): one, but for the two
    whole words that also match `sys`.  So a table may list its rows in any order that keeps
    those two above it (**`scan_reordered`**). -/

namespace Chip8

namespace Shape

/-- The nibbles that a shape fixes. -/
def mask : Shape → Nat
  | .whole _  => 0xFFFF
  | .top _    => 0xF000
  | .ends _ _ => 0xF00F
  | .tail _ _ => 0xF0FF

/-- What the mask leaves of the words that have the shape. -/
def pattern : Shape → Nat
  | .whole w   => w
  | .top a     => 4096 * a
  | .ends a d  => 4096 * a + d
  | .tail a kk => 4096 * a + kk

/-- The nibble or the byte that a shape fixes below the top is no more than that. -/
def Narrow : Shape → Prop
  | .whole _   => True
  | .top _     => True
  | .ends _ d  => d < 16
  | .tail _ kk => kk < 256

instance (s : Shape) : Decidable s.Narrow := by
  cases s <;> unfold Narrow <;> infer_instance

end Shape

/-- Whether an opcode matches a row, by the mask and the pattern of its shape. -/
def Row.matchedBy (row : Row) (op : Opcode) : Bool :=
  Int.land op row.shape.mask == row.shape.pattern

/-- The instruction that an opcode encodes by the first row of a table that it matches. -/
def scan (rows : List Row) (op : Opcode) : Option Instruction :=
  (rows.find? (·.matchedBy op)).map fun row => ⟨row.operation, op⟩

/-! ## Masking words -/

/-- A mask below 2¹⁶ sees only the word of an opcode. -/
theorem land_eq_word (op : Opcode) {mask : Nat} (hmask : mask < 2 ^ 16) :
    Int.land op mask = (op.word &&& mask : Nat) := by
  cases op with
  | ofNat n =>
      have hword : Opcode.word (Int.ofNat n) = n % 2 ^ 16 := by
        simp only [Opcode.word, Int.ofNat_eq_natCast]
        omega
      have hsmall : n &&& mask < 2 ^ 16 := Nat.lt_of_le_of_lt Nat.and_le_right hmask
      show ((n &&& mask : Nat) : Int) = _
      rw [hword, ← Nat.mod_eq_of_lt hsmall, Nat.and_mod_two_pow, Nat.mod_eq_of_lt hmask]
  | negSucc n =>
      have hword : Opcode.word (Int.negSucc n) = 2 ^ 16 - (n % 2 ^ 16 + 1) := by
        simp only [Opcode.word]
        omega
      have hlt : n % 2 ^ 16 < 2 ^ 16 := Nat.mod_lt _ (Nat.two_pow_pos 16)
      show ((Nat.ldiff mask n : Nat) : Int) = _
      rw [hword]
      refine congrArg Int.ofNat (Nat.eq_of_testBit_eq fun i => ?_)
      rw [Nat.testBit_ldiff, Nat.testBit_and, Nat.testBit_two_pow_sub_succ hlt,
        Nat.testBit_mod_two_pow]
      by_cases hi : i < 16
      · simp only [hi, decide_true, Bool.true_and, Bool.and_comm]
      · have hhigh : mask.testBit i = false := by
          refine Nat.testBit_lt_two_pow (Nat.lt_of_lt_of_le hmask ?_)
          exact Nat.pow_le_pow_right (by decide) (Nat.le_of_not_lt hi)
        simp only [hhigh, Bool.false_and, Bool.and_false]

/-- What is left of a word by a mask that keeps its top nibble and some of the low bits. -/
theorem and_top_mask {w : Nat} (hw : w < 2 ^ 16) (bits : Nat) (hbits : bits ≤ 12) :
    w &&& (0xF000 + (2 ^ bits - 1)) = 4096 * (w / 4096) + w % 2 ^ bits := by
  have hlow : 2 ^ bits - 1 < 2 ^ 12 := by
    have hle : 2 ^ bits ≤ 2 ^ 12 := Nat.pow_le_pow_right (by decide) hbits
    omega
  have htop : (0xF000 + (2 ^ bits - 1)) / 2 ^ 12 = 2 ^ 4 - 1 := by omega
  have hrest : (0xF000 + (2 ^ bits - 1)) % 2 ^ 12 = 2 ^ bits - 1 := by omega
  have hnibble : w / 2 ^ 12 % 2 ^ 4 = w / 2 ^ 12 := Nat.mod_eq_of_lt (by omega)
  have hbelow : w % 2 ^ 12 % 2 ^ bits = w % 2 ^ bits :=
    Nat.mod_mod_of_dvd w (Nat.pow_dvd_pow 2 hbits)
  calc w &&& (0xF000 + (2 ^ bits - 1))
      = 2 ^ 12 * ((w &&& (0xF000 + (2 ^ bits - 1))) / 2 ^ 12)
          + (w &&& (0xF000 + (2 ^ bits - 1))) % 2 ^ 12 := (Nat.div_add_mod _ _).symm
    _ = 2 ^ 12 * (w / 2 ^ 12) + w % 2 ^ bits := by
        rw [Nat.and_div_two_pow, Nat.and_mod_two_pow, htop, hrest,
          Nat.and_two_pow_sub_one_eq_mod, Nat.and_two_pow_sub_one_eq_mod, hnibble, hbelow]

/-- What the mask of a shape keeps of an opcode. -/
def Shape.kept (op : Opcode) : Shape → Nat
  | .whole _  => op.word
  | .top _    => 4096 * op.family
  | .ends _ _ => 4096 * op.family + op.n
  | .tail _ _ => 4096 * op.family + op.kk

theorem land_mask (op : Opcode) (s : Shape) : Int.land op s.mask = s.kept op := by
  have hw : op.word < 2 ^ 16 := op.word_lt
  have hmask : s.mask < 2 ^ 16 := by
    cases s <;> simp only [Shape.mask] <;> decide
  rw [land_eq_word op hmask]
  refine congrArg Int.ofNat ?_
  cases s with
  | whole w => exact (and_top_mask hw 12 (by decide)).trans (Nat.div_add_mod _ _)
  | top a => exact (and_top_mask hw 0 (by decide)).trans (congrArg (_ + ·) (Nat.mod_one _))
  | ends a d => exact and_top_mask hw 4 (by decide)
  | tail a kk => exact and_top_mask hw 8 (by decide)

/-- **SHAPES ARE MASKS.** -/
theorem accepts_eq_matchedBy {row : Row} (hrow : row.shape.Narrow) (op : Opcode) :
    row.shape.accepts op = row.matchedBy op := by
  have hn := op.n_lt
  have hkk := op.kk_lt
  obtain ⟨o, s⟩ := row
  rw [Bool.eq_iff_iff, Row.matchedBy, land_mask, beq_iff_eq, Int.natCast_inj]
  cases s with
  | whole w => exact Opcode.fits_whole
  | top a =>
      refine Opcode.fits_top.trans ?_
      simp only [Shape.kept, Shape.pattern]
      omega
  | ends a d =>
      have hd : d < 16 := hrow
      refine Opcode.fits_ends.trans ?_
      simp only [Shape.kept, Shape.pattern]
      omega
  | tail a kk =>
      have hbyte : kk < 256 := hrow
      refine Opcode.fits_tail.trans ?_
      simp only [Shape.kept, Shape.pattern]
      omega

/-! ## Rows that an opcode matches -/

variable {op op' : Opcode} {i : Instruction} {row : Row}

theorem narrow_of_mem (hrow : row ∈ instructionSet) : row.shape.Narrow := by
  have hall : ∀ row ∈ instructionSet, row.shape.Narrow := by decide
  exact hall row hrow

/-- Only the word of an opcode decides which shapes it has. -/
theorem accepts_congr (hword : op.word = op'.word) (s : Shape) : s.accepts op = s.accepts op' := by
  cases s <;> simp only [Shape.accepts, Opcode.family, Opcode.n, Opcode.kk, hword]

/-- A row that does not rule out the row of `sys` is that of `clear`, of `ret` or of `sys`. -/
theorem whole_of_not_apart (hrow : row ∈ instructionSet) (hs : row.shape.apart (.top 0x0) = false) :
    row = ⟨.clear, .whole 0x00E0⟩ ∨ row = ⟨.ret, .whole 0x00EE⟩ ∨ row = ⟨.sys, .top 0x0⟩ := by
  have hall : ∀ row ∈ instructionSet, row.shape.apart (.top 0x0) = false →
      row = ⟨.clear, .whole 0x00E0⟩ ∨ row = ⟨.ret, .whole 0x00EE⟩ ∨ row = ⟨.sys, .top 0x0⟩ := by
    decide
  exact hall row hrow hs

theorem eq_sys_of_operation (hrow : row ∈ instructionSet) (hsys : row.operation = .sys) :
    row = ⟨.sys, .top 0x0⟩ :=
  List.inj_on_of_nodup_map operations_nodup hrow (by decide) hsys

/-- The rows that an opcode matches, in the order of the instruction set. -/
def matching (op : Opcode) : List Row := instructionSet.filter (·.matchedBy op)

theorem matching_eq (op : Opcode) :
    matching op = instructionSet.filter (·.shape.accepts op) :=
  List.filter_congr fun _ hrow => (accepts_eq_matchedBy (narrow_of_mem hrow) op).symm

theorem matching_congr (hword : op.word = op'.word) : matching op = matching op' := by
  rw [matching_eq, matching_eq]
  exact List.filter_congr fun row _ => accepts_congr hword row.shape

/-- An opcode that matches more than one row matches that of `sys` and is one of the two whole
    words. -/
theorem length_matching (hclear : op.word ≠ 0x00E0) (hret : op.word ≠ 0x00EE) :
    (matching op).length ≤ 1 := by
  have hapart := rows_apart.filter (·.shape.accepts op)
  have hnodup : ((matching op).map (·.operation)).Nodup :=
    operations_nodup.sublist (List.filter_sublist.map _)
  have hmem : ∀ row ∈ matching op, row ∈ instructionSet ∧ op.fits row.shape := by
    intro row hrow
    rw [matching_eq] at hrow
    exact List.mem_filter.1 hrow
  rw [← matching_eq] at hapart
  match hrows : matching op with
  | []                  => exact Nat.zero_le 1
  | [_]                 => exact Nat.le_refl 1
  | row :: row' :: rest =>
      rw [hrows] at hapart hnodup hmem
      obtain ⟨hrow, hfits⟩ := hmem row List.mem_cons_self
      obtain ⟨hrow', hfits'⟩ := hmem row' (List.mem_cons_of_mem _ List.mem_cons_self)
      -- both accept the opcode, so the second is that of `sys`, and the first is not
      have hnot : ¬ row.shape.apart row'.shape = true :=
        fun hs => Opcode.not_fits_of_apart hs hfits hfits'
      have hsys : row'.operation = .sys :=
        ((List.pairwise_cons.1 hapart).1 row' List.mem_cons_self).resolve_left hnot
      obtain rfl := eq_sys_of_operation hrow' hsys
      rcases whole_of_not_apart hrow (Bool.eq_false_iff.2 hnot) with rfl | rfl | rfl
      · exact absurd (Opcode.fits_whole.1 hfits) hclear
      · exact absurd (Opcode.fits_whole.1 hfits) hret
      · exact absurd List.mem_cons_self (List.nodup_cons.1 hnodup).1

/-- **WHICH ROWS AN OPCODE MATCHES**: at most one, but for the two whole words, which match
    the row of `sys` besides their own. -/
theorem matching_cases (op : Opcode) :
    (op.word = 0x00E0 ∧ matching op = [⟨.clear, .whole 0x00E0⟩, ⟨.sys, .top 0x0⟩]) ∨
    (op.word = 0x00EE ∧ matching op = [⟨.ret, .whole 0x00EE⟩, ⟨.sys, .top 0x0⟩]) ∨
    (op.word ≠ 0x00E0 ∧ op.word ≠ 0x00EE ∧ (matching op).length ≤ 1) := by
  by_cases hclear : op.word = 0x00E0
  · have hsame : matching op = matching 0x00E0 := matching_congr hclear
    refine Or.inl ⟨hclear, hsame.trans ?_⟩
    rw [matching_eq]
    rfl
  by_cases hret : op.word = 0x00EE
  · have hsame : matching op = matching 0x00EE := matching_congr hret
    refine Or.inr (Or.inl ⟨hret, hsame.trans ?_⟩)
    rw [matching_eq]
    rfl
  · exact Or.inr (Or.inr ⟨hclear, hret, length_matching hclear hret⟩)

/-! ## Decoding by a table -/

theorem scan_eq_head? (rows : List Row) (op : Opcode) :
    scan rows op = (rows.filter (·.matchedBy op)).head?.map fun row => ⟨row.operation, op⟩ := by
  rw [scan, List.head?_filter]

theorem scan_instructionSet (op : Opcode) : scan instructionSet op = decode op := by
  rw [scan_eq_head?, ← matching, matching_eq, List.head?_filter]
  rfl

/-- The first row that an opcode matches is that of its instruction. -/
theorem head?_matching (hdec : decode op = some i) :
    (matching op).head?.map (·.operation) = some i.operation := by
  rw [← scan_instructionSet, scan_eq_head?] at hdec
  obtain ⟨row, hfirst, rfl⟩ := Option.map_eq_some_iff.1 hdec
  rw [matching, hfirst]
  rfl

/-- The operations of the rows that an instruction matches. -/
theorem matching_operations (hdec : decode op = some i) :
    (matching op).map (·.operation) =
      if op.word = 0x00E0 then [.clear, .sys]
      else if op.word = 0x00EE then [.ret, .sys]
      else [i.operation] := by
  rcases matching_cases op with ⟨hw, hrows⟩ | ⟨hw, hrows⟩ | ⟨hclear, hret, hshort⟩
  · rw [if_pos hw, hrows]
    rfl
  · rw [if_neg (by omega), if_pos hw, hrows]
    rfl
  · rw [if_neg hclear, if_neg hret]
    have hfirst := head?_matching hdec
    match hrows : matching op with
    | [] =>
        rw [hrows] at hfirst
        exact nomatch hfirst
    | [row] =>
        rw [hrows] at hfirst
        exact congrArg (· :: []) (Option.some.inj hfirst)
    | _ :: _ :: _ =>
        rw [hrows] at hshort
        exact absurd hshort (by simp only [List.length_cons]; omega)

/-- **THE ORDER OF THE ROWS DOES NOT MATTER**, as long as the two whole words come before
    `sys`. -/
theorem scan_reordered {rows : List Row} (hperm : rows.Perm instructionSet)
    (hclear : [⟨.clear, .whole 0x00E0⟩, ⟨.sys, .top 0x0⟩].Sublist rows)
    (hret : [⟨.ret, .whole 0x00EE⟩, ⟨.sys, .top 0x0⟩].Sublist rows) (op : Opcode) :
    scan rows op = decode op := by
  have hsub : (matching op).Sublist rows := by
    rcases matching_cases op with ⟨_, hrows⟩ | ⟨_, hrows⟩ | ⟨_, _, hshort⟩
    · rw [hrows]
      exact hclear
    · rw [hrows]
      exact hret
    · match hrows : matching op with
      | []    => exact List.nil_sublist rows
      | [row] =>
          have hmem : row ∈ matching op := hrows ▸ List.mem_cons_self
          exact List.singleton_sublist.2 (hperm.mem_iff.2 (List.mem_filter.1 hmem).1)
      | _ :: _ :: _ =>
          rw [hrows] at hshort
          exact absurd hshort (by simp only [List.length_cons]; omega)
  -- the rows that match stand in the same order, and there are as many of them
  have hkept := hsub.filter (·.matchedBy op)
  rw [matching, List.filter_filter] at hkept
  simp only [Bool.and_self] at hkept
  have hsame := hkept.eq_of_length (hperm.filter (·.matchedBy op)).length_eq.symm
  rw [← scan_instructionSet, scan_eq_head?, scan_eq_head?, hsame]

end Chip8
