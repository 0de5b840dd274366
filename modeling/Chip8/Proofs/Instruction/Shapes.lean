import Mathlib.Data.List.Nodup
import Mathlib.Tactic.IntervalCases
import Chip8.Instruction

/-! # Shapes and instructions

    The instruction set read in both directions.  Apart from the two whole words that also
    have the shape of `sys`, no word has the shapes of two rows (**`rows_apart`**), so the
    order of the rows does not matter:

    * **`fits_of_decode`** goes from an instruction to the shape of its word,
    * **`decode_of_fits`** goes from the shape of a word to its instruction,
    * **`decode_eq_none_iff`** says which words are no instruction, family by family. -/

namespace Chip8

/-! ## Shapes that no word has at once -/

namespace Shape

/-- The nibbles of a word, from the top, as far as a shape fixes them. -/
def nibbles : Shape → List (Option Nat)
  | .whole w   => [some (w / 4096), some (w / 256 % 16), some (w / 16 % 16), some (w % 16)]
  | .top a     => [some a, none, none, none]
  | .ends a d  => [some a, none, none, some d]
  | .tail a kk => [some a, none, some (kk / 16), some (kk % 16)]

/-- Whether two nibbles, as far as they are fixed, are different. -/
def clash : Option Nat → Option Nat → Bool
  | some a, some b => a != b
  | _,      _      => false

/-- Whether two shapes fix some nibble differently. -/
def apart (s t : Shape) : Bool := (List.zipWith clash s.nibbles t.nibbles).any id

end Shape

namespace Opcode

/-- Whether an opcode has a shape. -/
def fits (op : Opcode) (s : Shape) : Prop := s.accepts op = true

instance (op : Opcode) (s : Shape) : Decidable (op.fits s) := inferInstanceAs (Decidable (_ = _))

/-- Whether an opcode has one of several shapes. -/
def among (op : Opcode) (shapes : List Shape) : Prop := ∃ s ∈ shapes, op.fits s

instance (op : Opcode) (shapes : List Shape) : Decidable (op.among shapes) :=
  inferInstanceAs (Decidable (∃ s ∈ shapes, _))

variable {op : Opcode}

theorem fits_whole {w : Nat} : op.fits (.whole w) ↔ op.word = w := beq_iff_eq

theorem fits_top {a : Nat} : op.fits (.top a) ↔ op.family = a := beq_iff_eq

theorem fits_ends {a d : Nat} : op.fits (.ends a d) ↔ op.family = a ∧ op.n = d := by
  simp [fits, Shape.accepts]

theorem fits_tail {a kk : Nat} : op.fits (.tail a kk) ↔ op.family = a ∧ op.kk = kk := by
  simp [fits, Shape.accepts]

theorem y_eq_kk (op : Opcode) : op.y = op.kk / 16 := by
  unfold y kk; omega

theorem n_eq_kk (op : Opcode) : op.n = op.kk % 16 := by
  unfold n kk; omega

/-- A word has the nibbles that its shape fixes. -/
theorem nibbles_of_fits {s : Shape} (h : op.fits s) :
    List.Forall₂ (fun fixed nibble => ∀ a ∈ fixed, a = nibble) s.nibbles
      [op.family, op.x, op.y, op.n] := by
  cases s with
  | whole w =>
      have hw := fits_whole.1 h
      simp [Shape.nibbles, family, x, y, n, hw]
  | top a =>
      have ha := fits_top.1 h
      simp [Shape.nibbles, ha]
  | ends a d =>
      obtain ⟨ha, hd⟩ := fits_ends.1 h
      simp [Shape.nibbles, ha, hd]
  | tail a kk =>
      obtain ⟨ha, hkk⟩ := fits_tail.1 h
      simp [Shape.nibbles, ha, hkk, y_eq_kk, n_eq_kk]

theorem clash_eq_false {f g : Option Nat} {nibble : Nat} (hf : ∀ a ∈ f, a = nibble)
    (hg : ∀ a ∈ g, a = nibble) : Shape.clash f g = false := by
  cases f with
  | none => rfl
  | some a =>
      cases g with
      | none => rfl
      | some b =>
          have hab : a = b := (hf a rfl).trans (hg b rfl).symm
          simp [Shape.clash, hab]

theorem not_clash_of_forall₂ {fs gs : List (Option Nat)} {ns : List Nat}
    (hf : List.Forall₂ (fun fixed nibble => ∀ a ∈ fixed, a = nibble) fs ns)
    (hg : List.Forall₂ (fun fixed nibble => ∀ a ∈ fixed, a = nibble) gs ns) :
    (List.zipWith Shape.clash fs gs).any id = false := by
  induction hf generalizing gs with
  | nil => rfl
  | cons hfirst _ ih =>
      cases hg with
      | cons hfirst' hrest =>
          rw [List.zipWith_cons_cons, List.any_cons, ih hrest, id, clash_eq_false hfirst hfirst',
            Bool.or_false]

/-- No word has two shapes that are apart. -/
theorem not_fits_of_apart {s t : Shape} (h : s.apart t = true) (hs : op.fits s) :
    ¬ op.fits t := by
  intro ht
  have hnone := not_clash_of_forall₂ (nibbles_of_fits hs) (nibbles_of_fits ht)
  exact Bool.false_ne_true (hnone.symm.trans h)

end Opcode

/-! ## Rows -/

theorem rows_apart :
    instructionSet.Pairwise fun r r' => r.shape.apart r'.shape = true ∨ r'.operation = .sys := by
  decide

theorem operations_nodup : (instructionSet.map (·.operation)).Nodup := by
  decide

variable {op : Opcode} {i : Instruction} {o : Operation} {s : Shape}

/-- Every instruction comes from a row whose shape its word has. -/
theorem row_of_decode (hdec : decode op = some i) :
    ∃ row ∈ instructionSet, row.operation = i.operation ∧ op.fits row.shape := by
  obtain ⟨row, hfind, rfl⟩ := Option.map_eq_some_iff.1 hdec
  have haccepts := List.find?_some hfind
  exact ⟨row, List.mem_of_find?_eq_some hfind, rfl, haccepts⟩

/-- **FROM AN INSTRUCTION TO THE SHAPE OF ITS WORD.** -/
theorem fits_of_decode (hrow : ⟨o, s⟩ ∈ instructionSet) (hdec : decode op = some i)
    (hop : i.operation = o) : op.fits s := by
  obtain ⟨row, hmem, hrop, hfits⟩ := row_of_decode hdec
  have hsame : row = ⟨o, s⟩ :=
    List.inj_on_of_nodup_map operations_nodup hmem hrow (hrop.trans hop)
  rw [hsame] at hfits
  exact hfits

/-- An instruction with one of some operations has one of their shapes. -/
theorem among_of_decode {ops : List Operation} {shapes : List Shape}
    (hshapes : ∀ row ∈ instructionSet, row.operation ∈ ops → row.shape ∈ shapes)
    (hdec : decode op = some i) (hop : i.operation ∈ ops) : op.among shapes := by
  obtain ⟨row, hmem, hrop, hfits⟩ := row_of_decode hdec
  exact ⟨row.shape, hshapes row hmem (hrop ▸ hop), hfits⟩

/-- A row that accepts a word is the first that does, unless it is that of `sys`. -/
theorem find?_of_pairwise {rows : List Row} {row : Row}
    (hrows : rows.Pairwise fun r r' => r.shape.apart r'.shape = true ∨ r'.operation = .sys)
    (hrow : row ∈ rows) (hsys : row.operation ≠ .sys) (hfits : op.fits row.shape) :
    rows.find? (·.shape.accepts op) = some row := by
  induction rows with
  | nil => cases hrow
  | cons r rest ih =>
      obtain ⟨hfirst, hrest⟩ := List.pairwise_cons.1 hrows
      rcases List.mem_cons.1 hrow with rfl | hmem
      · exact List.find?_cons_of_pos hfits
      · have hapart : r.shape.apart row.shape = true := (hfirst row hmem).resolve_right hsys
        have hnot : r.shape.accepts op = false :=
          Bool.eq_false_iff.2 fun hr => Opcode.not_fits_of_apart hapart hr hfits
        simp only [List.find?_cons, hnot]
        exact ih hrest hmem

/-- **FROM THE SHAPE OF A WORD TO ITS INSTRUCTION.** -/
theorem decode_of_fits (hrow : ⟨o, s⟩ ∈ instructionSet) (hsys : o ≠ .sys) (hfits : op.fits s) :
    decode op = some ⟨o, op⟩ := by
  rw [decode, find?_of_pairwise rows_apart hrow hsys hfits]
  rfl

theorem operation_of_fits (hrow : ⟨o, s⟩ ∈ instructionSet) (hsys : o ≠ .sys) (hfits : op.fits s)
    (hdec : decode op = some i) : i.operation = o := by
  rw [decode_of_fits hrow hsys hfits] at hdec
  exact congrArg (·.operation) (Option.some.inj hdec).symm

/-! ## Words that are no instruction -/

/-- The words of the instruction set, family by family. -/
def Opcode.Documented (op : Opcode) : Prop :=
  match op.family with
  | 0x5 | 0x9 => op.n = 0
  | 0x8       => op.n ≤ 7 ∨ op.n = 0xE
  | 0xE       => op.kk = 0x9E ∨ op.kk = 0xA1
  | 0xF       => op.kk ∈ [0x07, 0x0A, 0x15, 0x18, 0x1E, 0x29, 0x33, 0x55, 0x65]
  | _         => True

theorem exists_row_iff (op : Opcode) :
    (∃ row ∈ instructionSet, op.fits row.shape) ↔ op.Documented := by
  have hlt := op.family_lt
  have hword := op.word_eq
  have hnnn := op.nnn_lt
  unfold Opcode.Documented
  interval_cases hf : op.family <;>
    simp [instructionSet, Opcode.fits_whole, Opcode.fits_top, Opcode.fits_ends,
      Opcode.fits_tail, hf]
  all_goals omega

/-- **WHICH WORDS ARE NO INSTRUCTION.** -/
theorem decode_eq_none_iff (op : Opcode) : decode op = none ↔ ¬ op.Documented := by
  rw [← exists_row_iff, decode, Option.map_eq_none_iff, List.find?_eq_none]
  simp only [not_exists, not_and]
  exact Iff.rfl

end Chip8
