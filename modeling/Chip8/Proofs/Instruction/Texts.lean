import Mathlib.Data.List.TakeWhile
import Chip8.Proofs.Instruction.Shapes
import Chip8.Proofs.Machine.Decoding
import Chip8.Proofs.Text.Hex

/-! # What the text of an instruction tells

    The text of an instruction tells its operation, because any two templates have different
    characters at some place where neither has a field (**`operation_eq_of_mnemonic`**).  Given
    the operation it tells every field of the template, because all but the last have a width
    that is fixed (**`chars_eq_of_flatMap`**).  And it tells the word: each nibble is fixed by the
    shape of the word or shown by the template (**`place_told`**), except for the second register
    of the two shifts, which does not matter to them.

    **`mnemonic_eq_iff`** puts this together. -/

namespace Chip8

/-! ## Characters that the template fixes -/

namespace Piece

/-- The characters of a piece, as far as they are the same for all words. -/
def pattern : Piece → List (Option Char)
  | .text s => s.toList.map some
  | .x | .y => List.replicate 1 none
  | .kk     => some '0' :: some 'x' :: List.replicate 2 none
  | .nnn    => some '0' :: some 'x' :: List.replicate 3 none
  | .n      => List.replicate 1 none

/-- Whether characters have a pattern. -/
abbrev Has (cs : List Char) (pattern : List (Option Char)) : Prop :=
  List.Forall₂ (fun c fixed => ∀ a ∈ fixed, a = c) cs pattern

theorem has_text (cs : List Char) : Has cs (cs.map some) := by
  induction cs with
  | nil => exact .nil
  | cons c cs ih => exact .cons (fun _ ha => (Option.some.inj ha).symm) ih

theorem has_blank (cs : List Char) : Has cs (List.replicate cs.length none) := by
  induction cs with
  | nil => exact .nil
  | cons c cs ih => exact .cons (fun _ ha => nomatch ha) ih

theorem has_numeral {width n : Nat} (hw : 0 < width) (hn : n < 16 ^ width) :
    Has (Hex.paddedChars width n) (List.replicate width none) := by
  have hblank := has_blank (Hex.paddedChars width n)
  rwa [Hex.length_paddedChars hw hn] at hblank

/-- All pieces but the decimal one have their pattern, and so a width of their own. -/
theorem has_pattern (op : Opcode) {p : Piece} (hp : p ≠ .n) : Has (p.chars op) p.pattern := by
  cases p with
  | text s => exact has_text s.toList
  | x => exact has_numeral (by decide) op.x_lt
  | y => exact has_numeral (by decide) op.y_lt
  | kk =>
      refine .cons (fun _ ha => (Option.some.inj ha).symm) ?_
      exact .cons (fun _ ha => (Option.some.inj ha).symm) (has_numeral (by decide) op.kk_lt)
  | nnn =>
      refine .cons (fun _ ha => (Option.some.inj ha).symm) ?_
      exact .cons (fun _ ha => (Option.some.inj ha).symm) (has_numeral (by decide) op.nnn_lt)
  | n => exact absurd rfl hp

/-- Pieces in a row, none of them decimal, have their patterns in a row. -/
theorem has_flatMap (op : Opcode) {ps : List Piece} (hps : ∀ p ∈ ps, p ≠ .n) :
    Has (ps.flatMap (chars op)) (ps.flatMap pattern) := by
  induction ps with
  | nil => exact .nil
  | cons p ps ih =>
      obtain ⟨hp, hps⟩ := List.forall_mem_cons.1 hps
      exact List.rel_append (has_pattern op hp) (ih hps)

end Piece

/-- Two patterns are apart if they fix different characters somewhere. -/
def apart (fs gs : List (Option Char)) : Bool :=
  (List.zip fs gs).any fun
    | (some a, some b) => a != b
    | _                => false

/-- The pattern of the texts of an operation, up to a decimal field. -/
def Operation.pattern (o : Operation) : List (Option Char) :=
  (o.template.takeWhile (· ≠ .n)).flatMap Piece.pattern

theorem patterns_apart : ∀ r ∈ instructionSet, ∀ r' ∈ instructionSet,
    r.operation = r'.operation ∨ apart r.operation.pattern r'.operation.pattern = true := by
  decide +kernel

theorem exists_row (o : Operation) : ∃ row ∈ instructionSet, row.operation = o := by
  cases o <;> decide

/-- The same text does not have two patterns that are apart. -/
theorem apart_eq_false {cs ds rest rest' : List Char} {fs gs : List (Option Char)}
    (hf : Piece.Has cs fs) (hg : Piece.Has ds gs) (h : cs ++ rest = ds ++ rest') :
    apart fs gs = false := by
  induction hf generalizing ds gs with
  | nil => rfl
  | @cons c f cs fs hc hcs ih =>
      cases hg with
      | nil => rfl
      | @cons d g ds gs hd hds =>
          obtain ⟨rfl, htail⟩ := List.cons.inj h
          rw [apart, List.zip_cons_cons, List.any_cons, Bool.or_eq_false_iff]
          refine ⟨?_, ih hds htail⟩
          -- where both patterns fix the character, it is the one in front of both texts
          cases f with
          | none => rfl
          | some a =>
              cases g with
              | none => rfl
              | some b =>
                  obtain rfl : a = c := hc a rfl
                  obtain rfl : b = a := hd b rfl
                  exact bne_self_eq_false b

namespace Instruction

variable {i j : Instruction}

/-- The text of an instruction has the pattern of its operation in front. -/
theorem has_pattern (i : Instruction) :
    ∃ cs rest, i.mnemonicChars = cs ++ rest ∧ Piece.Has cs i.operation.pattern := by
  have hfront (p : Piece) (hp : p ∈ i.operation.template.takeWhile (· ≠ .n)) : p ≠ .n := by
    simpa using List.mem_takeWhile_imp hp
  refine ⟨_, (i.operation.template.dropWhile (· ≠ .n)).flatMap (Piece.chars i.opcode), ?_,
    Piece.has_flatMap i.opcode hfront⟩
  rw [← List.flatMap_append, List.takeWhile_append_dropWhile]
  rfl

theorem mnemonic_inj : i.mnemonic = j.mnemonic ↔ i.mnemonicChars = j.mnemonicChars :=
  String.ofList_inj

/-- **THE TEXT TELLS THE OPERATION.** -/
theorem operation_eq_of_mnemonic (h : i.mnemonicChars = j.mnemonicChars) :
    i.operation = j.operation := by
  obtain ⟨r, hr, hi⟩ := exists_row i.operation
  obtain ⟨r', hr', hj⟩ := exists_row j.operation
  rw [← hi, ← hj]
  refine (patterns_apart r hr r' hr').resolve_right fun hapart => ?_
  obtain ⟨cs, rest, htext, hhas⟩ := i.has_pattern
  obtain ⟨cs', rest', htext', hhas'⟩ := j.has_pattern
  rw [hi, hj, apart_eq_false hhas hhas' (htext.symm.trans (h.trans htext'))] at hapart
  exact Bool.false_ne_true hapart

end Instruction

/-! ## Fields that the template shows -/

theorem template_dropLast (o : Operation) : .n ∉ o.template.dropLast := by
  cases o <;> decide

variable {op op' : Opcode}

/-- Pieces that are written alike in a row are written alike one by one, if all but the last have
    a width of their own. -/
theorem chars_eq_of_flatMap {ps : List Piece} (hlast : .n ∉ ps.dropLast)
    (h : ps.flatMap (Piece.chars op) = ps.flatMap (Piece.chars op')) :
    ∀ p ∈ ps, p.chars op = p.chars op' := by
  induction ps with
  | nil => exact fun _ hp => nomatch hp
  | cons p ps ih =>
      cases ps with
      | nil =>
          simp only [List.flatMap_cons, List.flatMap_nil, List.append_nil] at h
          exact List.forall_mem_singleton.2 h
      | cons q ps =>
          rw [List.dropLast_cons_cons, List.mem_cons, not_or] at hlast
          obtain ⟨hp, hrest⟩ := hlast
          -- the first piece is as wide in both, so both texts can be cut behind it
          have hwidth : (p.chars op).length = (p.chars op').length :=
            (Piece.has_pattern op (Ne.symm hp)).length_eq.trans
              (Piece.has_pattern op' (Ne.symm hp)).length_eq.symm
          obtain ⟨hfirst, hothers⟩ := List.append_inj h hwidth
          exact List.forall_mem_cons.2 ⟨hfirst, ih hrest hothers⟩

/-- The four places of a word. -/
inductive Place where
  | family
  | x
  | y
  | n
  deriving DecidableEq

/-- The nibble at a place. -/
def Opcode.nibble (op : Opcode) : Place → Nat
  | .family => op.family
  | .x      => op.x
  | .y      => op.y
  | .n      => op.n

theorem Opcode.word_eq_of_nibble (h : ∀ p, op.nibble p = op'.nibble p) : op.word = op'.word := by
  have hfamily : op.family = op'.family := h .family
  have hx : op.x = op'.x := h .x
  have hy : op.y = op'.y := h .y
  have hn : op.n = op'.n := h .n
  rw [op.word_eq, op'.word_eq, op.nnn_eq, op'.nnn_eq, op.kk_eq, op'.kk_eq, hfamily, hx, hy, hn]

/-- The nibble that a shape fixes at a place, if it fixes one there. -/
def Shape.fixed? (s : Shape) : Place → Option Nat
  | .family => s.nibbles.getD 0 none
  | .x      => s.nibbles.getD 1 none
  | .y      => s.nibbles.getD 2 none
  | .n      => s.nibbles.getD 3 none

theorem nibble_of_fits {s : Shape} (h : op.fits s) {p : Place} {a : Nat}
    (ha : s.fixed? p = some a) : op.nibble p = a := by
  have hnibbles := Opcode.nibbles_of_fits h
  rw [Shape.fixed?.eq_def] at ha
  generalize s.nibbles = fs at hnibbles ha
  obtain _ | ⟨hfamily, _ | ⟨hx, _ | ⟨hy, _ | ⟨hn, hnil⟩⟩⟩⟩ := hnibbles
  cases p with
  | family => exact (hfamily a ha).symm
  | x => exact (hx a ha).symm
  | y => exact (hy a ha).symm
  | n => exact (hn a ha).symm

/-- The places that a piece shows. -/
def Piece.shows : Piece → List Place
  | .text _ => []
  | .x      => [.x]
  | .y      => [.y]
  | .kk     => [.y, .n]
  | .nnn    => [.x, .y, .n]
  | .n      => [.n]

theorem Opcode.nibbles_of_kk (h : op.kk = op'.kk) : op.y = op'.y ∧ op.n = op'.n := by
  rw [op.y_eq_kk, op'.y_eq_kk, op.n_eq_kk, op'.n_eq_kk, h]
  exact ⟨rfl, rfl⟩

theorem Opcode.nibbles_of_nnn (h : op.nnn = op'.nnn) : op.x = op'.x ∧ op.kk = op'.kk := by
  have hlt := op.kk_lt
  have hlt' := op'.kk_lt
  rw [op.nnn_eq, op'.nnn_eq] at h
  omega

theorem nibble_eq_of_chars {piece : Piece} (h : piece.chars op = piece.chars op') {p : Place}
    (hp : p ∈ piece.shows) : op.nibble p = op'.nibble p := by
  have hnumeral {width a b : Nat} (hab : Hex.paddedChars width a = Hex.paddedChars width b) :
      a = b := Int.ofNat.inj (Hex.paddedChars_injective width hab)
  cases piece with
  | text s => exact nomatch hp
  | x =>
      obtain rfl := List.mem_singleton.1 hp
      exact hnumeral h
  | y =>
      obtain rfl := List.mem_singleton.1 hp
      exact hnumeral h
  | kk =>
      have hkk : op.kk = op'.kk := hnumeral (List.cons.inj (List.cons.inj h).2).2
      simp only [Piece.shows, List.mem_cons, List.not_mem_nil, or_false] at hp
      rcases hp with rfl | rfl
      · exact (Opcode.nibbles_of_kk hkk).1
      · exact (Opcode.nibbles_of_kk hkk).2
  | nnn =>
      have hnnn : op.nnn = op'.nnn := hnumeral (List.cons.inj (List.cons.inj h).2).2
      obtain ⟨hx, hkk⟩ := Opcode.nibbles_of_nnn hnnn
      simp only [Piece.shows, List.mem_cons, List.not_mem_nil, or_false] at hp
      rcases hp with rfl | rfl | rfl
      · exact hx
      · exact (Opcode.nibbles_of_kk hkk).1
      · exact (Opcode.nibbles_of_kk hkk).2
  | n =>
      obtain rfl := List.mem_singleton.1 hp
      have hdecimal : ∀ a b : Fin 16, Nat.toDigits 10 a = Nat.toDigits 10 b → a = b := by decide
      exact congrArg Fin.val (hdecimal ⟨op.n, op.n_lt⟩ ⟨op'.n, op'.n_lt⟩ h)

/-- **EVERY NIBBLE IS TOLD**, by the shape of the word or by the text, but for one that the shifts
    do not read. -/
theorem place_told (p : Place) :
    ∀ row ∈ instructionSet, (row.shape.fixed? p).isSome ∨
      (∃ piece ∈ row.operation.template, p ∈ piece.shows) ∨
      (p = .y ∧ row.operation ∈ [Operation.shr, Operation.shl]) := by
  cases p <;> decide

/-! ## Words with the same text -/

variable {i j : Instruction}

/-- Two instructions with the same text have the same nibbles, wherever the word tells or shows
    them. -/
theorem nibble_eq_of_mnemonic (hdec : decode op = some i) (hdec' : decode op' = some j)
    (h : i.mnemonicChars = j.mnemonicChars) {p : Place}
    (hp : p = .y → i.operation ∉ [Operation.shr, Operation.shl]) :
    op.nibble p = op'.nibble p := by
  have hop : j.operation = i.operation := (Instruction.operation_eq_of_mnemonic h).symm
  obtain ⟨row, hrow, hi, hfits⟩ := row_of_decode hdec
  have hfits' : op'.fits row.shape := fits_of_decode hrow hdec' (hop.trans hi.symm)
  rcases place_told p row hrow with hfixed | ⟨piece, hpiece, hshown⟩ | ⟨hy, hshift⟩
  · obtain ⟨a, ha⟩ := Option.isSome_iff_exists.1 hfixed
    rw [nibble_of_fits hfits ha, nibble_of_fits hfits' ha]
  · rw [Instruction.mnemonicChars, Instruction.mnemonicChars, hop, opcode_of_decode hdec,
      opcode_of_decode hdec'] at h
    have hchars := chars_eq_of_flatMap (template_dropLast i.operation) h
    exact nibble_eq_of_chars (hchars piece (hi ▸ hpiece)) hshown
  · exact absurd (hi ▸ hshift) (hp hy)

/-- Two words of the same shift that name the same first register. -/
structure SameShift (op op' : Opcode) : Prop where
  shift : op.fits (.ends 0x8 0x6) ∧ op'.fits (.ends 0x8 0x6) ∨
    op.fits (.ends 0x8 0xE) ∧ op'.fits (.ends 0x8 0xE)
  x_eq : op.x = op'.x

namespace SameShift

theorem decode_eq (h : SameShift op op') :
    ∃ o, (o = .shr ∨ o = .shl) ∧ decode op = some ⟨o, op⟩ ∧ decode op' = some ⟨o, op'⟩ := by
  rcases h.shift with ⟨hfits, hfits'⟩ | ⟨hfits, hfits'⟩
  · exact ⟨.shr, Or.inl rfl, decode_of_fits (by decide) (by decide) hfits,
      decode_of_fits (by decide) (by decide) hfits'⟩
  · exact ⟨.shl, Or.inr rfl, decode_of_fits (by decide) (by decide) hfits,
      decode_of_fits (by decide) (by decide) hfits'⟩

theorem mnemonic_eq (h : SameShift op op') (hdec : decode op = some i)
    (hdec' : decode op' = some j) : i.mnemonic = j.mnemonic := by
  obtain ⟨o, ho, hi, hj⟩ := h.decode_eq
  obtain rfl : ⟨o, op⟩ = i := Option.some.inj (hi.symm.trans hdec)
  obtain rfl : ⟨o, op'⟩ = j := Option.some.inj (hj.symm.trans hdec')
  rw [Instruction.mnemonic_inj]
  rcases ho with rfl | rfl <;>
    simp only [Instruction.mnemonicChars, Operation.template, List.flatMap_cons, List.flatMap_nil,
      Piece.chars, h.x_eq]

end SameShift

/-- **WHEN TWO INSTRUCTIONS HAVE THE SAME TEXT**: their words are the same, or they are the same
    shift of the same register. -/
theorem mnemonic_eq_iff (hdec : decode op = some i) (hdec' : decode op' = some j) :
    i.mnemonic = j.mnemonic ↔ op.word = op'.word ∨ SameShift op op' := by
  constructor
  · intro hmnemonic
    have h := Instruction.mnemonic_inj.1 hmnemonic
    have hop := Instruction.operation_eq_of_mnemonic h
    have hx : op.x = op'.x := nibble_eq_of_mnemonic hdec hdec' h (p := .x) fun hy => nomatch hy
    by_cases hshr : i.operation = .shr
    · exact Or.inr ⟨Or.inl ⟨fits_of_decode (by decide) hdec hshr,
        fits_of_decode (by decide) hdec' (hop.symm.trans hshr)⟩, hx⟩
    by_cases hshl : i.operation = .shl
    · exact Or.inr ⟨Or.inr ⟨fits_of_decode (by decide) hdec hshl,
        fits_of_decode (by decide) hdec' (hop.symm.trans hshl)⟩, hx⟩
    · have hshift : i.operation ∉ [Operation.shr, Operation.shl] := by
        simp only [List.mem_cons, List.not_mem_nil, or_false, not_or]
        exact ⟨hshr, hshl⟩
      exact Or.inl (Opcode.word_eq_of_nibble fun p =>
        nibble_eq_of_mnemonic hdec hdec' h fun _ => hshift)
  · rintro (hword | hshift)
    · obtain rfl : ⟨i.operation, op'⟩ = j :=
        Option.some.inj ((decode_of_word hword hdec).symm.trans hdec')
      have halike : i.Alike ⟨i.operation, op'⟩ := ⟨rfl, opcode_of_decode hdec ▸ hword⟩
      exact halike.mnemonic_eq
    · exact hshift.mnemonic_eq hdec hdec'

end Chip8
