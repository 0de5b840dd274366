import Chip8.Machine.Execute
import Chip8.Proofs.Instruction.Masks

/-! # Opcodes with the same word

    An instruction reads its operands off the word of its opcode, so opcodes with the same word
    are carried out alike (**`execute_congr`**): on every machine they leave the same behind,
    report the same lines and fail together, and all that can tell them apart is the opcode
    that a fault carries.

    **`decoding_is_exact`** puts this together with what is known of the table of the
    instruction set. -/

namespace Chip8

open Machine

variable {op op' : Opcode}

namespace Instruction

variable {i i' : Instruction}

/-- Two instructions of the same operation whose opcodes have the same word. -/
structure Alike (i i' : Instruction) : Prop where
  operation : i.operation = i'.operation
  word : i.opcode.word = i'.opcode.word

namespace Alike

theorem x_eq (h : i.Alike i') : i.x = i'.x := by
  rw [x, x, Opcode.x, Opcode.x, h.word]

theorem y_eq (h : i.Alike i') : i.y = i'.y := by
  rw [y, y, Opcode.y, Opcode.y, h.word]

theorem n_eq (h : i.Alike i') : i.n = i'.n := by
  rw [n, n, Opcode.n, Opcode.n, h.word]

theorem kk_eq (h : i.Alike i') : i.kk = i'.kk := by
  rw [kk, kk, Opcode.kk, Opcode.kk, h.word]

theorem nnn_eq (h : i.Alike i') : i.nnn = i'.nnn := by
  rw [nnn, nnn, Opcode.nnn, Opcode.nnn, h.word]

/-- They have the same text. -/
theorem mnemonic_eq (h : i.Alike i') : i.mnemonic = i'.mnemonic := by
  have hpiece (piece : Piece) : piece.chars i.opcode = piece.chars i'.opcode := by
    cases piece with
    | text s => rfl
    | x => exact congrArg (fun r : Nat => Hex.paddedChars 1 r) h.x_eq
    | y => exact congrArg (fun r : Nat => Hex.paddedChars 1 r) h.y_eq
    | kk => exact congrArg (fun b : Nat => '0' :: 'x' :: Hex.paddedChars 2 b) h.kk_eq
    | nnn => exact congrArg (fun a : Nat => '0' :: 'x' :: Hex.paddedChars 3 a) h.nnn_eq
    | n => exact congrArg (fun d : Nat => Nat.toDigits 10 d) h.n_eq
  rw [mnemonic, mnemonic, mnemonicChars, mnemonicChars, h.operation, funext hpiece]

theorem onRegister_eq (h : i.Alike i') : i.onRegister = i'.onRegister := by
  funext m next
  rw [onRegister, onRegister, h.x_eq]

theorem onRegisters_eq (h : i.Alike i') : i.onRegisters = i'.onRegisters := by
  funext m next
  rw [onRegisters, onRegisters, h.x_eq, h.y_eq]

theorem combine_eq (h : i.Alike i') : i.combine = i'.combine := by
  funext m result
  rw [combine, combine, h.onRegisters_eq, h.x_eq]

theorem withFlag_eq (h : i.Alike i') : i.withFlag = i'.withFlag := by
  funext m raised result
  rw [withFlag, withFlag, h.x_eq]

/-- They have the same effect, but for the opcode that a fault carries. -/
theorem apply_eq (h : i.Alike i') (m : Machine) :
    i.apply m = i'.apply m ∨
    ∃ reason, i.apply m = .fail m (i.faultAt reason m) ∧
      i'.apply m = .fail m (i'.faultAt reason m) := by
  have hop := h.operation
  by_cases hret : i.operation = .ret
  · have hret' : i'.operation = .ret := hop ▸ hret
    simp only [apply, hret, hret']
    cases m.stack with
    | nil => exact Or.inr ⟨.stackUnderflow, rfl, rfl⟩
    | cons top rest => exact Or.inl rfl
  by_cases hcall : i.operation = .call
  · have hcall' : i'.operation = .call := hop ▸ hcall
    simp only [apply, hcall, hcall', h.nnn_eq]
    by_cases hfull : stackDepth ≤ m.stack.length
    · rw [if_pos hfull, if_pos hfull]
      exact Or.inr ⟨.stackOverflow, rfl, rfl⟩
    · rw [if_neg hfull, if_neg hfull]
      exact Or.inl rfl
  · refine Or.inl ?_
    rw [apply, apply, ← hop]
    cases ho : i.operation <;> first
      | contradiction
      | simp only [h.x_eq, h.y_eq, h.n_eq, h.kk_eq, h.nnn_eq, h.onRegister_eq, h.onRegisters_eq,
          h.combine_eq, h.withFlag_eq]

end Alike

end Instruction

/-! ## Carrying out an opcode -/

theorem decode_congr (hword : op.word = op'.word) :
    (decode op).map (·.operation) = (decode op').map (·.operation) := by
  have hrows : instructionSet.find? (·.shape.accepts op)
      = instructionSet.find? (·.shape.accepts op') :=
    congrArg (instructionSet.find? ·) (funext fun row : Row => accepts_congr hword row.shape)
  rw [decode, decode, Option.map_map, Option.map_map, hrows]
  rfl

/-- An opcode with the same word as one of an instruction is one of the same instruction. -/
theorem decode_of_word (hword : op.word = op'.word) {i : Instruction} (hdec : decode op = some i) :
    decode op' = some ⟨i.operation, op'⟩ := by
  have hop := decode_congr hword
  rw [hdec] at hop
  obtain ⟨i', hdec', hsame⟩ := Option.map_eq_some_iff.1 hop.symm
  have hi : i' = ⟨i.operation, op'⟩ := by
    rw [← opcode_of_decode hdec', ← show i'.operation = i.operation from hsame]
  rw [hdec', hi]

/-- What carrying out two opcodes has in common: the machines left behind, the lines of the log,
    and whether and how it fails, but for the opcode that a fault carries. -/
structure SameDeed (op op' : Opcode) (o o' : Outcome Failure Log.Entry Machine) : Prop where
  state : o.state = o'.state
  lines : o.reports.map Log.Entry.line = o'.reports.map Log.Entry.line
  failure : o.failure = o'.failure ∨ ∃ reason pc,
    o.failure = some (.fault ⟨reason, op, pc⟩) ∧ o'.failure = some (.fault ⟨reason, op', pc⟩)

theorem Log.Entry.line_trace {i i' : Instruction} (h : i.mnemonic = i'.mnemonic) (pc : Int) :
    (trace pc i).line = (trace pc i').line :=
  congrArg (fun text => Level.debug.name ++ " " ++ Source.processor.name ++ ": " ++
    (Hex.padded 3 pc ++ ": " ++ text)) h

/-- **OPCODES WITH THE SAME WORD ARE CARRIED OUT ALIKE**, on any machine. -/
theorem execute_congr (hword : op.word = op'.word) (m : Machine) :
    SameDeed op op' (m.execute op) (m.execute op') := by
  cases hdec : decode op with
  | none =>
      have hdec' : decode op' = none := by
        have hop := decode_congr hword
        rw [hdec] at hop
        exact Option.map_eq_none_iff.1 hop.symm
      simp only [execute, hdec, hdec']
      exact ⟨rfl, rfl, Or.inr ⟨.unknownOpcode, m.pc, rfl, rfl⟩⟩
  | some i =>
      have hdec' := decode_of_word hword hdec
      have hi := opcode_of_decode hdec
      have halike : i.Alike ⟨i.operation, op'⟩ := ⟨rfl, hi ▸ hword⟩
      have htrace := Log.Entry.line_trace halike.mnemonic_eq m.pc
      simp only [execute, hdec, hdec']
      rcases halike.apply_eq m.advance with hsame | ⟨reason, hfault, hfault'⟩
      · rw [hsame]
        refine ⟨rfl, ?_, Or.inl rfl⟩
        simp only [Outcome.after, List.map_append, List.map_cons, htrace]
      · rw [hfault, hfault']
        have hopcode : i.faultAt reason m.advance
            = .fault ⟨reason, op, addressOf (m.advance.pc - 2)⟩ := by
          rw [Instruction.faultAt, hi]
        exact ⟨rfl, congrArg (· :: []) htrace, Or.inr ⟨reason, _, congrArg some hopcode, rfl⟩⟩

/-! ## What decoding accepts -/

/-- The words that are no instruction, family by family. -/
theorem decode_eq_none_cases (op : Opcode) :
    decode op = none ↔
      (op.word / 4096 = 0x5 ∨ op.word / 4096 = 0x9) ∧ op.word % 16 ≠ 0x0 ∨
      op.word / 4096 = 0x8 ∧ op.word % 16 ∈ [0x8, 0x9, 0xA, 0xB, 0xC, 0xD, 0xF] ∨
      op.word / 4096 = 0xE ∧ op.word % 256 ∉ [0x9E, 0xA1] ∨
      op.word / 4096 = 0xF ∧
        op.word % 256 ∉ [0x07, 0x0A, 0x15, 0x18, 0x1E, 0x29, 0x33, 0x55, 0x65] := by
  have hn : op.n < 16 := op.n_lt
  rw [decode_eq_none_iff, Opcode.Documented, ← Opcode.family, ← Opcode.n, ← Opcode.kk]
  simp only [List.mem_cons, List.not_mem_nil, or_false]
  split
  case h_6 _ h5 h9 h8 hE hF =>
      have hother : op.family ≠ 0x5 ∧ op.family ≠ 0x9 ∧ op.family ≠ 0x8 ∧ op.family ≠ 0xE ∧
          op.family ≠ 0xF := ⟨h5, h9, h8, hE, hF⟩
      rw [not_true_eq_false, false_iff]
      omega
  all_goals omega

/-- **DECODING IS EXACT.**  For an opcode of any size and sign, and `w` its residue modulo 2¹⁶:

    * it is no instruction exactly if `w` is one of the words that are none;
    * if it is one, the word alone decides which; it matches one row of the table and no other,
      but for `00E0` and `00EE`, which also match that of `sys` and are not taken for it; its
      fields are the nibbles of `w`, and the opcode is kept as it came;
    * a table with the same rows in another order decodes it alike, as long as these two come
      before `sys`, and so does the table as it is;
    * on every machine, carrying it out and carrying `w` out come to the same, but for the opcode
      that a fault carries. -/
theorem decoding_is_exact (op : Opcode) :
    let w : Nat := (op % 65536).toNat
    (decode op = none ↔
      (w / 4096 = 0x5 ∨ w / 4096 = 0x9) ∧ w % 16 ≠ 0x0 ∨
      w / 4096 = 0x8 ∧ w % 16 ∈ [0x8, 0x9, 0xA, 0xB, 0xC, 0xD, 0xF] ∨
      w / 4096 = 0xE ∧ w % 256 ∉ [0x9E, 0xA1] ∨
      w / 4096 = 0xF ∧ w % 256 ∉ [0x07, 0x0A, 0x15, 0x18, 0x1E, 0x29, 0x33, 0x55, 0x65]) ∧
    (∀ i, decode op = some i →
      (∀ op' : Opcode, op' % 65536 = op % 65536 → decode op' = some ⟨i.operation, op'⟩) ∧
      ((instructionSet.filter (·.matchedBy op)).map (·.operation) =
        if w = 0x00E0 then [.clear, .sys] else if w = 0x00EE then [.ret, .sys]
        else [i.operation]) ∧
      (w = 0x00E0 → i.operation = .clear) ∧ (w = 0x00EE → i.operation = .ret) ∧
      (i.x < 16 ∧ i.y < 16 ∧ i.n < 16) ∧
      (i.kk = 16 * i.y + i.n ∧ i.nnn = 256 * i.x + i.kk ∧ w = 4096 * (w / 4096) + i.nnn) ∧
      i.opcode = op) ∧
    (scan instructionSet op = decode op ∧
      ∀ rows : List Row, rows.Perm instructionSet →
        [⟨.clear, .whole 0x00E0⟩, ⟨.sys, .top 0x0⟩].Sublist rows →
        [⟨.ret, .whole 0x00EE⟩, ⟨.sys, .top 0x0⟩].Sublist rows →
        scan rows op = decode op) ∧
    ∀ m : Machine, SameDeed op w (m.execute op) (m.execute w) := by
  intro w
  refine ⟨decode_eq_none_cases op, ?_, ⟨scan_instructionSet op, ?_⟩, ?_⟩
  · intro i hdec
    obtain rfl := opcode_of_decode hdec
    have hrows : (matching i.opcode).map (·.operation) =
        if w = 0x00E0 then [.clear, .sys] else if w = 0x00EE then [.ret, .sys]
        else [i.operation] := matching_operations hdec
    have hfirst := head?_matching hdec
    rw [← List.head?_map, hrows] at hfirst
    refine ⟨?_, hrows, ?_, ?_, ?_, ?_, rfl⟩
    · intro op' hsame
      exact decode_of_word (congrArg Int.toNat hsame).symm hdec
    · intro hw
      rw [if_pos hw] at hfirst
      exact (Option.some.inj hfirst).symm
    · intro hw
      rw [if_neg (by omega), if_pos hw] at hfirst
      exact (Option.some.inj hfirst).symm
    · exact ⟨i.opcode.x_lt, i.opcode.y_lt, i.opcode.n_lt⟩
    · exact ⟨i.opcode.kk_eq, i.opcode.nnn_eq, i.opcode.word_eq⟩
  · intro rows hperm hclear hret
    exact scan_reordered hperm hclear hret op
  · exact execute_congr op.word_word.symm

/-- A negative opcode whose word is that of a return, and another one with that word; a table
    that begins behind the row of `sys`. -/
theorem return_of_negative_opcode :
    let op : Opcode := -0xFF12
    let rows := instructionSet.drop 3 ++ instructionSet.take 3
    decode op = some ⟨.ret, op⟩ ∧ decode 0x300EE = some ⟨.ret, 0x300EE⟩ ∧
      (instructionSet.filter (·.matchedBy op)).map (·.operation) = [.ret, .sys] ∧
      rows.Perm instructionSet ∧ scan rows op = decode op := by
  intro op rows
  have hdec : decode op = some ⟨.ret, op⟩ := by decide
  have hperm : rows.Perm instructionSet := List.perm_append_comm
  obtain ⟨_, hsome, ⟨_, horder⟩, _⟩ := decoding_is_exact op
  obtain ⟨hother, hrows, _⟩ := hsome ⟨.ret, op⟩ hdec
  refine ⟨hdec, hother 0x300EE (by decide), hrows.trans (by decide), hperm, ?_⟩
  exact horder rows hperm (by decide) (by decide)

end Chip8
