import Chip8.Proofs.Instruction.Texts
import Chip8.Proofs.Machine.Step

/-! # What a trace line tells

    A line of the trace tells the address and the text of an instruction
    (**`line_trace_eq_iff`**), and the text tells what was carried out.  For the text leaves one
    thing open, the second register of a shift, and a shift does not depend on it
    (**`SameShift.execute`**). -/

namespace Chip8

open Machine

/-! ## Lines -/

namespace Log.Entry

variable {pc pc' : Int} {i j : Instruction}

theorem toList_text_trace (pc : Int) (i : Instruction) :
    (trace pc i).text.toList = Hex.paddedChars 3 pc ++ ':' :: ' ' :: i.mnemonic.toList := by
  have hmark : ": ".toList = [':', ' '] := by decide
  show (Hex.padded 3 pc ++ ": " ++ i.mnemonic).toList = _
  rw [Hex.padded, String.toList_append, String.toList_append, String.toList_ofList, hmark,
    List.append_assoc]
  rfl

/-- The address ends at the first colon. -/
theorem takeWhile_text_trace (pc : Int) (i : Instruction) :
    (trace pc i).text.toList.takeWhile (· ≠ ':') = Hex.paddedChars 3 pc := by
  have hall : ∀ c ∈ Hex.paddedChars 3 pc, decide (c ≠ ':') = true := by
    intro c hc
    rw [decide_eq_true_iff]
    rintro rfl
    exact Hex.colon_notMem_paddedChars 3 pc hc
  rw [toList_text_trace, List.takeWhile_append_of_pos hall]
  exact List.append_nil _

theorem text_trace_inj (h : (trace pc i).text = (trace pc' j).text) :
    pc = pc' ∧ i.mnemonic = j.mnemonic := by
  have hpc : Hex.paddedChars 3 pc = Hex.paddedChars 3 pc' := by
    rw [← takeWhile_text_trace pc i, h, takeWhile_text_trace]
  have hrest := congrArg String.toList h
  rw [toList_text_trace, toList_text_trace, hpc, List.append_cancel_left_eq, List.cons.injEq,
    List.cons.injEq] at hrest
  exact ⟨Hex.paddedChars_injective 3 hpc, String.toList_inj.1 hrest.2.2⟩

/-- **A LINE OF THE TRACE TELLS THE ADDRESS AND THE TEXT.** -/
theorem line_trace_eq_iff :
    (trace pc i).line = (trace pc' j).line ↔ pc = pc' ∧ i.mnemonic = j.mnemonic := by
  constructor
  · intro hline
    let front := Level.debug.name ++ " " ++ Source.processor.name ++ ": "
    have htext : (trace pc i).text = (trace pc' j).text := (String.append_right_inj front).1 hline
    exact text_trace_inj htext
  · rintro ⟨rfl, hmnemonic⟩
    exact line_trace hmnemonic pc

end Log.Entry

/-! ## Shifts -/

variable {op op' : Opcode} {i j : Instruction}

namespace SameShift

/-- A shift reads and sets its first register only. -/
theorem effect_eq {o : Operation} (ho : o = .shr ∨ o = .shl) (hx : op.x = op'.x) (m : Machine) :
    Instruction.effect ⟨o, op⟩ m = Instruction.effect ⟨o, op'⟩ m := by
  rcases ho with rfl | rfl
  · exact congrArg (fun r => (m.withRegister flagRegister
      (decide (m.registers.get r % 2 = 1)).toNat).withRegister r (m.registers.get r / 2)) hx
  · exact congrArg (fun r => (m.withRegister flagRegister
      (decide (128 ≤ m.registers.get r)).toNat).withRegister r (2 * m.registers.get r % 256)) hx

/-- **THE SAME SHIFT OF THE SAME REGISTER IS CARRIED OUT ALIKE.** -/
theorem execute (h : SameShift op op') {m : Machine} (hm : m.WellFormed) :
    SameDeed op op' (m.execute op) (m.execute op') := by
  obtain ⟨o, ho, hdec, hdec'⟩ := h.decode_eq
  have hfault (op : Opcode) : Instruction.stackFault? ⟨o, op⟩ m = none := by
    rcases ho with rfl | rfl <;> rfl
  have hnotes (op : Opcode) : Instruction.notes ⟨o, op⟩ = [] := by
    rcases ho with rfl | rfl <;> rfl
  have hline := Log.Entry.line_trace (h.mnemonic_eq hdec hdec') m.pc
  rw [execute_of_decode hm hdec (hfault op), execute_of_decode hm hdec' (hfault op'),
    effect_eq ho h.x_eq, hnotes, hnotes]
  exact ⟨rfl, congrArg (· :: []) hline, Or.inl rfl⟩

end SameShift

/-! ## Mnemonics identify instructions -/

theorem Opcode.word_eq_iff : op.word = op'.word ↔ op % 65536 = op' % 65536 := by
  have hword (op : Opcode) : (op.word : Int) = op % 65536 :=
    Int.toNat_of_nonneg (Int.emod_nonneg op (by decide))
  constructor
  · intro h
    rw [← hword, h, hword]
  · exact fun h => congrArg Int.toNat h

/-- **MNEMONICS IDENTIFY INSTRUCTIONS.**  For any two opcodes `a` and `b` that are instructions:

    * they have the same text exactly if they agree modulo 2¹⁶, or are both `8xy6` or both `8xyE`
      with the same `x`;
    * if they have the same text then on every well-formed machine carrying out the one and
      carrying out the other come to the same, but for the opcode that a fault carries;
    * their lines in the trace are the same exactly if the addresses and the texts are.  So the
      line tells what was carried out, and where. -/
theorem mnemonics_identify {a b : Opcode} (hdec : decode a = some i) (hdec' : decode b = some j) :
    (i.mnemonic = j.mnemonic ↔ a % 65536 = b % 65536 ∨
      ((a.fits (.ends 0x8 0x6) ∧ b.fits (.ends 0x8 0x6) ∨
        a.fits (.ends 0x8 0xE) ∧ b.fits (.ends 0x8 0xE)) ∧ a.x = b.x)) ∧
    (i.mnemonic = j.mnemonic → ∀ m : Machine, m.WellFormed →
      SameDeed a b (m.execute a) (m.execute b)) ∧
    ∀ pc pc' : Int, (Log.Entry.trace pc i).line = (Log.Entry.trace pc' j).line ↔
      pc = pc' ∧ i.mnemonic = j.mnemonic := by
  have hshift : SameShift a b ↔ (a.fits (.ends 0x8 0x6) ∧ b.fits (.ends 0x8 0x6) ∨
      a.fits (.ends 0x8 0xE) ∧ b.fits (.ends 0x8 0xE)) ∧ a.x = b.x :=
    ⟨fun h => ⟨h.shift, h.x_eq⟩, fun h => ⟨h.1, h.2⟩⟩
  have hsame := mnemonic_eq_iff hdec hdec'
  refine ⟨?_, ?_, fun _ _ => Log.Entry.line_trace_eq_iff⟩
  · rw [hsame, Opcode.word_eq_iff, hshift]
  · intro hmnemonic m hm
    rcases hsame.1 hmnemonic with hword | hshift
    · exact execute_congr hword m
    · exact hshift.execute hm

/-- Two shifts of one register, the second opcode beyond sixteen bits and with another `y`. -/
theorem shifts_of_one_register :
    decode 0x8126 = some ⟨.shr, 0x8126⟩ ∧ decode 0x18136 = some ⟨.shr, 0x18136⟩ ∧
      (0x8126 : Int) % 65536 ≠ 0x18136 % 65536 ∧
      Instruction.mnemonic ⟨.shr, 0x8126⟩ = Instruction.mnemonic ⟨.shr, 0x18136⟩ ∧
      ∀ m : Machine, m.WellFormed →
        SameDeed 0x8126 0x18136 (m.execute 0x8126) (m.execute 0x18136) := by
  have hdec : decode 0x8126 = some ⟨.shr, 0x8126⟩ := by decide
  have hdec' : decode 0x18136 = some ⟨.shr, 0x18136⟩ := by decide
  obtain ⟨hiff, hdeed, _⟩ := mnemonics_identify hdec hdec'
  have hmnemonic := hiff.2 (Or.inr ⟨Or.inl ⟨by decide, by decide⟩, by decide⟩)
  exact ⟨hdec, hdec', by decide, hmnemonic, hdeed hmnemonic⟩

end Chip8
