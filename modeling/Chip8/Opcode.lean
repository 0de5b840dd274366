/-! # Opcodes

    An opcode is an integer of any size and sign.  Only its residue modulo 2¹⁶, its
    **word**, decides which instruction it is; the operand fields are read off the
    four nibbles of the word, `a x y n` from the top:

    * `kk` is the low byte `16·y + n`,
    * `nnn` is the low twelve bits `256·x + kk`. -/

namespace Chip8

/-- A machine code as fetched, or as handed in from outside: an unbounded integer. -/
abbrev Opcode := Int

namespace Opcode

/-- The sixteen bits that carry meaning. -/
def word (op : Opcode) : Nat := (op % 65536).toNat

/-- The top nibble, which tells the families of instructions apart. -/
def family (op : Opcode) : Nat := op.word / 4096

def x (op : Opcode) : Nat := op.word / 256 % 16

def y (op : Opcode) : Nat := op.word / 16 % 16

def n (op : Opcode) : Nat := op.word % 16

/-- The byte operand. -/
def kk (op : Opcode) : Nat := op.word % 256

/-- The address operand. -/
def nnn (op : Opcode) : Nat := op.word % 4096

/-! ## Ranges and how the fields fit together -/

theorem word_lt (op : Opcode) : op.word < 65536 := by
  unfold word; omega

theorem family_lt (op : Opcode) : op.family < 16 := by
  have := op.word_lt; unfold family; omega

theorem x_lt (op : Opcode) : op.x < 16 := by unfold x; omega

theorem y_lt (op : Opcode) : op.y < 16 := by unfold y; omega

theorem n_lt (op : Opcode) : op.n < 16 := by unfold n; omega

theorem kk_lt (op : Opcode) : op.kk < 256 := by unfold kk; omega

theorem nnn_lt (op : Opcode) : op.nnn < 4096 := by unfold nnn; omega

theorem kk_eq (op : Opcode) : op.kk = 16 * op.y + op.n := by
  unfold kk y n; omega

theorem nnn_eq (op : Opcode) : op.nnn = 256 * op.x + op.kk := by
  unfold nnn x kk; omega

theorem word_eq (op : Opcode) : op.word = 4096 * op.family + op.nnn := by
  unfold family nnn; omega

/-- A word is its own word: the mask has nothing left to cut off. -/
theorem word_word (op : Opcode) : word (op.word : Int) = op.word := by
  have := op.word_lt; unfold word at *; omega

end Opcode

end Chip8
