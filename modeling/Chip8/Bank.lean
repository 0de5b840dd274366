import Chip8.Number.Word

/-! # Banks of bytes

    A bank is a row of byte cells addressed by integers.  Nothing about an access is
    taken on trust: reading or writing a cell that is not there fails, and so does
    writing a value that is not a byte.  Addresses count from the front, and negative
    ones from the back, so `-1` is the last cell.  Whole stretches are replaced by
    `splice`, which changes the length when the new stretch is not as long as the old. -/

namespace Chip8

/-- A row of byte cells. -/
structure Bank where
  cells : Array UInt8
  deriving DecidableEq, Repr

namespace Bank

/-- Why an access to a bank fails. -/
inductive Error where
  /-- There is no cell with this address. -/
  | address
  /-- The value is not a byte. -/
  | value
  /-- The address is no machine word, so no bank has a cell there. -/
  | beyond
  deriving DecidableEq, Repr

/-- A bank of zeros. -/
def zeros (size : Nat) : Bank := ⟨Array.replicate size 0⟩

/-- The number of cells. -/
def size (b : Bank) : Nat := b.cells.size

/-- The cell that an address names, counted from the front. -/
def slot? (b : Bank) (address : Int) : Option Nat :=
  let fromFront := if address < 0 then address + b.size else address
  if 0 ≤ fromFront ∧ fromFront < b.size then some fromFront.toNat else none

/-- Why an address names no cell. -/
def missing (address : Int) : Error :=
  if Word.holds address then .address else .beyond

/-- Whether a value is a byte. -/
def isByte (value : Int) : Bool := 0 ≤ value && value < 256

/-- The value of a cell. -/
def read (b : Bank) (address : Int) : Except Error Nat :=
  match b.slot? address with
  | none   => .error (missing address)
  | some i =>
      match b.cells[i]? with
      | none      => .error .address
      | some cell => .ok cell.toNat

/-- The bank with one cell replaced.  Of several faults, an address that is no machine word
    comes first, and an address without a cell last. -/
def write (b : Bank) (address value : Int) : Except Error Bank :=
  match b.slot? address, isByte value with
  | some i, true  => .ok ⟨b.cells.setIfInBounds i (UInt8.ofNat value.toNat)⟩
  | some _, false => .error .value
  | none,   true  => .error (missing address)
  | none,   false => .error (if missing address = .beyond then .beyond else .value)

/-- The bank with the cells from `start` up to `stop` replaced by `bytes`.  Bounds past the
    end stand for the end. -/
def splice (b : Bank) (start stop : Nat) (bytes : List UInt8) : Bank :=
  ⟨b.cells.extract 0 start ++ bytes.toArray ++ b.cells.extract (max start stop) b.size⟩

/-- The cells from `start` up to `stop`, as far as they exist. -/
def slice (b : Bank) (start stop : Nat) : List UInt8 :=
  (b.cells.extract start stop).toList

/-! ## The cells seen as a sequence of numbers -/

/-- The value of the cell with a number counted from the front, zero where there is none. -/
def get (b : Bank) (i : Nat) : Nat := (b.cells.getD i 0).toNat

theorem get_lt (b : Bank) (i : Nat) : b.get i < 256 := UInt8.toNat_lt _

theorem size_zeros (n : Nat) : (zeros n).size = n := by simp [zeros, size]

theorem get_zeros (n i : Nat) : (zeros n).get i = 0 := by
  by_cases h : i < n <;> simp [zeros, get, h]

/-- Replacing a stretch within the bank by another of the same length keeps the size. -/
theorem size_splice {b : Bank} {start stop : Nat} {bytes : List UInt8} (hstop : stop ≤ b.size)
    (hlen : start + bytes.length = stop) : (b.splice start stop bytes).size = b.size := by
  simp only [splice, size, Array.size_append, Array.size_extract, List.size_toArray] at hstop ⊢
  omega

/-- What a bank holds after a stretch within it was replaced by another of its length. -/
theorem get_splice {b : Bank} {start stop : Nat} {bytes : List UInt8} (hstop : stop ≤ b.size)
    (hlen : start + bytes.length = stop) (i : Nat) :
    (b.splice start stop bytes).get i =
      if start ≤ i ∧ i < stop then (bytes.getD (i - start) 0).toNat else b.get i := by
  have hsize : stop ≤ b.cells.size := hstop
  have hmin : min start b.cells.size = start := by omega
  have hmax : max start stop = stop := by omega
  simp only [splice, get, size, hmax, Array.getD_eq_getD_getElem?, Array.getElem?_append,
    Array.size_append, Array.size_extract, List.size_toArray, Array.getElem?_extract,
    List.getElem?_toArray, hmin, Nat.sub_zero, Nat.zero_add, List.getD_eq_getElem?_getD]
  by_cases hlo : i < start
  · have hin : i < start + bytes.length := by omega
    have hout : ¬ (start ≤ i ∧ i < stop) := by omega
    simp only [hin, hlo, hout, if_true, if_false]
  · by_cases hhi : i < stop
    · have hin : i < start + bytes.length := by omega
      have hmid : start ≤ i ∧ i < stop := by omega
      simp only [hin, hlo, hmid, and_self, if_true, if_false]
    · have hback : stop + (i - (start + bytes.length)) = i := by omega
      have hout : ¬ i < start + bytes.length := by omega
      have hmid : ¬ (start ≤ i ∧ i < stop) := by omega
      simp only [hout, hmid, if_false, hback, Nat.min_self]
      by_cases hend : i < b.cells.size
      · rw [if_pos (by omega)]
      · rw [if_neg (by omega), Array.getElem?_eq_none (by omega)]

/-- A stretch within the bank is known from its cells. -/
theorem slice_eq {b : Bank} {start : Nat} {bytes : List UInt8}
    (hstop : start + bytes.length ≤ b.size)
    (hcells : ∀ i < bytes.length, b.get (start + i) = (bytes.getD i 0).toNat) :
    b.slice start (start + bytes.length) = bytes := by
  have hsize : start + bytes.length ≤ b.cells.size := hstop
  have hlen : (b.slice start (start + bytes.length)).length = bytes.length := by
    simp only [slice, Array.length_toList, Array.size_extract]
    omega
  refine List.ext_getElem hlen fun i _ hi => UInt8.toNat_inj.1 ?_
  have hin : start + i < b.cells.size := by omega
  have hcell := hcells i hi
  simp only [get, Array.getD_eq_getD_getElem?, Array.getElem?_eq_getElem hin, Option.getD_some,
    List.getD_eq_getElem?_getD, List.getElem?_eq_getElem hi] at hcell
  simpa [slice] using hcell

/-- An address within the bank names the cell with its own number. -/
theorem slot?_of_lt {b : Bank} {a : Int} (h₀ : 0 ≤ a) (h : a < b.size) :
    b.slot? a = some a.toNat := by
  have hneg : ¬ a < 0 := by omega
  simp only [slot?, hneg, if_false]
  rw [if_pos ⟨h₀, h⟩]

/-- Reading within the bank succeeds, with the value of the cell. -/
theorem read_of_lt {b : Bank} {a : Int} (h₀ : 0 ≤ a) (h : a < b.size) :
    b.read a = .ok (b.get a.toNat) := by
  have hi : a.toNat < b.cells.size := by unfold size at h; omega
  simp [read, slot?_of_lt h₀ h, get, hi]

/-- The bank with the cell that has a number replaced by the low byte of a value. -/
def put (b : Bank) (i value : Nat) : Bank := ⟨b.cells.setIfInBounds i (UInt8.ofNat value)⟩

@[simp] theorem size_put (b : Bank) (i value : Nat) : (b.put i value).size = b.size := by
  simp [put, size]

theorem get_put_of_ne (b : Bank) {i j : Nat} (h : j ≠ i) (value : Nat) :
    (b.put i value).get j = b.get j := by
  simp [put, get, Array.getD_eq_getD_getElem?, Array.getElem?_setIfInBounds_ne h.symm]

theorem get_put (b : Bank) {i : Nat} (h : i < b.size) (value j : Nat) :
    (b.put i value).get j = if j = i then value % 256 else b.get j := by
  have hi : i < b.cells.size := h
  by_cases hj : j = i
  · subst hj
    simp [put, get, hi]
  · rw [get_put_of_ne b hj, if_neg hj]

/-- Writing a byte within the bank succeeds, and replaces the cell. -/
theorem write_of_lt {b : Bank} {a v : Int} (h₀ : 0 ≤ a) (h : a < b.size)
    (hv : 0 ≤ v ∧ v < 256) : b.write a v = .ok (b.put a.toNat v.toNat) := by
  have hbyte : isByte v = true := by simp [isByte, hv]
  rw [write, slot?_of_lt h₀ h, hbyte]
  rfl

/-- Writing keeps the size. -/
theorem size_of_write {b b' : Bank} {a v : Int} (h : b.write a v = .ok b') :
    b'.size = b.size := by
  unfold write at h
  split at h
  · cases h; simp [size]
  · cases h
  · cases h
  · cases h

/-- Writing a value changes the cell it goes to, and no other. -/
theorem get_of_write {b b' : Bank} {a v : Int} (h₀ : 0 ≤ a) (h : a < b.size)
    (hv : 0 ≤ v ∧ v < 256) (hw : b.write a v = .ok b') (i : Nat) :
    b'.get i = if i = a.toNat then v.toNat else b.get i := by
  have hput : b.put a.toNat v.toNat = b' := Except.ok.inj ((write_of_lt h₀ h hv).symm.trans hw)
  have hbyte : v.toNat % 256 = v.toNat := Nat.mod_eq_of_lt (by omega)
  rw [← hput, get_put b (by omega), hbyte]

end Bank

end Chip8
