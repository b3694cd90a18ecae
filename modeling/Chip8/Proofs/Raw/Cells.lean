import Chip8.Keypad
import Chip8.Memory
import Chip8.Screen

/-!
# Cells

A machine of the simplest kind keeps its state in arrays of fixed length and words of fixed
width. An array has nothing at a place past its end, and a sum, a product or a shift may come
out too wide for the word that is to hold it. `Chip8.Checked` has the operations that such a
machine is made of; each of them has no result in that case.

The rest of the file says how the keypad, the memory and the screen lie in cells: the keypad
is a word with one bit for each key (`Chip8.Keypad.bits`), the memory is an array of bytes
already, and a pixel is a byte, which should be zero or one (`Chip8.Screen.bytes`).
-/

namespace Chip8

/-! ### Checked operations -/

namespace Checked

variable {α : Type} {n : Nat}

/-- A number, if it is below a limit. -/
def fit (limit number : Nat) : Option Nat := if number < limit then some number else none

/-- The sum of two addresses, if it is an address; those of the host have sixty-four bits. -/
def sum (a b : Nat) : Option Nat := fit UInt64.size (a + b)

/-- The product of two addresses, if it is an address. -/
def product (a b : Nat) : Option Nat := fit UInt64.size (a * b)

/-- The difference of two addresses, if it is an address. -/
def difference (a b : Nat) : Option Nat := if b ≤ a then some (a - b) else none

/-- A byte shifted to the right by less than its width. -/
def shiftRight (byte : UInt8) (amount : Nat) : Option UInt8 :=
  if amount < 8 then some (byte >>> UInt8.ofNat amount) else none

/-- One shifted to the left by less than the width of a word. -/
def bit (amount : Nat) : Option UInt16 :=
  if amount < 16 then some (1 <<< UInt16.ofNat amount) else none

/-- The array with an entry put in a place. -/
def set (v : Vector α n) (place : Nat) (entry : α) : Option (Vector α n) :=
  if h : place < n then some (v.set place entry) else none

/-- The first entries of an array. -/
def front (v : Vector α n) (count : Nat) : Option (List α) :=
  if count ≤ n then some (v.toList.take count) else none

/-- The array with entries put in the places from a first one on. -/
def copy (v : Vector α n) (first : Nat) (entries : List α) : Option (Vector α n) :=
  if first + entries.length ≤ n then
    some (.ofFn fun k => if first ≤ k.val then entries[k.val - first]?.getD v[k] else v[k])
  else none

theorem fit_of_lt {limit number : Nat} (h : number < limit) : fit limit number = some number :=
  if_pos h

/-- Sums of addresses of sixteen bits are addresses. -/
theorem sum_of_narrow {a b : Nat} (ha : a < 65536) (hb : b < 65536) : sum a b = some (a + b) :=
  fit_of_lt (Nat.lt_trans (Nat.add_lt_add ha hb) (by decide))

/-- Products of addresses of sixteen bits are addresses. -/
theorem product_of_narrow {a b : Nat} (ha : a < 65536) (hb : b < 65536) :
    product a b = some (a * b) :=
  fit_of_lt (Nat.lt_trans (Nat.mul_lt_mul'' ha hb) (by decide))

theorem bit_of_lt {amount : Nat} (h : amount < 16) :
    bit amount = some (1 <<< UInt16.ofNat amount) :=
  if_pos h

/-- A bit of a byte is clear when the byte, shifted by it, is even. -/
theorem shiftRight_and_one {byte : UInt8} {amount : Nat} (h : amount < 8) :
    byte >>> UInt8.ofNat amount &&& 1 = 0 ↔ byte.toNat.testBit amount = false := by
  have narrow : (UInt8.ofNat amount).toNat = amount :=
    UInt8.toNat_ofNat_of_lt' (Nat.lt_trans h (by decide))
  rw [← UInt8.toNat_inj, UInt8.toNat_and, UInt8.toNat_shiftRight, narrow, Nat.mod_eq_of_lt h,
    Nat.testBit, bne_eq_false_iff_eq, Nat.and_comm]
  rfl

theorem set_of_lt {v : Vector α n} {place : Nat} (h : place < n) (entry : α) :
    set v place entry = some (v.set place entry) :=
  dif_pos h

/-! ### Loops of checked operations -/

/-- A loop whose steps have a result wherever they start has one. -/
theorem foldlM_eq_some {β : Type} {f : β → α → Option β} {g : β → α → β} {l : List α}
    (step : ∀ a ∈ l, ∀ b, f b a = some (g b a)) (b : β) :
    l.foldlM f b = some (l.foldl g b) := by
  induction l generalizing b with
  | nil => rfl
  | cons a l ih =>
    rw [List.forall_mem_cons] at step
    rw [List.foldlM_cons, step.1, Option.bind_eq_bind, Option.bind_some, ih step.2,
      List.foldl_cons]

/-- A loop whose steps lead from one state to the next has a result, the last state. -/
theorem foldlM_range {f : α → Nat → Option α} (state : Nat → α) (count : Nat)
    (step : ∀ k < count, f (state k) k = some (state (k + 1))) :
    (List.range count).foldlM f (state 0) = some (state count) := by
  induction count with
  | zero => rfl
  | succ count ih =>
    rw [List.range_succ, List.foldlM_append, ih fun k h => step k (Nat.lt_succ_of_lt h)]
    simp [step count (Nat.lt_succ_self count)]

end Checked

/-! ### The keypad -/

namespace Keypad

/-- The keypad as a word, with the bits of the keys that are down. -/
def bits (p : Keypad) : UInt16 := UInt16.ofNat p.mask

theorem getLsbD_bits (p : Keypad) (place : Nat) :
    p.bits.toBitVec.getLsbD place = p.isDown place := by
  rw [bits, UInt16.toBitVec_ofNat', BitVec.getLsbD_ofNat, testBit_mask]
  by_cases small : place < 16
  · simp [small]
  · simp [isDown, small]

/-- The word of a single key has one bit. -/
theorem toBitVec_bit {code : Nat} (h : code < 16) :
    (1 <<< UInt16.ofNat code : UInt16).toBitVec = BitVec.twoPow 16 code := by
  have narrow : (UInt16.ofNat code).toNat = code :=
    UInt16.toNat_ofNat_of_lt' (Nat.lt_trans h (by decide))
  apply BitVec.eq_of_toNat_eq
  rw [UInt16.toNat_toBitVec, UInt16.toNat_shiftLeft, BitVec.toNat_twoPow, narrow,
    Nat.mod_eq_of_lt h, UInt16.toNat_one, Nat.one_shiftLeft]

/-- To press a key is to set its bit. -/
theorem bits_set_true (p : Keypad) {code : Nat} (h : code < 16) :
    (p.set code true).bits = p.bits ||| 1 <<< UInt16.ofNat code := by
  apply UInt16.eq_of_toBitVec_eq
  apply BitVec.eq_of_getLsbD_eq
  intro place small
  rw [UInt16.toBitVec_or, BitVec.getLsbD_or, getLsbD_bits, getLsbD_bits, isDown_set,
    toBitVec_bit h, BitVec.getLsbD_twoPow]
  by_cases here : code = place <;> simp [here, h, small]

/-- To release a key is to clear its bit. -/
theorem bits_set_false (p : Keypad) {code : Nat} (h : code < 16) :
    (p.set code false).bits = p.bits &&& ~~~(1 <<< UInt16.ofNat code) := by
  apply UInt16.eq_of_toBitVec_eq
  apply BitVec.eq_of_getLsbD_eq
  intro place small
  rw [UInt16.toBitVec_and, UInt16.toBitVec_not, BitVec.getLsbD_and, BitVec.getLsbD_not,
    getLsbD_bits, getLsbD_bits, isDown_set, toBitVec_bit h, BitVec.getLsbD_twoPow]
  by_cases here : code = place <;> simp [here, h, small]

/-- A key is down when its bit is set. -/
theorem bits_and_bit (p : Keypad) {code : Nat} (h : code < 16) :
    (p.bits &&& 1 <<< UInt16.ofNat code != 0) = p.isDown code := by
  have word : (p.bits &&& 1 <<< UInt16.ofNat code).toBitVec =
      if p.isDown code then BitVec.twoPow 16 code else 0#16 := by
    rw [UInt16.toBitVec_and, toBitVec_bit h, BitVec.and_twoPow, getLsbD_bits]
  have lit : BitVec.twoPow 16 code ≠ 0#16 := by
    intro zero
    have bit := congrArg (·.getLsbD code) zero
    simp [h] at bit
  rw [Bool.eq_iff_iff, bne_iff_ne, ne_eq, ← UInt16.toBitVec_inj, word]
  cases p.isDown code <;> simp [lit]

@[simp] theorem bits_released : released.bits = 0 := by decide +kernel

/-- Some key is down exactly when the word is not zero. -/
theorem lt_bits_iff (p : Keypad) : 0 < p.bits ↔ p.anyDown = true := by
  rw [anyDown_iff, UInt16.lt_iff_toNat_lt, UInt16.toNat_zero, Nat.pos_iff_ne_zero]
  constructor
  · intro lit
    obtain ⟨place, bit⟩ := Nat.exists_testBit_of_ne_zero lit
    have down : p.isDown place = true := by
      rw [← getLsbD_bits]
      exact bit
    obtain ⟨k, -, down⟩ := isDown_eq_true_iff.mp down
    exact ⟨k, down⟩
  · rintro ⟨k, down⟩ zero
    have bit := p.getLsbD_bits k.val
    rw [down, BitVec.getLsbD, UInt16.toNat_toBitVec, zero, Nat.zero_testBit] at bit
    contradiction

end Keypad

/-! ### The memory -/

/-- To copy bytes into the array of a memory is to write them, if they do not run past its
end. -/
theorem Memory.copy_cells (m : Memory) {first : Nat} {bytes : List UInt8}
    (fits : first + bytes.length ≤ 4096) :
    Checked.copy m.cells first bytes = some (m.writeBytes first bytes).cells := by
  rw [Checked.copy, if_pos fits, Option.some.injEq]
  ext k small
  have cell (m : Memory) : m.cells[k] = m.read k := by simp [read, Nat.mod_eq_of_lt small]
  rw [cell (m.writeBytes first bytes), m.read_writeBytes first k bytes (by omega),
    Vector.getElem_ofFn]
  -- Before the first place, the way round the memory is longer than the block.
  by_cases behind : first ≤ k
  · have place : distance first k = k - first := by
      unfold distance
      omega
    simp [behind, place, cell]
  · have place : bytes.length ≤ distance first k := by
      unfold distance
      omega
    simp [behind, place, cell]

/-! ### The screen -/

namespace Screen

/-- The screen as bytes, one for each pixel and lit. -/
def bytes (s : Screen) : Vector UInt8 2048 := s.pixels.map fun lit => if lit then 1 else 0

/-- Toggle a pixel among bytes, and tell whether it was lit; past the last one, do nothing. -/
def plot (pixels : Vector UInt8 2048) (point : Nat) : Vector UInt8 2048 × Bool :=
  if h : point < 2048 then (pixels.set point (pixels[point] ^^^ 1), pixels[point] == 1)
  else (pixels, false)

@[simp] theorem bytes_blank : blank.bytes = Vector.replicate 2048 0 := by
  simp [bytes, blank]

theorem plot_bytes (s : Screen) (point : Nat) :
    plot s.bytes point = ((s.toggle point).bytes, s.isLit point) := by
  unfold plot toggle
  split
  case isTrue h =>
    have lit : s.isLit point = s.pixels[point] := by simp [isLit, h]
    rw [lit]
    cases px : s.pixels[point] <;> simp [bytes, px, Vector.map_set]
  case isFalse h => simp [isLit, h]

end Screen

end Chip8
