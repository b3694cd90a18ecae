import Chip8.Proofs.Decoding
import Chip8.Proofs.Frame
import Mathlib.Data.Int.ModEq

/-!
# Results and flags

Five operations on two registers have a flag besides their result. This file says of each what
the two are as numbers (`Chip8.Arithmetic.Yields`): the flag of a sum is the ninth bit of it, that
of a difference tells which operand is the greater, and that of a shift is the bit that is lost.

The main statement, `Chip8.Machine.flag_gives_way`, is where they go. It matters that the operands
are looked at before anything is written, and that the flag is written before the result: the flag
register may be an operand, and if the result goes there, it is the flag that is lost.
-/

namespace Chip8

/-! ### Operations on bytes -/

/-- What operations with a flag yield, for the values of two registers; the other ones yield no
flag. -/
def Arithmetic.Yields (shift : ShiftRule) (a b result : UInt8) (flag : Bool) : Arithmetic → Prop
  | add => 256 * flag.toNat + result.toNat = a.toNat + b.toNat
  | subtract => result.toNat ≡ (a.toNat - b.toNat : Int) [ZMOD 256] ∧
      (flag = true ↔ b.toNat < a.toNat)
  | shiftRight => 2 * result.toNat + flag.toNat = (if shift = .legacy then b else a).toNat
  | subtractFrom => result.toNat ≡ (b.toNat - a.toNat : Int) [ZMOD 256] ∧
      (flag = true ↔ a.toNat < b.toNat)
  | shiftLeft => 256 * flag.toNat + result.toNat = 2 * (if shift = .legacy then b else a).toNat
  | copy | or | and | xor => False

namespace Arithmetic

theorem toNat_add_carry (a b : UInt8) :
    256 * (decide (256 ≤ a.toNat + b.toNat)).toNat + (a + b).toNat = a.toNat + b.toNat := by
  have := a.toNat_lt
  have := b.toNat_lt
  rw [UInt8.toNat_add]
  by_cases carries : 256 ≤ a.toNat + b.toNat
  · simp only [carries, decide_true, Bool.toNat_true]
    omega
  · simp only [carries, decide_false, Bool.toNat_false]
    omega

theorem toNat_sub_modEq (a b : UInt8) :
    (a - b).toNat ≡ (a.toNat - b.toNat : Int) [ZMOD 256] := by
  have := a.toNat_lt
  have := b.toNat_lt
  rw [UInt8.toNat_sub]
  unfold Int.ModEq
  omega

/-- A bit that is compared with one is the number that it is. -/
theorem toNat_beq_one {bit : UInt8} (small : bit.toNat < 2) : (bit == 1).toNat = bit.toNat := by
  by_cases set : bit = 1
  · rw [set]
    rfl
  · have zero : bit.toNat = 0 := by
      have other : bit.toNat ≠ 1 := fun one => set (UInt8.toNat_inj.mp one)
      omega
    rw [zero, beq_false_of_ne set]
    rfl

/-- A shift to the right loses the last bit. -/
theorem toNat_shiftRight_lost (s : UInt8) :
    2 * (s >>> 1).toNat + (s &&& 1 == 1).toNat = s.toNat := by
  have half : (s >>> 1).toNat = s.toNat / 2 := by
    rw [UInt8.toNat_shiftRight]
    exact Nat.shiftRight_eq_div_pow _ 1
  have last : (s &&& 1).toNat = s.toNat % 2 := by
    rw [UInt8.toNat_and]
    exact Nat.and_one_is_mod _
  rw [toNat_beq_one (by omega), half, last]
  omega

/-- A shift to the left loses the first bit. -/
theorem toNat_shiftLeft_lost (s : UInt8) :
    256 * (s >>> 7 == 1).toNat + (s <<< 1).toNat = 2 * s.toNat := by
  have := s.toNat_lt
  have first : (s >>> 7).toNat = s.toNat / 128 := by
    rw [UInt8.toNat_shiftRight]
    exact Nat.shiftRight_eq_div_pow _ 7
  have double : (s <<< 1).toNat = s.toNat * 2 % 256 := by
    rw [UInt8.toNat_shiftLeft]
    exact congrArg (· % 256) (Nat.shiftLeft_eq _ 1)
  rw [toNat_beq_one (by omega), first, double]
  omega

theorem operand_eq (shift : ShiftRule) (a b : UInt8) :
    shift.operand a b = if shift = .legacy then b else a := by
  cases shift <;> rfl

/-- **What is computed for an operation with a flag is what it yields.** -/
theorem apply_yields {operation : Arithmetic} (flagged : operation.hasFlag = true)
    (shift : ShiftRule) (a b : UInt8) :
    ∃ result flag, operation.apply shift a b = (result, some flag) ∧
      operation.Yields shift a b result flag := by
  cases operation with
  | copy | or | and | xor => contradiction
  | add => exact ⟨_, _, rfl, toNat_add_carry a b⟩
  | subtract => exact ⟨_, _, rfl, toNat_sub_modEq a b, decide_eq_true_iff⟩
  | subtractFrom => exact ⟨_, _, rfl, toNat_sub_modEq b a, decide_eq_true_iff⟩
  | shiftRight =>
    refine ⟨_, _, rfl, ?_⟩
    rw [Yields, ← operand_eq]
    exact toNat_shiftRight_lost _
  | shiftLeft =>
    refine ⟨_, _, rfl, ?_⟩
    rw [Yields, ← operand_eq]
    exact toNat_shiftLeft_lost _

end Arithmetic

/-! ### Where results and flags go -/

namespace Processor

variable {p : Processor} {x : Register}

/-- A result is written last. -/
theorem register_setResult_self (p : Processor) (x : Register) (result : UInt8 × Option Bool) :
    (p.setResult x result).register x = result.1 := by
  obtain ⟨value, _ | flag⟩ := result <;> exact (register_setRegister ..).trans (if_pos rfl)

/-- A flag stays where it was written, unless the result goes there. -/
theorem register_setResult_flag (apart : x ≠ flagRegister) (result : UInt8) (flag : Bool) :
    (p.setResult x (result, some flag)).register flagRegister = if flag then 1 else 0 := by
  have kept : (p.setResult x (result, some flag)).register flagRegister =
      (p.setFlag flag).register flagRegister := register_setRegister_of_ne apart.symm _
  rw [kept, setFlag, register_setRegister, if_pos rfl]

end Processor

namespace Machine

variable {m : Machine}

/-- Combining two registers moves on and sets registers. -/
theorem execute_combine (ready : m.IsReady) (operation : Arithmetic) (x y : Register) :
    m.execute (Instruction.combine operation x y).encode =
      ⟨.ok .next,
        { m with processor := { m.processor with
            pc := m.processor.pc + 2
            registers := (m.processor.setResult x (operation.apply m.settings.shift
              (m.processor.register x) (m.processor.register y))).registers } },
        [m.traceOf (.combine operation x y)]⟩ := by
  refine execute_of_decode ready (Instruction.decode_encode _) rfl ?_
  rw [Processor.execute, Processor.setResult_eq]
  rfl

/-- **Results, flags, and where they go.** A machine that is ready and combines two registers by an
operation with a flag computes both from what the registers held before, whichever registers these
are. Then the first register holds the result; the flag register holds the flag, unless it is the
first register itself, and then the flag is lost; and all other registers are as they were, as is
everything else but the program counter. -/
theorem flag_gives_way (ready : m.IsReady) {operation : Arithmetic}
    (flagged : operation.hasFlag = true) (x y : Register) :
    let p := m.processor
    let r := m.execute (Instruction.combine operation x y).encode
    r.answer = .ok .next ∧
    ∃ result flag,
      operation.Yields m.settings.shift (p.register x) (p.register y) result flag ∧
      r.machine.processor.register x = result ∧
      (x ≠ flagRegister →
        r.machine.processor.register flagRegister = if flag then 1 else 0) ∧
      (∀ other, other ≠ x → other ≠ flagRegister →
        r.machine.processor.register other = p.register other) ∧
      r.machine =
        { m with processor := { p with
            pc := p.pc + 2
            registers := r.machine.processor.registers } } := by
  intro p r
  have executed : r = _ := execute_combine ready operation x y
  obtain ⟨result, flag, computed, yields⟩ :=
    Arithmetic.apply_yields flagged m.settings.shift (p.register x) (p.register y)
  rw [computed] at executed
  rw [executed]
  refine ⟨rfl, result, flag, yields, ?_, ?_, ?_, rfl⟩
  · exact Processor.register_setResult_self p x (result, some flag)
  · exact fun apart => Processor.register_setResult_flag apart result flag
  · exact fun other apart unflagged =>
      Processor.register_setResult_of_ne apart fun _ => unflagged

/-- A machine that shifts the second register has the flag register as an operand. Shifted into it,
the first bit of another register is lost; and it is looked at before the flag of a sum is written
there. -/
theorem flag_gives_way_twice :
    let m := (create { Settings.standard with shift := .legacy } 0).machine.run
      [.execute 0x6181, .execute 0x6FFE]
    let shifted := (m.execute 0x8F1E).machine.processor
    let added := (m.execute 0x81F4).machine.processor
    m.IsReady ∧ shifted.register flagRegister = 2 ∧ shifted.register 1 = 0x81 ∧
      added.register 1 = 0x7F ∧ added.register flagRegister = 1 := by
  intro m shifted added
  have ready : m.IsReady := by decide +kernel
  have first : m.processor.register 1 = 0x81 := by decide +kernel
  have last : m.processor.register 15 = 0xFE := by decide +kernel
  obtain ⟨-, moved, lost, doubled, into, -, others, -⟩ :=
    flag_gives_way ready (rfl : Arithmetic.shiftLeft.hasFlag = true) 15 1
  obtain ⟨-, sum, carry, total, here, there, -, -⟩ :=
    flag_gives_way ready (rfl : Arithmetic.add.hasFlag = true) 1 15
  rw [first, last] at doubled total
  have result : moved = 2 := by
    apply UInt8.toNat_inj.mp
    have shifts : 256 * lost.toNat + moved.toNat = 2 * 129 := doubled
    have := lost.toNat_lt
    have := moved.toNat_lt
    show moved.toNat = 2
    omega
  have sums : 256 * carry.toNat + sum.toNat = 129 + 254 := total
  have := sum.toNat_lt
  have carries : carry = true := by
    cases carry with
    | false =>
      rw [Bool.toNat_false] at sums
      omega
    | true => rfl
  have value : sum = 0x7F := by
    apply UInt8.toNat_inj.mp
    rw [carries, Bool.toNat_true] at sums
    show sum.toNat = 127
    omega
  refine ⟨ready, into.trans result, (others 1 (by decide) (by decide)).trans first,
    here.trans value, ?_⟩
  rw [carries] at there
  exact there (by decide)

end Machine

end Chip8
