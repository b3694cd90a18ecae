import Chip8.Instruction.Word

/-!
# Decoding loses nothing

A word that decodes is the word of the instruction it decodes to
(`Chip8.Instruction.encode_of_decode`), since a word is made up of its family digit
and the fields that the family has; and as a word gives back the fields it is made of,
the word of every instruction decodes to it (`Chip8.Instruction.decode_encode`). So the
words of an instruction can be read off `Chip8.Instruction.encode`: there is one return
(`Chip8.Instruction.decode_eq_ret_iff`), and the calls are a whole family
(`Chip8.Instruction.exists_decode_eq_call_iff`).
-/

namespace Chip8

/-! ### A word and its fields -/

namespace Word

/-- A word is its family and its target. -/
theorem ofTarget_family (w : UInt16) : ofTarget (family w) (target w) = w := by
  have split : family w * 4096 + (target w).val = w.toNat := by
    simp only [family, target]
    omega
  rw [ofTarget, split, UInt16.ofNat_toNat]

/-- A word is its family, its first register and its low byte. -/
theorem ofRegisterByte_family (w : UInt16) :
    ofRegisterByte (family w) (x w) (byte w).toNat = w := by
  have split : family w * 4096 + (x w).val * 256 + (byte w).toNat = w.toNat := by
    have low : (byte w).toNat = w.toNat % 256 := by simp [byte]
    rw [low]
    simp only [family, x, val_registerOf]
    omega
  rw [ofRegisterByte, split, UInt16.ofNat_toNat]

/-- A word is its family, its two registers and its last digit. -/
theorem ofRegisters_family (w : UInt16) :
    ofRegisters (family w) (x w) (y w) (digit w).val = w := by
  have split :
      family w * 4096 + (x w).val * 256 + (y w).val * 16 + (digit w).val = w.toNat := by
    simp only [family, x, y, digit, val_registerOf]
    omega
  rw [ofRegisters, split, UInt16.ofNat_toNat]

/-! ### The fields of a word that is made of them -/

section Fields

variable {f b d : Nat} (r s : Register)

theorem toNat_ofTarget (t : Target) (small : f < 16) :
    (ofTarget f t).toNat = f * 4096 + t.val := by
  rw [ofTarget, UInt16.toNat_ofNat']
  omega

theorem toNat_ofRegisterByte (low : b < 256) (small : f < 16) :
    (ofRegisterByte f r b).toNat = f * 4096 + r.val * 256 + b := by
  rw [ofRegisterByte, UInt16.toNat_ofNat']
  omega

theorem toNat_ofRegisters (last : d < 16) (small : f < 16) :
    (ofRegisters f r s d).toNat = f * 4096 + r.val * 256 + s.val * 16 + d := by
  rw [ofRegisters, UInt16.toNat_ofNat']
  omega

theorem fields_ofTarget (t : Target) (small : f < 16) :
    family (ofTarget f t) = f ∧ target (ofTarget f t) = t := by
  have value := toNat_ofTarget t small
  refine ⟨?_, Fin.ext ?_⟩
  · rw [family, value]
    omega
  · simp only [target, value]
    omega

theorem fields_ofRegisterByte (low : b < 256) (small : f < 16) :
    family (ofRegisterByte f r b) = f ∧ x (ofRegisterByte f r b) = r ∧
      byte (ofRegisterByte f r b) = UInt8.ofNat b := by
  have value := toNat_ofRegisterByte r low small
  have rest : (f * 4096 + r.val * 256 + b) % 256 = b := by omega
  refine ⟨?_, Fin.ext ?_, ?_⟩
  · rw [family, value]
    omega
  · simp only [x, val_registerOf, value]
    omega
  · rw [byte, value, rest]

theorem fields_ofRegisters (last : d < 16) (small : f < 16) :
    family (ofRegisters f r s d) = f ∧ x (ofRegisters f r s d) = r ∧
      y (ofRegisters f r s d) = s ∧ digit (ofRegisters f r s d) = ⟨d, last⟩ := by
  have value := toNat_ofRegisters r s last small
  refine ⟨?_, Fin.ext ?_, Fin.ext ?_, Fin.ext ?_⟩
  · rw [family, value]
    omega
  · simp only [x, val_registerOf, value]
    omega
  · simp only [y, val_registerOf, value]
    omega
  · simp only [digit, value]
    omega

end Fields

end Word

/-! ### Arithmetic operations -/

/-- The digit that selects an operation is the code of the operation. -/
theorem Arithmetic.code_of_ofCode {digit : Nat} {operation : Arithmetic}
    (h : ofCode digit = some operation) : operation.code = digit := by
  unfold ofCode at h
  split at h <;> cases h <;> rfl

/-- The code of an operation selects it. -/
theorem Arithmetic.ofCode_code (operation : Arithmetic) :
    ofCode operation.code = some operation := by
  cases operation <;> rfl

theorem Arithmetic.code_lt (operation : Arithmetic) : operation.code < 16 := by
  cases operation <;> decide

/-! ### Instructions -/

namespace Instruction

theorem encode_of_decodeSystem {w : UInt16} {i : Instruction} (h : decodeSystem w = some i) :
    i.encode = w := by
  unfold decodeSystem at h
  split at h
  case h_1 value =>
    cases h
    exact UInt16.toNat.inj value.symm
  case h_2 value =>
    cases h
    exact UInt16.toNat.inj value.symm
  case h_3 => contradiction

theorem encode_of_decodeKey {x : Register} {byte : Nat} {i : Instruction}
    (h : decodeKey x byte = some i) : i.encode = Word.ofRegisterByte 0xE x byte := by
  unfold decodeKey at h
  split at h <;> cases h <;> rfl

theorem encode_of_decodeMisc {x : Register} {byte : Nat} {i : Instruction}
    (h : decodeMisc x byte = some i) : i.encode = Word.ofRegisterByte 0xF x byte := by
  unfold decodeMisc at h
  split at h <;> cases h <;> rfl

/-- **A word that decodes is the word of its instruction.** -/
theorem encode_of_decode {w : UInt16} {i : Instruction} (h : decode w = some i) :
    i.encode = w := by
  have target := Word.ofTarget_family w
  have registerByte := Word.ofRegisterByte_family w
  have registers := Word.ofRegisters_family w
  unfold decode at h
  -- One case for each family; the fields of the word make it up again.
  split at h <;> rename_i family <;> try rw [family] at target registerByte registers
  case h_1 => exact encode_of_decodeSystem h
  case h_6 | h_10 =>
    split at h
    case isTrue digit =>
      cases h
      rw [digit] at registers
      exact registers
    case isFalse => contradiction
  case h_9 =>
    obtain ⟨operation, code, rfl⟩ := Option.map_eq_some_iff.mp h
    rw [← Arithmetic.code_of_ofCode code] at registers
    exact registers
  case h_15 => exact (encode_of_decodeKey h).trans registerByte
  case h_16 => exact (encode_of_decodeMisc h).trans registerByte
  case h_17 => contradiction
  case h_2 | h_3 | h_11 | h_12 =>
    cases h
    exact target
  case h_14 =>
    cases h
    exact registers
  all_goals
    cases h
    exact registerByte

theorem decode_encode_skip (condition : Condition) :
    decode (skip condition).encode = some (skip condition) := by
  cases condition with
  | equalsByte r b | differsByte r b =>
    simp (disch := decide) only [encode, Condition.encode, decode,
      Word.fields_ofRegisterByte r b.toNat_lt, UInt8.ofNat_toNat]
  | equals r s | differs r s =>
    simp (disch := decide) only [encode, Condition.encode, decode,
      Word.fields_ofRegisters r s, if_true]
  | keyDown r | keyUp r =>
    simp (disch := decide) only [encode, Condition.encode, decode, Word.fields_ofRegisterByte r]
    rfl

/-- **The word of an instruction decodes to it.** -/
theorem decode_encode (i : Instruction) : decode i.encode = some i := by
  cases i with
  | clearScreen | ret => rfl
  | jump t | call t | setIndex t | jumpOffset t =>
    simp (disch := decide) only [encode, decode, Word.fields_ofTarget t]
  | skip condition => exact decode_encode_skip condition
  | loadByte r b | addByte r b | random r b =>
    simp (disch := decide) only [encode, decode, Word.fields_ofRegisterByte r b.toNat_lt,
      UInt8.ofNat_toNat]
  | combine operation r s =>
    simp (disch := decide) only [encode, decode, Word.fields_ofRegisters r s operation.code_lt,
      Arithmetic.ofCode_code, Option.map_some]
  | draw r s rows =>
    simp (disch := decide) only [encode, decode, Word.fields_ofRegisters r s rows.isLt, Fin.eta]
  | _ =>
    simp (disch := decide) only [encode, decode, Word.fields_ofRegisterByte]
    rfl

/-! ### The words of returns and calls -/

/-- There is one word for a return. -/
theorem decode_eq_ret_iff {w : UInt16} : decode w = some ret ↔ w = 0x00EE := by
  constructor
  · exact fun h => (encode_of_decode h).symm
  · rintro rfl
    rfl

/-- The words of calls are a family. -/
theorem exists_decode_eq_call_iff {w : UInt16} :
    (∃ target, decode w = some (call target)) ↔ Word.family w = 2 := by
  constructor
  · rintro ⟨target, h⟩
    rw [← encode_of_decode h]
    exact (Word.fields_ofTarget target (by decide)).1
  · intro h
    refine ⟨Word.target w, ?_⟩
    simp only [decode, h]

end Instruction

end Chip8
