import Chip8.Instruction.Basic

/-!
# Instruction words

An instruction is written as a word of sixteen bits: a family digit, followed by
operand fields. This file has both directions, `Chip8.Instruction.encode` and
`Chip8.Instruction.decode`; a word that no instruction encodes to decodes to
`none`, and what such a word means is left to the machine.
-/

namespace Chip8

/-! ### The fields of a word -/

namespace Word

/-- The word of two bytes, the high byte first. -/
def ofBytes (high low : UInt8) : UInt16 := UInt16.ofNat (high.toNat * 256 + low.toNat)

theorem toNat_ofBytes (high low : UInt8) :
    (ofBytes high low).toNat = high.toNat * 256 + low.toNat := by
  have := high.toNat_lt
  have := low.toNat_lt
  rw [ofBytes, UInt16.toNat_ofNat']
  omega

/-- The leading digit, which names the family of the instruction. -/
def family (w : UInt16) : Nat := w.toNat / 4096

/-- The second digit, a register. -/
def x (w : UInt16) : Register := registerOf (w.toNat / 256)

/-- The third digit, a register. -/
def y (w : UInt16) : Register := registerOf (w.toNat / 16)

/-- The last digit. -/
def digit (w : UInt16) : Fin 16 := ⟨w.toNat % 16, Nat.mod_lt _ (by decide)⟩

/-- The low byte. -/
def byte (w : UInt16) : UInt8 := UInt8.ofNat (w.toNat % 256)

/-- The low twelve bits. -/
def target (w : UInt16) : Target := ⟨w.toNat % 4096, Nat.mod_lt _ (by decide)⟩

/-- The word with a family and a target. -/
def ofTarget (family : Nat) (target : Target) : UInt16 := UInt16.ofNat (family * 4096 + target.val)

/-- The word with a family, a register and a low byte. -/
def ofRegisterByte (family : Nat) (x : Register) (byte : Nat) : UInt16 :=
  UInt16.ofNat (family * 4096 + x.val * 256 + byte)

/-- The word with a family, two registers and a last digit. -/
def ofRegisters (family : Nat) (x y : Register) (digit : Nat) : UInt16 :=
  UInt16.ofNat (family * 4096 + x.val * 256 + y.val * 16 + digit)

end Word

/-! ### Arithmetic operations -/

namespace Arithmetic

/-- The digit that selects an operation within its family. -/
def code : Arithmetic → Nat
  | copy => 0x0
  | or => 0x1
  | and => 0x2
  | xor => 0x3
  | add => 0x4
  | subtract => 0x5
  | shiftRight => 0x6
  | subtractFrom => 0x7
  | shiftLeft => 0xE

/-- The operation that a digit selects, if any. -/
def ofCode : Nat → Option Arithmetic
  | 0x0 => some copy
  | 0x1 => some or
  | 0x2 => some and
  | 0x3 => some xor
  | 0x4 => some add
  | 0x5 => some subtract
  | 0x6 => some shiftRight
  | 0x7 => some subtractFrom
  | 0xE => some shiftLeft
  | _ => none

end Arithmetic

/-! ### Instructions -/

/-- The word of a skip. -/
def Condition.encode : Condition → UInt16
  | equalsByte x byte => Word.ofRegisterByte 0x3 x byte.toNat
  | differsByte x byte => Word.ofRegisterByte 0x4 x byte.toNat
  | equals x y => Word.ofRegisters 0x5 x y 0
  | differs x y => Word.ofRegisters 0x9 x y 0
  | keyDown x => Word.ofRegisterByte 0xE x 0x9E
  | keyUp x => Word.ofRegisterByte 0xE x 0xA1

namespace Instruction

/-- The word of an instruction. -/
def encode : Instruction → UInt16
  | clearScreen => 0x00E0
  | ret => 0x00EE
  | jump target => Word.ofTarget 0x1 target
  | call target => Word.ofTarget 0x2 target
  | skip condition => condition.encode
  | loadByte x byte => Word.ofRegisterByte 0x6 x byte.toNat
  | addByte x byte => Word.ofRegisterByte 0x7 x byte.toNat
  | combine operation x y => Word.ofRegisters 0x8 x y operation.code
  | setIndex target => Word.ofTarget 0xA target
  | jumpOffset target => Word.ofTarget 0xB target
  | random x mask => Word.ofRegisterByte 0xC x mask.toNat
  | draw x y rows => Word.ofRegisters 0xD x y rows.val
  | readDelay x => Word.ofRegisterByte 0xF x 0x07
  | awaitKey x => Word.ofRegisterByte 0xF x 0x0A
  | setDelay x => Word.ofRegisterByte 0xF x 0x15
  | setSound x => Word.ofRegisterByte 0xF x 0x18
  | addIndex x => Word.ofRegisterByte 0xF x 0x1E
  | pointGlyph x => Word.ofRegisterByte 0xF x 0x29
  | storeDigits x => Word.ofRegisterByte 0xF x 0x33
  | store x => Word.ofRegisterByte 0xF x 0x55
  | load x => Word.ofRegisterByte 0xF x 0x65

/-- The instruction that a word of family `0` names: only two of them exist, the
calls of native routines that share the family being no part of the machine. -/
def decodeSystem (w : UInt16) : Option Instruction :=
  match w.toNat with
  | 0x00E0 => some clearScreen
  | 0x00EE => some ret
  | _ => none

/-- The instruction that a word of family `E` names by its low byte. -/
def decodeKey (x : Register) : Nat → Option Instruction
  | 0x9E => some (skip (.keyDown x))
  | 0xA1 => some (skip (.keyUp x))
  | _ => none

/-- The instruction that a word of family `F` names by its low byte. -/
def decodeMisc (x : Register) : Nat → Option Instruction
  | 0x07 => some (readDelay x)
  | 0x0A => some (awaitKey x)
  | 0x15 => some (setDelay x)
  | 0x18 => some (setSound x)
  | 0x1E => some (addIndex x)
  | 0x29 => some (pointGlyph x)
  | 0x33 => some (storeDigits x)
  | 0x55 => some (store x)
  | 0x65 => some (load x)
  | _ => none

/-- The instruction that a word encodes, or `none` for a word that encodes no
documented instruction; the extensions of later machines are not documented ones. -/
def decode (w : UInt16) : Option Instruction :=
  match Word.family w with
  | 0x0 => decodeSystem w
  | 0x1 => some (jump (Word.target w))
  | 0x2 => some (call (Word.target w))
  | 0x3 => some (skip (.equalsByte (Word.x w) (Word.byte w)))
  | 0x4 => some (skip (.differsByte (Word.x w) (Word.byte w)))
  | 0x5 => if (Word.digit w).val = 0 then some (skip (.equals (Word.x w) (Word.y w))) else none
  | 0x6 => some (loadByte (Word.x w) (Word.byte w))
  | 0x7 => some (addByte (Word.x w) (Word.byte w))
  | 0x8 => (Arithmetic.ofCode (Word.digit w).val).map (combine · (Word.x w) (Word.y w))
  | 0x9 => if (Word.digit w).val = 0 then some (skip (.differs (Word.x w) (Word.y w))) else none
  | 0xA => some (setIndex (Word.target w))
  | 0xB => some (jumpOffset (Word.target w))
  | 0xC => some (random (Word.x w) (Word.byte w))
  | 0xD => some (draw (Word.x w) (Word.y w) (Word.digit w))
  | 0xE => decodeKey (Word.x w) (Word.byte w).toNat
  | 0xF => decodeMisc (Word.x w) (Word.byte w).toNat
  | _ => none

end Instruction

end Chip8
