import Chip8.Instruction.Basic
import Chip8.Numeral

/-!
# Mnemonics

The text of an instruction, as it stands in listings and traces. Registers are
`v` and one hexadecimal digit, addresses have at least three hexadecimal digits
after `0x`, and bytes and heights are decimal.
-/

namespace Chip8

/-- The name of a register. -/
def Register.text (x : Register) : String := "v" ++ upperHex 1 x.val

/-- The text of an address. -/
def Target.text (target : Target) : String := "0x" ++ upperHex 3 target.val

/-- The mnemonic of an arithmetic operation. -/
def Arithmetic.name : Arithmetic → String
  | copy => "LD"
  | or => "OR"
  | and => "AND"
  | xor => "XOR"
  | add => "ADD"
  | subtract => "SUB"
  | shiftRight => "SHR"
  | subtractFrom => "SUBN"
  | shiftLeft => "SHL"

/-- A mnemonic with two operands. -/
def binaryText (name first second : String) : String := name ++ " " ++ first ++ ", " ++ second

/-- The text of a skip. -/
def Condition.mnemonic : Condition → String
  | equalsByte x byte => binaryText "SE" (Register.text x) (decimal byte.toNat)
  | differsByte x byte => binaryText "SNE" (Register.text x) (decimal byte.toNat)
  | equals x y => binaryText "SE" (Register.text x) (Register.text y)
  | differs x y => binaryText "SNE" (Register.text x) (Register.text y)
  | keyDown x => "SKP " ++ Register.text x
  | keyUp x => "SKNP " ++ Register.text x

namespace Instruction

/-- The text of an instruction. -/
def mnemonic : Instruction → String
  | clearScreen => "CLS"
  | ret => "RET"
  | jump target => "JP " ++ Target.text target
  | call target => "CALL " ++ Target.text target
  | skip condition => condition.mnemonic
  | loadByte x byte => binaryText "LD" (Register.text x) (decimal byte.toNat)
  | addByte x byte => binaryText "ADD" (Register.text x) (decimal byte.toNat)
  | combine operation x y => binaryText operation.name (Register.text x) (Register.text y)
  | setIndex target => binaryText "LD" "I" (Target.text target)
  | jumpOffset target => binaryText "JP" "v0" (Target.text target)
  | random x mask => binaryText "RND" (Register.text x) (decimal mask.toNat)
  | draw x y rows =>
    binaryText "DRW" (Register.text x) (Register.text y) ++ ", " ++ decimal rows.val
  | readDelay x => binaryText "LD" (Register.text x) "DT"
  | awaitKey x => binaryText "LD" (Register.text x) "K"
  | setDelay x => binaryText "LD" "DT" (Register.text x)
  | setSound x => binaryText "LD" "ST" (Register.text x)
  | addIndex x => binaryText "ADD" "I" (Register.text x)
  | pointGlyph x => binaryText "LD" "F" (Register.text x)
  | storeDigits x => binaryText "LD" "B" (Register.text x)
  | store x => binaryText "LD" "[I]" (Register.text x)
  | load x => binaryText "LD" (Register.text x) "[I]"

end Instruction

end Chip8
