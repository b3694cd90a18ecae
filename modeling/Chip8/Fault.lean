import Chip8.Numeral
import Chip8.Processor.Execute

/-!
# Faults

A fault is what stops a machine: an instruction that cannot be executed, with the
place where it was found. `Chip8.Fault.message` is what is said of it.
-/

namespace Chip8

/-- What is said of a reason, before the instruction and its place. -/
def FaultKind.text : FaultKind → String
  | unknownInstruction => "unsupported opcode"
  | stackOverflow => "call stack overflow"
  | stackUnderflow => "call stack underflow"

/-- An instruction that could not be executed. -/
structure Fault where
  /-- Why it could not. -/
  kind : FaultKind
  /-- The program counter at which it was to be executed. -/
  pc : UInt16
  /-- The word of the instruction. -/
  word : UInt16
  deriving DecidableEq

/-- What is said of a fault. -/
def Fault.message (f : Fault) : String :=
  f.kind.text ++ " " ++ upperHex 4 f.word.toNat ++ " at 0x" ++ upperHex 4 f.pc.toNat

end Chip8
