/-!
# Instructions

The instruction set of the CHIP-8 machine: `Chip8.Instruction`, one constructor
for each kind of effect. Instructions that differ only in a test or in an
operation share a constructor: all skips are `Chip8.Instruction.skip` of a
`Chip8.Condition`, and all instructions that combine two registers are
`Chip8.Instruction.combine` with a `Chip8.Arithmetic` operation.

Operands have exactly the range an instruction word gives them, so every value of
`Chip8.Instruction` is an instruction that can be written down.
-/

namespace Chip8

/-- Number of general purpose registers. -/
def registerCount : Nat := 16

/-- A general purpose register, `V0` to `VF`. -/
abbrev Register := Fin 16

/-- The register that receives carry, borrow and collision flags, `VF`. -/
def flagRegister : Register := 15

/-- The register that jumps add to their target, `V0`. -/
def offsetRegister : Register := 0

theorem mod_registerCount_lt (number : Nat) : number % registerCount < registerCount :=
  Nat.mod_lt _ (by decide)

/-- The register that a number of any size names. -/
def registerOf (number : Nat) : Register := ⟨number % registerCount, mod_registerCount_lt number⟩

theorem val_registerOf (number : Nat) : (registerOf number).val = number % 16 := rfl

@[simp] theorem registerOf_val (x : Register) : registerOf x.val = x :=
  Fin.ext (Nat.mod_eq_of_lt x.isLt)

/-- An address that fits into an instruction, twelve bits wide. -/
abbrev Target := Fin 4096

/-- The tests on which an instruction can skip its successor. -/
inductive Condition where
  /-- The register holds the given byte. -/
  | equalsByte (x : Register) (byte : UInt8)
  /-- The register holds another byte. -/
  | differsByte (x : Register) (byte : UInt8)
  /-- Two registers hold the same byte. -/
  | equals (x y : Register)
  /-- Two registers hold different bytes. -/
  | differs (x y : Register)
  /-- The key that the register names is down. -/
  | keyDown (x : Register)
  /-- The key that the register names is up. -/
  | keyUp (x : Register)
  deriving DecidableEq

/-- The operations that combine a register `x` with a register `y`, the result
going to `x`. -/
inductive Arithmetic where
  /-- Take the value of `y`. -/
  | copy
  /-- Bitwise or. -/
  | or
  /-- Bitwise and. -/
  | and
  /-- Bitwise exclusive or. -/
  | xor
  /-- Sum, with the carry as flag. -/
  | add
  /-- `x` less `y`; the flag says that `x` was the greater. -/
  | subtract
  /-- Shift right by one, with the bit shifted out as flag. -/
  | shiftRight
  /-- `y` less `x`; the flag says that `y` was the greater. -/
  | subtractFrom
  /-- Shift left by one, with the bit shifted out as flag. -/
  | shiftLeft
  deriving DecidableEq

/-- The instructions of the machine. -/
inductive Instruction where
  /-- Blank the screen. -/
  | clearScreen
  /-- Return from a subroutine. -/
  | ret
  /-- Continue at an address. -/
  | jump (target : Target)
  /-- Enter the subroutine at an address. -/
  | call (target : Target)
  /-- Pass over the next instruction if a condition holds. -/
  | skip (condition : Condition)
  /-- Load a byte. -/
  | loadByte (x : Register) (byte : UInt8)
  /-- Add a byte, without touching the flag register. -/
  | addByte (x : Register) (byte : UInt8)
  /-- Combine two registers. -/
  | combine (operation : Arithmetic) (x y : Register)
  /-- Set the index register. -/
  | setIndex (target : Target)
  /-- Continue at an address offset by `V0`. -/
  | jumpOffset (target : Target)
  /-- Load a random byte under a mask. -/
  | random (x : Register) (mask : UInt8)
  /-- Draw a sprite of some rows, found at the index register, at the position that
  two registers hold. -/
  | draw (x y : Register) (rows : Fin 16)
  /-- Read the delay timer. -/
  | readDelay (x : Register)
  /-- Wait for a key press. -/
  | awaitKey (x : Register)
  /-- Set the delay timer. -/
  | setDelay (x : Register)
  /-- Set the sound timer. -/
  | setSound (x : Register)
  /-- Add a register to the index register. -/
  | addIndex (x : Register)
  /-- Point the index register at the glyph of a digit. -/
  | pointGlyph (x : Register)
  /-- Store the three decimal digits of a register at the index register. -/
  | storeDigits (x : Register)
  /-- Store the registers up to `x` at the index register. -/
  | store (x : Register)
  /-- Load the registers up to `x` from the index register. -/
  | load (x : Register)
  deriving DecidableEq

/-- Whether the instruction consumes a random byte. -/
def Instruction.drawsRandom : Instruction → Bool
  | .random _ _ => true
  | _ => false

end Chip8
