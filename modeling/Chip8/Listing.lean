import Chip8.Instruction.Mnemonic
import Chip8.Memory

/-!
# Listings and dumps

Two texts that show words with their addresses. `Chip8.Listing` is the disassembly of
a program: one line for each pair of bytes, with the instruction that the machine
would decode there, and `??` where it would decode none – no attempt is made to tell
instructions from data. `Chip8.Memory.dump` shows what the memory of a machine holds
from the start address of programs on.
-/

namespace Chip8

/-! ### Listings -/

/-- A line of a listing. -/
inductive ListingLine where
  /-- A word and its address. -/
  | word (address : Nat) (word : UInt16)
  /-- A last byte that has no partner, and its address. -/
  | byte (address : Nat) (byte : UInt8)
  deriving DecidableEq

/-- The text of a line, without a line break. -/
def ListingLine.text : ListingLine → String
  | word address w =>
    "0x" ++ upperHex 4 address ++ " " ++ upperHex 4 w.toNat ++ " " ++
      ((Instruction.decode w).map Instruction.mnemonic).getD "??"
  | byte address b => "0x" ++ upperHex 4 address ++ " " ++ upperHex 2 b.toNat

namespace Listing

/-- The lines for bytes that lie at an address. -/
def linesAt (address : Nat) : List UInt8 → List ListingLine
  | [] => []
  | [last] => [.byte address last]
  | high :: low :: rest => .word address (Word.ofBytes high low) :: linesAt (address + 2) rest

/-- The lines for a program. -/
def lines (program : List UInt8) : List ListingLine := linesAt Memory.programStart program

/-- The text of lines, with a line break after each. -/
def text (lines : List ListingLine) : String :=
  String.join (lines.map fun line => line.text ++ "\n")

/-- The listing of a program. -/
def ofProgram (program : List UInt8) : String := text (lines program)

end Listing

/-! ### Dumps -/

/-- Every second entry of a list, from the first one on. -/
def everySecond {α : Type} : List α → List α
  | [] => []
  | [last] => [last]
  | entry :: _ :: rest => entry :: everySecond rest

namespace Memory

/-- The line of a dump for an address, with its line break. -/
def dumpLine (m : Memory) (address : Nat) : String :=
  upperHex 4 address ++ ": " ++ upperHex 2 (m.read address).toNat ++
    upperHex 2 (m.read (address + 1)).toNat ++ "\n"

/-- The addresses at which the lines of a dump begin: every second one of the first `count`
addresses of program memory. -/
def dumpAddresses (count : Nat) : List Nat :=
  everySecond (((List.range size).drop programStart).take count)

/-- The lines that cover the first `count` bytes of program memory, two bytes a line; an
odd count takes in one byte more. -/
def dumpLines (m : Memory) (count : Nat) : List String := (dumpAddresses count).map m.dumpLine

/-- The first `count` bytes of program memory as text. -/
def dump (m : Memory) (count : Nat) : String := String.join (m.dumpLines count)

end Memory

end Chip8
