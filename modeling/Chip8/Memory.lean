import Chip8.Instruction.Word
import Chip8.Font

/-!
# Memory

The main memory, 4096 bytes. Addresses are numbers of any size, of which only the
low twelve bits count: `Chip8.Memory.read` and `Chip8.Memory.write` are defined at
every address, and a block that runs past the last byte continues at the first.
-/

namespace Chip8

/-- The memory of the machine. -/
structure Memory where
  /-- The bytes, by address. -/
  cells : Vector UInt8 4096
  deriving DecidableEq

namespace Memory

/-- The number of bytes. -/
def size : Nat := 4096

/-- The address at which programs are loaded and started. -/
def programStart : Nat := 0x200

/-- The size of the largest program. -/
def programCapacity : Nat := size - programStart

/-- Memory that holds zeros only. -/
def zero : Memory := ⟨Vector.replicate 4096 0⟩

/-- The byte at an address. -/
def read (m : Memory) (address : Nat) : UInt8 :=
  m.cells[address % 4096]

/-- Put a byte at an address. -/
def write (m : Memory) (address : Nat) (byte : UInt8) : Memory :=
  ⟨m.cells.set (address % 4096) byte⟩

/-- Put bytes at an address and the addresses after it. -/
def writeBytes (m : Memory) (address : Nat) : List UInt8 → Memory
  | [] => m
  | byte :: bytes => (m.write address byte).writeBytes (address + 1) bytes

/-- The bytes at an address and the addresses after it. -/
def readBytes (m : Memory) (address count : Nat) : List UInt8 :=
  (List.range count).map fun k => m.read (address + k)

/-- The word at an address, high byte first. -/
def readWord (m : Memory) (address : Nat) : UInt16 :=
  Word.ofBytes (m.read address) (m.read (address + 1))

/-- Memory that holds the font and is otherwise zero. -/
def withFont : Memory := zero.writeBytes Font.start Font.bytes

/-- Memory that holds a program, besides the font. -/
def loadProgram (m : Memory) (program : List UInt8) : Memory :=
  m.writeBytes programStart program

/-! ### Reading after writing -/

theorem read_mod (m : Memory) (address : Nat) : m.read (address % 4096) = m.read address := by
  simp [read]

theorem read_write (m : Memory) (a b : Nat) (byte : UInt8) :
    (m.write a byte).read b = if a % 4096 = b % 4096 then byte else m.read b := by
  simp [read, write, Vector.getElem_set]

/-- How far an address lies after another one, going round the memory. -/
def distance (first address : Nat) : Nat := (address + (4096 - first % 4096)) % 4096

/-- Where a block was written, its bytes are read; elsewhere, what was there before. -/
theorem read_writeBytes (m : Memory) (first address : Nat) (bytes : List UInt8)
    (fits : bytes.length ≤ 4096) :
    (m.writeBytes first bytes).read address =
      bytes[distance first address]?.getD (m.read address) := by
  induction bytes generalizing m first with
  | nil => rfl
  | cons byte bytes ih =>
    rw [List.length_cons] at fits
    rw [writeBytes, ih _ _ (by omega), read_write]
    by_cases here : first % 4096 = address % 4096
    · have start : distance first address = 0 := by
        unfold distance
        omega
      have round : bytes.length ≤ distance (first + 1) address := by
        unfold distance
        omega
      rw [if_pos here, start, List.getElem?_eq_none round]
      rfl
    · have next : distance first address = distance (first + 1) address + 1 := by
        unfold distance
        omega
      rw [if_neg here, next, List.getElem?_cons_succ]

/-- Bytes are written one part after the other. -/
theorem writeBytes_append (m : Memory) (first : Nat) (bytes others : List UInt8) :
    m.writeBytes first (bytes ++ others) =
      (m.writeBytes first bytes).writeBytes (first + bytes.length) others := by
  induction bytes generalizing m first with
  | nil => rfl
  | cons byte bytes ih =>
    rw [List.cons_append, writeBytes, ih, writeBytes, List.length_cons, Nat.add_assoc,
      Nat.add_comm 1]

@[simp] theorem read_zero (address : Nat) : zero.read address = 0 := by
  simp [read, zero]

end Memory

end Chip8
