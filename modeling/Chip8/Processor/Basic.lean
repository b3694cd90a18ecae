import Chip8.CallStack
import Chip8.Keypad
import Chip8.Memory
import Chip8.Screen

/-!
# The processor

`Chip8.Processor` is everything that instructions work on: registers, call stack,
timers, keypad, memory and screen. `Chip8.Processor.blank` is the processor with all
of it zero, `Chip8.Processor.powerOn` the processor at start, with the font in
memory and a screen that is due to be painted. `Chip8.Processor.clear` brings any
processor there.
-/

namespace Chip8

/-- The state that instructions work on. -/
structure Processor where
  /-- The address of the instruction to be executed next. -/
  pc : UInt16
  /-- The index register, which points into memory. -/
  index : UInt16
  /-- The general purpose registers. -/
  registers : Vector UInt8 16
  /-- The open subroutine calls. -/
  stack : CallStack
  /-- The delay timer, which counts down to zero. -/
  delay : UInt8
  /-- The sound timer, which counts down to zero; a tone sounds until it gets there. -/
  sound : UInt8
  /-- The register that waits for a key press, if one does. -/
  awaiting : Option Register
  /-- The keys that are down. -/
  keypad : Keypad
  /-- The main memory. -/
  memory : Memory
  /-- The screen. -/
  screen : Screen
  /-- Whether the screen may have changed since it was last painted. -/
  repaint : Bool
  deriving DecidableEq

namespace Processor

/-- The processor with everything zero. -/
def blank : Processor where
  pc := UInt16.ofNat Memory.programStart
  index := 0
  registers := Vector.replicate 16 0
  stack := .empty
  delay := 0
  sound := 0
  awaiting := none
  keypad := .released
  memory := .zero
  screen := .blank
  repaint := false

/-- The processor at start. -/
def powerOn : Processor := { blank with memory := .withFont, repaint := true }

/-- Bring a processor to its start, part by part. -/
def clear (p : Processor) : Processor :=
  { p with
    pc := UInt16.ofNat Memory.programStart
    stack := .empty
    registers := Vector.replicate 16 0
    index := 0
    delay := 0
    sound := 0
    awaiting := none
    keypad := .released
    memory := Memory.zero.writeBytes Font.start Font.bytes
    screen := .blank
    repaint := true }

/-- The word at the program counter. -/
def fetch (p : Processor) : UInt16 := p.memory.readWord p.pc.toNat

/-- The value of a register. -/
def register (p : Processor) (x : Register) : UInt8 := p.registers[x]

/-- Set a register. -/
def setRegister (p : Processor) (x : Register) (value : UInt8) : Processor :=
  { p with registers := p.registers.set x value }

/-- Move on by a number of bytes. -/
def advance (p : Processor) (count : UInt16) : Processor := { p with pc := p.pc + count }

/-- Blank the screen. -/
def clearScreen (p : Processor) : Processor := { p with screen := .blank, repaint := true }

/-- Count both timers down, no further than zero. -/
def countDown (p : Processor) : Processor :=
  { p with
    delay := if p.delay = 0 then 0 else p.delay - 1
    sound := if p.sound = 0 then 0 else p.sound - 1 }

/-- Whether the tone sounds. -/
def isSounding (p : Processor) : Bool := p.sound != 0

/-- Press a key. If a register waits for one, it receives the number of the key and
execution goes on after the instruction that waits. -/
def pressKey (p : Processor) (key : Key) : Processor :=
  let p := { p with keypad := p.keypad.set key.val true }
  match p.awaiting with
  | none => p
  | some x => ({ p with awaiting := none }.setRegister x (UInt8.ofNat key.val)).advance 2

theorem pressKey_of_not_awaiting {p : Processor} (h : p.awaiting = none) (key : Key) :
    p.pressKey key = { p with keypad := p.keypad.set key.val true } := by
  simp only [pressKey, h]

theorem pressKey_of_awaiting {p : Processor} {x : Register} (h : p.awaiting = some x)
    (key : Key) :
    p.pressKey key =
      ({ p with keypad := p.keypad.set key.val true, awaiting := none }.setRegister x
        (UInt8.ofNat key.val)).advance 2 := by
  simp only [pressKey, h]

/-- Release a key. -/
def releaseKey (p : Processor) (key : Key) : Processor :=
  { p with keypad := p.keypad.set key.val false }

/-- Release all keys. -/
def releaseKeys (p : Processor) : Processor := { p with keypad := .released }

end Processor

end Chip8
