import Chip8.Processor.Basic

/-!
# Editing the processor

Direct access to the state of the processor, for callers that arrange a situation or
inspect one: `Chip8.Processor.Edit` lists the changes, `Chip8.Processor.edit` makes
one. Numbers out of range are brought into it: register numbers count modulo
sixteen, addresses modulo the size of memory, keys beyond the keypad are ignored, and
calls beyond the capacity of the stack are dropped.
-/

namespace Chip8

namespace Processor

/-- A change made to the processor from outside. -/
inductive Edit where
  /-- Replace the processor by the one with everything zero. -/
  | replace
  /-- Set the program counter. -/
  | setPc (address : UInt16)
  /-- Set the index register. -/
  | setIndex (address : UInt16)
  /-- Set the delay timer. -/
  | setDelay (value : UInt8)
  /-- Set the sound timer. -/
  | setSound (value : UInt8)
  /-- Set a register. -/
  | setRegister (number : Nat) (value : UInt8)
  /-- Replace the open calls, the outermost first. -/
  | setStack (sites : List UInt16)
  /-- Put a byte into memory. -/
  | write (address : Nat) (byte : UInt8)
  /-- Move a key up or down. This does not end a wait for a key press. -/
  | setKey (code : UInt8) (down : Bool)
  /-- Count both timers down. -/
  | countDown
  /-- Blank the screen. -/
  | clearScreen
  deriving DecidableEq

/-- Make a change. -/
def edit (p : Processor) : Edit → Processor
  | .replace => blank
  | .setPc address => { p with pc := address }
  | .setIndex address => { p with index := address }
  | .setDelay value => { p with delay := value }
  | .setSound value => { p with sound := value }
  | .setRegister number value => p.setRegister (registerOf number) value
  | .setStack sites => { p with stack := .ofList sites }
  | .write address byte => { p with memory := p.memory.write address byte }
  | .setKey code down => { p with keypad := p.keypad.set code.toNat down }
  | .countDown => p.countDown
  | .clearScreen => p.clearScreen

end Processor

end Chip8
