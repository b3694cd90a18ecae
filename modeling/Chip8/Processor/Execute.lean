import Chip8.Processor.Basic

/-!
# Executing an instruction

The effect of a decoded instruction on the processor, `Chip8.Processor.execute`. It
depends on two things besides the processor: the rule for the shift instructions,
on which historical machines differ, and the random byte that is next in line, which
only `Chip8.Instruction.random` looks at.

An instruction that cannot be executed gives a `Chip8.FaultKind`, and it too leaves a
processor behind.
-/

namespace Chip8

/-- What a shift instruction shifts. -/
inductive ShiftRule where
  /-- The second register, as the first machines did. -/
  | legacy
  /-- The first register, as later machines do. -/
  | modern
  deriving DecidableEq

/-- What an executed instruction did, as far as the caller may want to react. -/
inductive Flow where
  /-- No instruction was due. -/
  | idle
  /-- The instruction did nothing of the following. -/
  | next
  /-- The program counter was set to a new address. -/
  | jump
  /-- The screen was drawn on. -/
  | draw
  /-- The sound timer was set. -/
  | sound
  /-- Execution waits for a key press. -/
  | awaitKey
  deriving DecidableEq

/-- The reasons for which an instruction cannot be executed. -/
inductive FaultKind where
  /-- The word is no instruction. -/
  | unknownInstruction
  /-- A call, with as many calls open as the stack has room for. -/
  | stackOverflow
  /-- A return, with no call open. -/
  | stackUnderflow
  deriving DecidableEq

/-! ### Tests and operations -/

/-- Whether a condition holds. -/
def Condition.holds (p : Processor) : Condition → Bool
  | equalsByte x byte => p.register x == byte
  | differsByte x byte => p.register x != byte
  | equals x y => p.register x == p.register y
  | differs x y => p.register x != p.register y
  | keyDown x => p.keypad.isDown (p.register x).toNat
  | keyUp x => !p.keypad.isDown (p.register x).toNat

/-- The byte that is shifted, of the two registers of a shift instruction. -/
def ShiftRule.operand : ShiftRule → UInt8 → UInt8 → UInt8
  | legacy, _, b => b
  | modern, a, _ => a

/-- The result of an operation on the values of two registers, and the flag of the
operations that have one. -/
def Arithmetic.apply (shift : ShiftRule) (a b : UInt8) : Arithmetic → UInt8 × Option Bool
  | copy => (b, none)
  | or => (a ||| b, none)
  | and => (a &&& b, none)
  | xor => (a ^^^ b, none)
  | add => (a + b, some (decide (256 ≤ a.toNat + b.toNat)))
  | subtract => (a - b, some (decide (b < a)))
  | shiftRight => (shift.operand a b >>> 1, some (shift.operand a b &&& 1 == 1))
  | subtractFrom => (b - a, some (decide (a < b)))
  | shiftLeft => (shift.operand a b <<< 1, some (shift.operand a b >>> 7 == 1))

namespace Processor

/-! ### Effects of single instructions -/

/-- Set the flag register to one or zero. -/
def setFlag (p : Processor) (flag : Bool) : Processor :=
  p.setRegister flagRegister (if flag then 1 else 0)

/-- Set the flag register if there is a flag, and after it the register `x`, which
may be the flag register itself and then holds the result. -/
def setResult (p : Processor) (x : Register) (result : UInt8 × Option Bool) : Processor :=
  match result.2 with
  | none => p.setRegister x result.1
  | some flag => (p.setFlag flag).setRegister x result.1

/-- Draw a sprite of some rows from the index register. The flag register says
whether a lit pixel was met. -/
def drawSprite (p : Processor) (x y : Register) (rows : Nat) : Processor :=
  let sprite := p.memory.readBytes p.index.toNat rows
  let points := Sprite.points (p.register x).toNat (p.register y).toNat sprite
  let (screen, collided) := p.screen.draw points
  { p with screen, repaint := true }.setFlag collided

/-- The decimal digits of a byte, hundreds first. -/
def decimalDigits (byte : UInt8) : List UInt8 := [byte / 100, byte / 10 % 10, byte % 10]

/-- Store bytes from the index register on. -/
def storeBytes (p : Processor) (bytes : List UInt8) : Processor :=
  { p with memory := p.memory.writeBytes p.index.toNat bytes }

/-- Load the registers up to `x` from the index register on. -/
def loadRegisters (p : Processor) (x : Register) : Processor :=
  { p with
    registers := Vector.ofFn fun r : Register =>
      if r ≤ x then p.memory.read (p.index.toNat + r.val) else p.register r }

/-! ### Execution -/

/-- Execute an instruction: what it did, or why it could not be executed, and the
processor it leaves behind. Most instructions move on to the next one; a call leaves
its own address on the stack, and a return continues after it. -/
def execute (shift : ShiftRule) (noise : UInt8) (p : Processor) :
    Instruction → Except FaultKind Flow × Processor
  | .clearScreen => (.ok .draw, p.clearScreen.advance 2)
  | .ret =>
    match p.stack.pop? with
    | none => (.error .stackUnderflow, p)
    | some (site, stack) => (.ok .jump, { p with pc := site + 2, stack })
  | .jump target => (.ok .jump, { p with pc := UInt16.ofNat target.val })
  | .call target =>
    match p.stack.push? p.pc with
    | none => (.error .stackOverflow, p)
    | some stack => (.ok .jump, { p with pc := UInt16.ofNat target.val, stack })
  | .skip condition => (.ok .next, p.advance (if condition.holds p then 4 else 2))
  | .loadByte x byte => (.ok .next, (p.setRegister x byte).advance 2)
  | .addByte x byte => (.ok .next, (p.setRegister x (p.register x + byte)).advance 2)
  | .combine operation x y =>
    (.ok .next, (p.setResult x (operation.apply shift (p.register x) (p.register y))).advance 2)
  | .setIndex target => (.ok .next, { p with index := UInt16.ofNat target.val }.advance 2)
  | .jumpOffset target =>
    (.ok .jump, { p with pc := UInt16.ofNat target.val + (p.register offsetRegister).toUInt16 })
  | .random x mask => (.ok .next, (p.setRegister x (mask &&& noise)).advance 2)
  | .draw x y rows => (.ok .draw, (p.drawSprite x y rows.val).advance 2)
  | .readDelay x => (.ok .next, (p.setRegister x p.delay).advance 2)
  | .awaitKey x => (.ok .awaitKey, { p with awaiting := some x })
  | .setDelay x => (.ok .next, { p with delay := p.register x }.advance 2)
  | .setSound x => (.ok .sound, { p with sound := p.register x }.advance 2)
  | .addIndex x => (.ok .next, { p with index := p.index + (p.register x).toUInt16 }.advance 2)
  | .pointGlyph x =>
    let glyph := Font.start + (p.register x).toNat * Font.glyphHeight
    (.ok .next, { p with index := UInt16.ofNat glyph }.advance 2)
  | .storeDigits x => (.ok .next, (p.storeBytes (decimalDigits (p.register x))).advance 2)
  | .store x => (.ok .next, (p.storeBytes (p.registers.toList.take (x.val + 1))).advance 2)
  | .load x => (.ok .next, (p.loadRegisters x).advance 2)

end Processor

end Chip8
