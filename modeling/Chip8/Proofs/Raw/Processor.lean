import Chip8.Processor.Edit
import Chip8.Processor.Execute
import Chip8.Proofs.Raw.Cells

/-!
# The processor in cells

`Chip8.RawProcessor` is the state of a processor in arrays of fixed length and words of fixed
width. Nothing in it keeps the number of open calls within the stack, a pixel to zero or one,
or a register that waits among the sixteen there are. What is done to it goes through checked
operations, and has no result where an array has no such place or a number does not fit.

`Chip8.Processor.raw` says how a processor lies in cells. The main statements of this file
are that everything done to a processor from outside, and everything instructions are made
of, can be done to its cells, and comes to the same: `Chip8.Processor.raw_drawSprite` for
sprites, `Chip8.Processor.raw_storeRegisters` and `Chip8.Processor.raw_loadRegisters` for
blocks of registers, and `Chip8.Processor.raw_edit` for changes from outside.
-/

namespace Chip8

/-- The state of a processor in arrays of fixed length and words of fixed width. -/
structure RawProcessor where
  /-- The address of the instruction to be executed next. -/
  pc : UInt16
  /-- The index register. -/
  index : UInt16
  /-- The general purpose registers. -/
  registers : Vector UInt8 16
  /-- The slots of the call stack. -/
  slots : Vector UInt16 16
  /-- The number of slots in use. -/
  depth : UInt8
  /-- The delay timer. -/
  delay : UInt8
  /-- The sound timer. -/
  sound : UInt8
  /-- The number of the register that waits for a key press, if one does. -/
  awaiting : Option UInt8
  /-- The keypad, with a bit for each key. -/
  keys : UInt16
  /-- The main memory. -/
  memory : Vector UInt8 4096
  /-- The screen, with a byte for each pixel. -/
  pixels : Vector UInt8 2048
  /-- Whether the screen may have changed since it was last painted. -/
  repaint : Bool

namespace RawProcessor

/-! ### The cells of a processor at start -/

/-- All cells zero. -/
def blank : RawProcessor where
  pc := UInt16.ofNat Memory.programStart
  index := 0
  registers := Vector.replicate 16 0
  slots := Vector.replicate 16 0
  depth := 0
  delay := 0
  sound := 0
  awaiting := none
  keys := 0
  memory := Vector.replicate 4096 0
  pixels := Vector.replicate 2048 0
  repaint := false

/-- The cells at start, with the font copied into memory. -/
def powerOn : Option RawProcessor := do
  let memory ← Checked.copy (Vector.replicate 4096 0) Font.start Font.bytes
  some { blank with memory, repaint := true }

/-! ### Registers and timers -/

/-- The value of the register with a number. -/
def register (p : RawProcessor) (x : Nat) : Option UInt8 := p.registers[x]?

/-- Set the register with a number. -/
def setRegister (p : RawProcessor) (x : Nat) (value : UInt8) : Option RawProcessor := do
  let registers ← Checked.set p.registers x value
  some { p with registers }

/-- Move on by a number of bytes. -/
def advance (p : RawProcessor) (count : UInt16) : RawProcessor := { p with pc := p.pc + count }

/-- Count both timers down, no further than zero. -/
def countDown (p : RawProcessor) : RawProcessor :=
  { p with
    delay := if p.delay = 0 then 0 else p.delay - 1
    sound := if p.sound = 0 then 0 else p.sound - 1 }

/-! ### Calls -/

/-- The addresses of the open calls, the outermost first. -/
def calls (p : RawProcessor) : Option (List UInt16) := Checked.front p.slots p.depth.toNat

/-- Open a call at an address, if there is a slot left. -/
def push (p : RawProcessor) (site : UInt16) : Option (Option RawProcessor) :=
  if h : p.depth.toNat < 16 then do
    let depth ← Checked.fit UInt8.size (p.depth.toNat + 1)
    some (some { p with slots := p.slots.set p.depth.toNat site, depth := UInt8.ofNat depth })
  else some none

/-- Close the innermost open call, if there is one. -/
def pop (p : RawProcessor) : Option (Option (UInt16 × RawProcessor)) :=
  if p.depth = 0 then some none
  else do
    let site ← p.slots[(p.depth - 1).toNat]?
    some (some (site, { p with depth := p.depth - 1 }))

/-- Replace the open calls, as far as there are slots for them. -/
def setCalls (p : RawProcessor) (sites : List UInt16) : Option RawProcessor := do
  let count := min sites.length 16
  let slots ← Checked.copy (Vector.replicate 16 0) 0 (sites.take count)
  some { p with slots, depth := UInt8.ofNat count }

/-! ### Memory -/

/-- The byte at an address, of which the low twelve bits count. -/
def read (p : RawProcessor) (address : Nat) : Option UInt8 := p.memory[address &&& 0xFFF]?

/-- Put a byte at an address, of which the low twelve bits count. -/
def write (p : RawProcessor) (address : Nat) (byte : UInt8) : Option RawProcessor := do
  let memory ← Checked.set p.memory (address &&& 0xFFF) byte
  some { p with memory }

/-- The word at the program counter. -/
def fetch (p : RawProcessor) : Option UInt16 := do
  let high ← p.read p.pc.toNat
  let low ← p.read (← Checked.sum p.pc.toNat 1)
  some (Word.ofBytes high low)

/-- Store the decimal digits of a byte from the index register on, hundreds first. -/
def storeDigits (p : RawProcessor) (byte : UInt8) : Option RawProcessor := do
  let hundreds ← p.write p.index.toNat (byte / 100)
  let tens ← hundreds.write (← Checked.sum p.index.toNat 1) (byte / 10 % 10)
  tens.write (← Checked.sum p.index.toNat 2) (byte % 10)

/-- Store a register behind an address. -/
def storeOne (first : Nat) (p : RawProcessor) (x : Nat) : Option RawProcessor := do
  p.write (← Checked.sum first x) (← p.register x)

/-- Store the registers up to `x` from the index register on. -/
def storeRegisters (p : RawProcessor) (x : Nat) : Option RawProcessor :=
  (List.range (x + 1)).foldlM (storeOne p.index.toNat) p

/-- Load a register from behind an address. -/
def loadOne (first : Nat) (p : RawProcessor) (x : Nat) : Option RawProcessor := do
  p.setRegister x (← p.read (← Checked.sum first x))

/-- Load the registers up to `x` from the index register on. -/
def loadRegisters (p : RawProcessor) (x : Nat) : Option RawProcessor :=
  (List.range (x + 1)).foldlM (loadOne p.index.toNat) p

/-- Copy a program into memory. -/
def loadProgram (p : RawProcessor) (program : List UInt8) : Option RawProcessor := do
  let memory ← Checked.copy p.memory Memory.programStart program
  some { p with memory }

/-! ### Keys -/

/-- Move the key with a number down or up; numbers that name no key count for nothing. -/
def setKey (p : RawProcessor) (code : Nat) (down : Bool) : Option RawProcessor :=
  if code < 16 then do
    let bit ← Checked.bit code
    some { p with keys := if down then p.keys ||| bit else p.keys &&& ~~~bit }
  else some p

/-- Whether the key with a number is down. -/
def isDown (p : RawProcessor) (code : Nat) : Option Bool :=
  if code < 16 then do
    let bit ← Checked.bit code
    some (p.keys &&& bit != 0)
  else some false

/-- Whether any key is down. -/
def anyDown (p : RawProcessor) : Bool := 0 < p.keys

/-- Press a key, and resume a register that waits. -/
def pressKey (p : RawProcessor) (key : Key) : Option RawProcessor := do
  let p ← p.setKey key.val true
  match p.awaiting with
  | none => some p
  | some x =>
    let p ← { p with awaiting := none }.setRegister x.toNat (UInt8.ofNat key.val)
    some (p.advance 2)

/-! ### The screen -/

/-- Blank the screen. -/
def clearScreen (p : RawProcessor) : RawProcessor :=
  { p with pixels := Vector.replicate 2048 0, repaint := true }

/-- Toggle a pixel, and note whether it was lit. -/
def plot (state : Vector UInt8 2048 × Bool) (point : Nat) : Vector UInt8 2048 × Bool :=
  let (pixels, lit) := Screen.plot state.1 point
  (pixels, state.2 || lit)

/-- Toggle the pixel under a bit, if it is set: the bit in column `c` of a row, which is the
row `k` of a sprite at `x` and `y`. -/
def plotBit (x y k : Nat) (row : UInt8) (state : Vector UInt8 2048 × Bool) (c : Nat) :
    Option (Vector UInt8 2048 × Bool) := do
  let bits ← Checked.shiftRight row (← Checked.difference 7 c)
  if bits &&& 1 = 0 then some state
  else
    let line ← Checked.product (← Checked.sum y k) Screen.width
    let column ← Checked.sum x c
    some (plot state (← Checked.sum line column))

/-- Toggle the pixels under the bits of the row `k` of a sprite at `x` and `y`, whose first
row lies at an address. -/
def plotRow (p : RawProcessor) (x y : Nat) (state : Vector UInt8 2048 × Bool) (k : Nat) :
    Option (Vector UInt8 2048 × Bool) := do
  let row ← p.read (← Checked.sum p.index.toNat k)
  (List.range 8).foldlM (plotBit x y k row) state

/-- Draw a sprite of some rows from the index register. The flag register says whether a lit
pixel was met. -/
def drawSprite (p : RawProcessor) (x y : Nat) (rows : Nat) : Option RawProcessor := do
  let column ← p.register x
  let line ← p.register y
  let (pixels, collided) ←
    (List.range rows).foldlM (p.plotRow column.toNat line.toNat) (p.pixels, false)
  { p with pixels, repaint := true }.setRegister flagRegister.val (if collided then 1 else 0)

/-! ### Changes from outside -/

/-- Make a change. -/
def edit (p : RawProcessor) : Processor.Edit → Option RawProcessor
  | .replace => some blank
  | .setPc address => some { p with pc := address }
  | .setIndex address => some { p with index := address }
  | .setDelay value => some { p with delay := value }
  | .setSound value => some { p with sound := value }
  | .setRegister number value => p.setRegister (number &&& 0xF) value
  | .setStack sites => p.setCalls sites
  | .write address byte => p.write address byte
  | .setKey code down => p.setKey code.toNat down
  | .countDown => some p.countDown
  | .clearScreen => some p.clearScreen

end RawProcessor

namespace Processor

/-- The cells of a processor. -/
def raw (p : Processor) : RawProcessor where
  pc := p.pc
  index := p.index
  registers := p.registers
  slots := p.stack.slots
  depth := UInt8.ofNat p.stack.depth
  delay := p.delay
  sound := p.sound
  awaiting := p.awaiting.map fun x => UInt8.ofNat x.val
  keys := p.keypad.bits
  memory := p.memory.cells
  pixels := p.screen.bytes
  repaint := p.repaint

variable (p : Processor)

/-! ### Registers -/

theorem raw_register (x : Register) : p.raw.register x.val = some (p.register x) := by
  simp [RawProcessor.register, raw, register]

theorem raw_setRegister (x : Register) (value : UInt8) :
    p.raw.setRegister x.val value = some (p.setRegister x value).raw := by
  rw [RawProcessor.setRegister, Checked.set_of_lt x.isLt]
  rfl

/-! ### Calls -/

theorem toNat_raw_depth : p.raw.depth.toNat = p.stack.depth :=
  UInt8.toNat_ofNat_of_lt' (Nat.lt_of_le_of_lt p.stack.bounded (by decide))

theorem raw_calls : p.raw.calls = some p.stack.toList := by
  rw [RawProcessor.calls, toNat_raw_depth]
  exact if_pos p.stack.bounded

theorem raw_push (site : UInt16) :
    p.raw.push site = some ((p.stack.push? site).map fun stack => { p with stack }.raw) := by
  simp only [RawProcessor.push, toNat_raw_depth, CallStack.push?]
  split
  case isTrue h =>
    have fits : Checked.fit UInt8.size (p.stack.depth + 1) = some (p.stack.depth + 1) :=
      Checked.fit_of_lt (Nat.lt_trans (Nat.succ_lt_succ h) (by decide))
    rw [fits]
    rfl
  case isFalse h => rfl

theorem raw_pop :
    p.raw.pop = some (p.stack.pop?.map fun (site, stack) => (site, { p with stack }.raw)) := by
  have number := p.toNat_raw_depth
  obtain ⟨pc, index, registers, ⟨slots, depth, bounded⟩, rest⟩ := p
  cases depth with
  | zero => rfl
  | succ depth =>
    -- The last slot in use has a number one less than that of the slots in use.
    have less : UInt8.ofNat (depth + 1) - 1 = UInt8.ofNat depth := by
      rw [UInt8.ofNat_add]
      simp
    have used : UInt8.ofNat (depth + 1) ≠ 0 := by
      intro zero
      have := congrArg UInt8.toNat zero
      simp only [raw] at number
      rw [number] at this
      simp at this
    have site : (UInt8.ofNat depth).toNat = depth :=
      UInt8.toNat_ofNat_of_lt' (Nat.lt_of_lt_of_le bounded (by decide))
    have held : slots[depth]? = some slots[depth] := Vector.getElem?_eq_getElem bounded
    simp only [RawProcessor.pop, raw, used, if_false, less, site, held]
    rfl

theorem raw_setCalls (sites : List UInt16) :
    p.raw.setCalls sites = some { p with stack := .ofList sites }.raw := by
  have fits : 0 + (sites.take (min sites.length 16)).length ≤ 16 := by
    rw [List.length_take]
    omega
  have slots : (Vector.ofFn fun k : Fin 16 =>
      if 0 ≤ k.val then
        (sites.take (min sites.length 16))[k.val - 0]?.getD (Vector.replicate 16 0)[k]
      else (Vector.replicate 16 0)[k]) = (CallStack.ofList sites).slots := by
    ext k small
    simp [CallStack.ofList, List.getElem?_take]
    grind
  rw [RawProcessor.setCalls, Checked.copy, if_pos fits, slots]
  rfl

/-! ### Memory -/

theorem and_mask (address : Nat) : address &&& 0xFFF = address % 4096 :=
  Nat.and_two_pow_sub_one_eq_mod address 12

theorem raw_read (address : Nat) : p.raw.read address = some (p.memory.read address) := by
  rw [RawProcessor.read, and_mask, Vector.getElem?_eq_getElem (Nat.mod_lt _ (by decide))]
  rfl

theorem raw_write (address : Nat) (byte : UInt8) :
    p.raw.write address byte = some { p with memory := p.memory.write address byte }.raw := by
  rw [RawProcessor.write, and_mask, Checked.set_of_lt (Nat.mod_lt _ (by decide))]
  rfl

/-- The bytes behind the index register have addresses. -/
theorem sum_index {offset : Nat} (h : offset < 65536) :
    Checked.sum p.raw.index.toNat offset = some (p.index.toNat + offset) :=
  Checked.sum_of_narrow p.index.toNat_lt h

theorem raw_fetch : p.raw.fetch = some p.fetch := by
  have next : Checked.sum p.raw.pc.toNat 1 = some (p.pc.toNat + 1) :=
    Checked.sum_of_narrow p.pc.toNat_lt (by decide)
  rw [RawProcessor.fetch, next]
  simp only [Option.bind_eq_bind, Option.bind_some, raw_read]
  rfl

theorem raw_loadProgram {program : List UInt8} (fits : program.length ≤ Memory.programCapacity) :
    p.raw.loadProgram program = some { p with memory := p.memory.loadProgram program }.raw := by
  have inside : Memory.programStart + program.length ≤ 4096 := Nat.add_le_add_left fits 512
  have copied : Checked.copy p.raw.memory Memory.programStart program =
      some (p.memory.loadProgram program).cells :=
    p.memory.copy_cells inside
  rw [RawProcessor.loadProgram, copied]
  rfl

theorem raw_storeDigits (byte : UInt8) :
    p.raw.storeDigits byte = some (p.storeBytes (decimalDigits byte)).raw := by
  rw [RawProcessor.storeDigits, sum_index p (by decide), sum_index p (by decide)]
  simp only [Option.bind_eq_bind, Option.bind_some, raw_write]
  rfl

/-- Registers are stored one by one as they are stored in a block. -/
theorem raw_storeRegisters (x : Register) :
    p.raw.storeRegisters x.val =
      some (p.storeBytes (p.registers.toList.take (x.val + 1))).raw := by
  -- After `k` rounds of the loop, the first `k` registers are stored.
  refine Checked.foldlM_range (fun k => (p.storeBytes (p.registers.toList.take k)).raw) _ ?_
  intro k h
  have small : k < 16 := by omega
  have byte : (p.storeBytes (p.registers.toList.take k)).raw.register k =
      some (p.register ⟨k, small⟩) :=
    raw_register _ ⟨k, small⟩
  have next : p.registers.toList.take (k + 1) =
      p.registers.toList.take k ++ [p.register ⟨k, small⟩] := by
    simp [List.take_add_one, small, register]
  rw [RawProcessor.storeOne, sum_index p (by omega), byte, next]
  simp [raw_write, storeBytes, Memory.writeBytes_append, Nat.le_of_lt small, Memory.writeBytes]

/-- The registers after so many of them were loaded from the index register on. -/
def loadedRegisters (count : Nat) : Vector UInt8 16 :=
  .ofFn fun r : Register =>
    if r.val < count then p.memory.read (p.index.toNat + r.val) else p.register r

theorem loadedRegisters_zero : p.loadedRegisters 0 = p.registers := by
  ext r h
  simp [loadedRegisters, register]

theorem loadedRegisters_succ (x : Register) :
    p.loadedRegisters (x.val + 1) =
      (p.loadedRegisters x.val).set x.val (p.memory.read (p.index.toNat + x.val)) x.isLt := by
  ext r h
  simp only [loadedRegisters, Vector.getElem_set, Vector.getElem_ofFn]
  by_cases here : x.val = r
  · simp [here]
  · have before : r < x.val + 1 ↔ r < x.val := by omega
    simp only [here, if_false, before]

theorem registers_loadRegisters (x : Register) :
    (p.loadRegisters x).registers = p.loadedRegisters (x.val + 1) := by
  simp only [loadRegisters, loadedRegisters, Nat.lt_succ_iff, Fin.le_def]

/-- Registers are loaded one by one as they are loaded in a block. -/
theorem raw_loadRegisters (x : Register) :
    p.raw.loadRegisters x.val = some (p.loadRegisters x).raw := by
  -- After `k` rounds of the loop, the first `k` registers are loaded.
  let state (k : Nat) : Processor := { p with registers := p.loadedRegisters k }
  have step (k : Nat) (h : k < x.val + 1) :
      (state k).raw.loadOne p.index.toNat k = some (state (k + 1)).raw := by
    have small : k < 16 := by omega
    have next : (state k).setRegister ⟨k, small⟩ (p.memory.read (p.index.toNat + k)) =
        state (k + 1) :=
      congrArg (fun v => { p with registers := v }) (p.loadedRegisters_succ ⟨k, small⟩).symm
    rw [RawProcessor.loadOne, Checked.sum_of_narrow p.index.toNat_lt (by omega)]
    simp only [Option.bind_eq_bind, Option.bind_some, raw_read]
    rw [← next]
    exact raw_setRegister (state k) ⟨k, small⟩ _
  have loop := Checked.foldlM_range (fun k => (state k).raw) (x.val + 1) step
  have start : state 0 = p := congrArg (fun v => { p with registers := v }) p.loadedRegisters_zero
  have finish : state (x.val + 1) = p.loadRegisters x :=
    congrArg (fun v => { p with registers := v }) (p.registers_loadRegisters x).symm
  rw [start, finish] at loop
  exact loop

/-! ### Keys -/

theorem raw_setKey (code : Nat) (down : Bool) :
    p.raw.setKey code down = some { p with keypad := p.keypad.set code down }.raw := by
  unfold RawProcessor.setKey
  split
  case isTrue h =>
    rw [Checked.bit_of_lt h]
    cases down with
    | true => simp [raw, Keypad.bits_set_true _ h]
    | false => simp [raw, Keypad.bits_set_false _ h]
  case isFalse h =>
    rw [Keypad.set, Vector.setIfInBounds_eq_of_size_le (Nat.not_lt.mp h)]

theorem raw_isDown (code : Nat) : p.raw.isDown code = some (p.keypad.isDown code) := by
  unfold RawProcessor.isDown
  split
  case isTrue h =>
    rw [Checked.bit_of_lt h]
    simp [raw, Keypad.bits_and_bit _ h]
  case isFalse h => simp [Keypad.isDown, h]

theorem raw_anyDown : p.raw.anyDown = p.keypad.anyDown := by
  rw [Bool.eq_iff_iff, RawProcessor.anyDown, decide_eq_true_iff]
  exact p.keypad.lt_bits_iff

/-- The number of a register can be read back from a byte. -/
theorem toNat_ofNat_register (x : Register) : (UInt8.ofNat x.val).toNat = x.val :=
  UInt8.toNat_ofNat_of_lt' (Nat.lt_trans x.isLt (by decide))

theorem raw_pressKey (key : Key) : p.raw.pressKey key = some (p.pressKey key).raw := by
  rw [RawProcessor.pressKey, raw_setKey]
  simp only [Option.bind_eq_bind, Option.bind_some]
  cases h : p.awaiting with
  | none => simp [pressKey_of_not_awaiting h, raw, h]
  | some x =>
    have resumed :=
      raw_setRegister { p with keypad := p.keypad.set key.val true, awaiting := none } x
        (UInt8.ofNat key.val)
    rw [pressKey_of_awaiting h]
    simp only [raw, Option.map_some, Option.map_none, toNat_ofNat_register] at resumed ⊢
    rw [resumed]
    rfl

/-! ### Sprites -/

theorem raw_plot (s : Screen) (collided : Bool) (point : Nat) :
    RawProcessor.plot (s.bytes, collided) point =
      ((s.toggle point).bytes, collided || s.isLit point) := by
  rw [RawProcessor.plot, Screen.plot_bytes]

/-- Points are plotted one by one as they are drawn. -/
theorem foldl_plot (s : Screen) (points : List Nat) :
    points.foldl RawProcessor.plot (s.bytes, false) =
      ((s.draw points).1.bytes, (s.draw points).2) := by
  let lie (state : Screen × Bool) : Vector UInt8 2048 × Bool := (state.1.bytes, state.2)
  have step (state : Screen × Bool) (point : Nat) :
      RawProcessor.plot (lie state) point =
        lie (state.1.toggle point, state.2 || state.1.isLit point) :=
    raw_plot state.1 state.2 point
  exact @List.foldl_hom _ _ _ lie _ _ points (s, false) step

variable {x y k : Nat} (hx : x < 256) (hy : y < 256) (hk : k < 16)

include hx hy hk

/-- The number of a pixel is small enough, also off the screen. -/
theorem plotBit_eq_some {c : Nat} (hc : c < 8) (row : UInt8) (state : Vector UInt8 2048 × Bool) :
    RawProcessor.plotBit x y k row state c =
      some (if row.toNat.testBit (7 - c) then
        RawProcessor.plot state ((y + k) * Screen.width + x + c) else state) := by
  -- All numbers on the way are those of bytes, up to a factor that is the width of the screen.
  have width : Screen.width = 64 := rfl
  have place : Checked.difference 7 c = some (7 - c) := if_pos (by omega)
  have bits : Checked.shiftRight row (7 - c) = some (row >>> UInt8.ofNat (7 - c)) :=
    if_pos (by omega)
  have number : Checked.sum y k = some (y + k) := Checked.sum_of_narrow (by omega) (by omega)
  have line : Checked.product (y + k) Screen.width = some ((y + k) * Screen.width) :=
    Checked.product_of_narrow (by omega) (by decide)
  have column : Checked.sum x c = some (x + c) := Checked.sum_of_narrow (by omega) (by omega)
  have point : Checked.sum ((y + k) * Screen.width) (x + c) =
      some ((y + k) * Screen.width + x + c) := by
    rw [Nat.add_assoc]
    exact Checked.sum_of_narrow (by rw [width]; omega) (by omega)
  have clear := @Checked.shiftRight_and_one row (7 - c) (by omega)
  cases bit : row.toNat.testBit (7 - c) with
  | false => simp [RawProcessor.plotBit, place, bits, clear, bit]
  | true => simp [RawProcessor.plotBit, place, bits, clear, bit, number, line, column, point]

theorem raw_plotRow (state : Vector UInt8 2048 × Bool) :
    p.raw.plotRow x y state k =
      some ((Sprite.rowPoints ((y + k) * Screen.width + x)
        (p.memory.read (p.index.toNat + k))).foldl RawProcessor.plot state) := by
  have bit (row : UInt8) (c : Nat) (h : c ∈ List.range 8) (state : Vector UInt8 2048 × Bool) :=
    plotBit_eq_some hx hy hk (List.mem_range.mp h) row state
  rw [RawProcessor.plotRow, sum_index p (by omega)]
  simp only [Option.bind_eq_bind, Option.bind_some, raw_read]
  rw [Checked.foldlM_eq_some (bit _), Sprite.rowPoints, List.foldl_map, List.foldl_filter]

omit hx hy hk in
/-- Sprites are drawn bit by bit as they are drawn point by point. -/
theorem raw_drawSprite (x y : Register) (rows : Fin 16) :
    p.raw.drawSprite x.val y.val rows.val = some (p.drawSprite x y rows.val).raw := by
  let drawn := p.screen.draw
    (Sprite.points (p.register x).toNat (p.register y).toNat
      (p.memory.readBytes p.index.toNat rows.val))
  have plotted : (List.range rows.val).foldlM
      (p.raw.plotRow (p.register x).toNat (p.register y).toNat) (p.raw.pixels, false) =
        some (drawn.1.bytes, drawn.2) := by
    have row (k : Nat) (h : k ∈ List.range rows.val) (state : Vector UInt8 2048 × Bool) :=
      p.raw_plotRow (p.register x).toNat_lt (p.register y).toNat_lt
        (Nat.lt_trans (List.mem_range.mp h) rows.isLt) state
    rw [Checked.foldlM_eq_some row, ← List.foldl_flatMap, ← Sprite.points_eq_flatMap]
    exact congrArg some (foldl_plot _ _)
  simp only [RawProcessor.drawSprite, raw_register, Option.bind_eq_bind, Option.bind_some,
    plotted]
  exact raw_setRegister { p with screen := drawn.1, repaint := true } flagRegister _

omit hx hy hk

/-! ### Changes from outside -/

theorem raw_clearScreen : p.raw.clearScreen = p.clearScreen.raw := by
  rw [RawProcessor.clearScreen, ← Screen.bytes_blank]
  rfl

theorem raw_blank : blank.raw = RawProcessor.blank := by
  have keys : (blank.keypad).bits = 0 := Keypad.bits_released
  have pixels : blank.screen.bytes = Vector.replicate 2048 0 := Screen.bytes_blank
  simp only [raw, keys, pixels]
  rfl

/-- The cells at start are those of a processor at start. -/
theorem raw_powerOn : RawProcessor.powerOn = some powerOn.raw := by
  have copied : Checked.copy (Vector.replicate 4096 0) Font.start Font.bytes =
      some Memory.withFont.cells :=
    Memory.zero.copy_cells (by decide)
  rw [RawProcessor.powerOn, copied, ← raw_blank]
  rfl

/-- **Every change from outside can be made to the cells**, and comes to the same there. -/
theorem raw_edit (change : Edit) : p.raw.edit change = some (p.edit change).raw := by
  cases change with
  | replace => exact congrArg some raw_blank.symm
  | setRegister number value =>
    have low : number &&& 0xF = number % 16 := Nat.and_two_pow_sub_one_eq_mod number 4
    rw [RawProcessor.edit, low]
    exact p.raw_setRegister (registerOf number) value
  | setStack sites => exact p.raw_setCalls sites
  | write address byte => exact p.raw_write address byte
  | setKey code down => exact p.raw_setKey code.toNat down
  | clearScreen => exact congrArg some p.raw_clearScreen
  | setPc _ | setIndex _ | setDelay _ | setSound _ | countDown => rfl

end Processor

end Chip8
