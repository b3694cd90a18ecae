import Chip8.Machine.Operation
import Chip8.Proofs.Raw.Processor

/-!
# The machine in cells

`Chip8.RawMachine` is a machine whose processor is kept in cells. It executes instructions
(`Chip8.RawProcessor.execute`) and answers to operations (`Chip8.RawMachine.apply`) by
checked operations on the cells, so that an answer may be missing: that is what would happen
to a program that went past the end of an array or beyond the width of a number.

The main statements are that it never happens on the cells of a machine
(`Chip8.Processor.raw_execute`, `Chip8.Machine.raw_apply` and `Chip8.Machine.raw_run`): the
operations on the cells have a result, which is what the operations on the machine come to.
-/

namespace Chip8

/-! ### Instructions -/

namespace RawProcessor

/-- Whether a condition holds. -/
def holds (p : RawProcessor) : Condition → Option Bool
  | .equalsByte x byte => do some ((← p.register x.val) == byte)
  | .differsByte x byte => do some ((← p.register x.val) != byte)
  | .equals x y => do some ((← p.register x.val) == (← p.register y.val))
  | .differs x y => do some ((← p.register x.val) != (← p.register y.val))
  | .keyDown x => do p.isDown (← p.register x.val).toNat
  | .keyUp x => do some !(← p.isDown (← p.register x.val).toNat)

/-- Set the flag register if there is a flag, and after it the register `x`. -/
def setResult (p : RawProcessor) (x : Nat) (result : UInt8 × Option Bool) : Option RawProcessor :=
  match result.2 with
  | none => p.setRegister x result.1
  | some flag => do
    let p ← p.setRegister flagRegister.val (if flag then 1 else 0)
    p.setRegister x result.1

/-- The address of the glyph of a digit, in a word of sixteen bits. -/
def glyph (digit : UInt8) : Option UInt16 := do
  let offset ← Checked.fit UInt16.size (digit.toNat * Font.glyphHeight)
  let address ← Checked.fit UInt16.size (Font.start + offset)
  some (UInt16.ofNat address)

/-- What an instruction did, and the cells it leaves behind, having moved on to the next one. -/
def next (flow : Flow) (p : RawProcessor) : Option (Except FaultKind Flow × RawProcessor) :=
  some (.ok flow, p.advance 2)

/-- Execute an instruction on the cells. -/
def execute (shift : ShiftRule) (noise : UInt8) (p : RawProcessor) :
    Instruction → Option (Except FaultKind Flow × RawProcessor)
  | .clearScreen => next .draw p.clearScreen
  | .ret => do
    match ← p.pop with
    | none => some (.error .stackUnderflow, p)
    | some (site, p) => some (.ok .jump, { p with pc := site + 2 })
  | .jump target => some (.ok .jump, { p with pc := UInt16.ofNat target.val })
  | .call target => do
    match ← p.push p.pc with
    | none => some (.error .stackOverflow, p)
    | some p => some (.ok .jump, { p with pc := UInt16.ofNat target.val })
  | .skip condition => do
    let holds ← p.holds condition
    some (.ok .next, p.advance (if holds then 4 else 2))
  | .loadByte x byte => do next .next (← p.setRegister x.val byte)
  | .addByte x byte => do
    let value ← p.register x.val
    next .next (← p.setRegister x.val (value + byte))
  | .combine operation x y => do
    let a ← p.register x.val
    let b ← p.register y.val
    next .next (← p.setResult x.val (operation.apply shift a b))
  | .setIndex target => next .next { p with index := UInt16.ofNat target.val }
  | .jumpOffset target => do
    let offset ← p.register offsetRegister.val
    some (.ok .jump, { p with pc := UInt16.ofNat target.val + offset.toUInt16 })
  | .random x mask => do next .next (← p.setRegister x.val (mask &&& noise))
  | .draw x y rows => do next .draw (← p.drawSprite x.val y.val rows.val)
  | .readDelay x => do next .next (← p.setRegister x.val p.delay)
  | .awaitKey x => some (.ok .awaitKey, { p with awaiting := some (UInt8.ofNat x.val) })
  | .setDelay x => do
    let delay ← p.register x.val
    next .next { p with delay }
  | .setSound x => do
    let sound ← p.register x.val
    next .sound { p with sound }
  | .addIndex x => do
    let offset ← p.register x.val
    next .next { p with index := p.index + offset.toUInt16 }
  | .pointGlyph x => do
    let digit ← p.register x.val
    let index ← glyph digit
    next .next { p with index }
  | .storeDigits x => do
    let byte ← p.register x.val
    next .next (← p.storeDigits byte)
  | .store x => do next .next (← p.storeRegisters x.val)
  | .load x => do next .next (← p.loadRegisters x.val)

end RawProcessor

namespace Processor

variable (p : Processor)

theorem raw_holds (condition : Condition) : p.raw.holds condition = some (condition.holds p) := by
  cases condition <;> simp [RawProcessor.holds, Condition.holds, raw_register, raw_isDown]

theorem raw_setResult (x : Register) (result : UInt8 × Option Bool) :
    p.raw.setResult x.val result = some (p.setResult x result).raw := by
  obtain ⟨value, flag⟩ := result
  cases flag with
  | none => exact p.raw_setRegister x value
  | some flag =>
    have flagged := p.raw_setRegister flagRegister (if flag then 1 else 0)
    simp only [RawProcessor.setResult, flagged, Option.bind_eq_bind, Option.bind_some]
    exact raw_setRegister _ x value

theorem raw_next (flow : Flow) :
    RawProcessor.next flow p.raw = some (.ok flow, (p.advance 2).raw) :=
  rfl

/-- The address of a glyph is well within sixteen bits. -/
theorem glyph_eq_some (digit : UInt8) :
    RawProcessor.glyph digit =
      some (UInt16.ofNat (Font.start + digit.toNat * Font.glyphHeight)) := by
  have narrow : digit.toNat * Font.glyphHeight < UInt16.size :=
    Nat.lt_of_lt_of_le (Nat.mul_lt_mul_of_pos_right digit.toNat_lt (by decide)) (by decide)
  have address : Checked.fit UInt16.size (Font.start + digit.toNat * Font.glyphHeight) = some _ :=
    Checked.fit_of_lt (by rwa [Font.start, Nat.zero_add])
  rw [RawProcessor.glyph, Checked.fit_of_lt narrow, Option.bind_eq_bind, Option.bind_some, address]
  rfl

/-- **An instruction can be executed on the cells of a processor**, and comes to the same
there. -/
theorem raw_execute (shift : ShiftRule) (noise : UInt8) (i : Instruction) :
    p.raw.execute shift noise i =
      some ((p.execute shift noise i).1, (p.execute shift noise i).2.raw) := by
  cases i with
  | clearScreen =>
    rw [RawProcessor.execute, raw_clearScreen]
    rfl
  | ret =>
    simp only [RawProcessor.execute, raw_pop, execute, Option.bind_eq_bind, Option.bind_some]
    cases p.stack.pop? <;> rfl
  | call target =>
    have pushed : p.raw.push p.raw.pc = _ := p.raw_push p.pc
    simp only [RawProcessor.execute, pushed, execute, Option.bind_eq_bind, Option.bind_some]
    cases p.stack.push? p.pc <;> rfl
  | jump target | awaitKey x | setIndex target => rfl
  | skip condition =>
    rw [RawProcessor.execute, raw_holds]
    rfl
  | loadByte x byte | random x mask =>
    rw [RawProcessor.execute, raw_setRegister]
    rfl
  | readDelay x =>
    have loaded : p.raw.setRegister x.val p.raw.delay = _ := p.raw_setRegister x p.delay
    rw [RawProcessor.execute, loaded]
    rfl
  | addByte x byte =>
    simp only [RawProcessor.execute, raw_register, raw_setRegister, Option.bind_eq_bind,
      Option.bind_some]
    rfl
  | combine operation x y =>
    simp only [RawProcessor.execute, raw_register, raw_setResult, Option.bind_eq_bind,
      Option.bind_some]
    rfl
  | jumpOffset target | setDelay x | setSound x | addIndex x =>
    simp only [RawProcessor.execute, raw_register, Option.bind_eq_bind, Option.bind_some]
    rfl
  | draw x y rows =>
    rw [RawProcessor.execute, raw_drawSprite]
    exact raw_next _ _
  | pointGlyph x =>
    simp only [RawProcessor.execute, raw_register, glyph_eq_some, Option.bind_eq_bind,
      Option.bind_some]
    rfl
  | storeDigits x =>
    simp only [RawProcessor.execute, raw_register, raw_storeDigits, Option.bind_eq_bind,
      Option.bind_some]
    exact raw_next _ _
  | store x =>
    rw [RawProcessor.execute, raw_storeRegisters]
    exact raw_next _ _
  | load x =>
    rw [RawProcessor.execute, raw_loadRegisters]
    exact raw_next _ _

end Processor

/-! ### The machine -/

/-- A machine whose processor is kept in cells. -/
structure RawMachine where
  /-- The choices made for it. -/
  settings : Settings
  /-- The seed of its random bytes if its settings have none. -/
  entropy : UInt64
  /-- The cells of the processor. -/
  processor : RawProcessor
  /-- The gate through which instructions are executed. -/
  clock : Gate
  /-- The gate through which the timers are counted down. -/
  timer : Gate
  /-- The random bytes. -/
  random : RandomStream
  /-- The fault that stopped the machine. -/
  fault : Option Fault

namespace RawMachine

/-! ### Starting -/

/-- Bring a machine back to its start. -/
def reset (m : RawMachine) : Option RawMachine := do
  let processor ← RawProcessor.powerOn
  some { m with
    processor
    clock := m.clock.forget
    timer := m.timer.forget
    random := .ofSeed (m.settings.seed.getD m.entropy)
    fault := none }

/-- Build a machine. -/
def create (settings : Settings) (entropy : UInt64) : Option RawMachine :=
  reset {
    settings, entropy
    processor := .blank
    clock := .ofInterval settings.interval
    timer := .ofInterval Machine.timerInterval
    random := .ofSeed (settings.seed.getD entropy)
    fault := none }

/-- Load a program. -/
def load (m : RawMachine) (program : List UInt8) : Option (Except LoadError Unit × RawMachine) :=
  if Memory.programCapacity < program.length then some (.error (.tooLarge program.length), m)
  else do
    let m ← m.reset
    let processor ← m.processor.loadProgram program
    some (.ok (), { m with processor })

/-- Load a program from a source of bytes. -/
def loadFrom (m : RawMachine) (source : ByteSource) :
    Option (Except LoadError Unit × RawMachine) :=
  match source.readAll with
  | .ok program => m.load program
  | .error cause => some (.error (.unreadable cause), m)

/-- Load a program from a file, given by what comes of opening it. -/
def loadFile (m : RawMachine) (opened : Except FileError ByteSource) :
    Option (Except LoadError Unit × RawMachine) :=
  match opened with
  | .ok source => m.loadFrom source
  | .error cause => some (.error (.unreadable cause), m)

/-! ### Running -/

/-- Have the processor execute an instruction. -/
def perform (m : RawMachine) (i : Instruction) : Option (Except FaultKind Flow × RawMachine) := do
  let (noise, random) := if i.drawsRandom then m.random.draw else (0, m.random)
  let (result, processor) ← m.processor.execute m.settings.shift noise i
  some (result, { m with processor, random })

/-- Stop a machine because of a fault. -/
def halt (m : RawMachine) (fault : Fault) : Except Fault Flow × RawMachine :=
  (.error fault, { m with fault := some fault })

/-- Execute a word on a machine that neither was stopped nor waits. -/
def dispatch (m : RawMachine) (word : UInt16) : Option (Except Fault Flow × RawMachine) :=
  match Instruction.decode word with
  | none => some (m.halt ⟨.unknownInstruction, m.processor.pc, word⟩)
  | some i => do
    match ← m.perform i with
    | (.error kind, m') => some (m'.halt ⟨kind, m.processor.pc, word⟩)
    | (.ok flow, m') => some (.ok flow, m')

/-- Execute a word as if it stood at the program counter. -/
def execute (m : RawMachine) (word : UInt16) : Option (Except Fault Flow × RawMachine) :=
  match m.fault with
  | some fault => some (.error fault, m)
  | none =>
    match m.processor.awaiting with
    | some _ => some (.ok .awaitKey, m)
    | none => m.dispatch word

/-- Execute the word at the program counter. -/
def step (m : RawMachine) : Option (Except Fault Flow × RawMachine) := do
  let word ← m.processor.fetch
  m.execute word

/-- Report a time to the gate of the timers, and count them down if it fires. -/
def tickTimers (m : RawMachine) (now : Nat) : RawMachine :=
  let (fires, timer) := m.timer.poll now
  if fires then { m with timer, processor := m.processor.countDown } else { m with timer }

/-- Report a time to the gate of the instructions, and execute one if it fires. -/
def tickClock (m : RawMachine) (now : Nat) : Option (Except Fault Flow × RawMachine) :=
  match m.processor.awaiting with
  | some _ => some (.ok .idle, { m with clock := m.clock.arm now })
  | none =>
    let (fires, clock) := m.clock.poll now
    let m := { m with clock }
    if fires then m.step else some (.ok .idle, m)

/-- Advance a machine to a time. -/
def tick (m : RawMachine) (now : Nat) : Option (Except Fault Flow × RawMachine) :=
  match m.fault with
  | some fault => some (.error fault, m)
  | none => do
    match ← m.tickClock now with
    | (.error fault, m) => some (.error fault, m)
    | (.ok flow, m) => some (.ok flow, m.tickTimers now)

/-! ### Operations -/

/-- The machine with other cells. -/
def withProcessor (m : RawMachine) (processor : Option RawProcessor) :
    Option (Answer × RawMachine) := do
  some (.done, { m with processor := ← processor })

/-- Pass an answer on in another form. -/
def answer {α : Type} (f : α → Answer) (outcome : Option (α × RawMachine)) :
    Option (Answer × RawMachine) := do
  let (a, m) ← outcome
  some (f a, m)

/-- Do something to a machine. -/
def apply (m : RawMachine) : Operation → Option (Answer × RawMachine)
  | .reset => do some (.done, ← m.reset)
  | .load program => answer .ofLoading (m.load program)
  | .loadFrom source => answer .ofLoading (m.loadFrom source)
  | .loadFile _ opened => answer .ofLoading (m.loadFile opened)
  | .step => answer .ofExecution m.step
  | .execute word => answer .ofExecution (m.execute word)
  | .tick now => answer .ofExecution (m.tick now)
  | .pressKey key => m.withProcessor (m.processor.pressKey key)
  | .releaseKey key => m.withProcessor (m.processor.setKey key.val false)
  | .releaseKeys => m.withProcessor (some { m.processor with keys := 0 })
  | .markPainted => m.withProcessor (some { m.processor with repaint := false })
  | .takeRepaint =>
    some (.flag m.processor.repaint, { m with processor := { m.processor with repaint := false } })
  | .edit change => m.withProcessor (m.processor.edit change)

/-- The machine after a sequence of operations. -/
def run (m : RawMachine) (operations : List Operation) : Option RawMachine :=
  operations.foldlM (fun m operation => do some (← m.apply operation).2) m

end RawMachine

namespace Machine

/-- The cells of a machine. -/
def raw (m : Machine) : RawMachine where
  settings := m.settings
  entropy := m.entropy
  processor := m.processor.raw
  clock := m.clock
  timer := m.timer
  random := m.random
  fault := m.fault

variable (m : Machine)

/-! ### Starting -/

theorem raw_reset : m.raw.reset = some m.reset.machine.raw := by
  rw [RawMachine.reset, Processor.raw_powerOn]
  rfl

theorem raw_create (settings : Settings) (entropy : UInt64) :
    RawMachine.create settings entropy = some (create settings entropy).machine.raw := by
  rw [RawMachine.create, RawMachine.reset, Processor.raw_powerOn]
  rfl

theorem raw_load (program : List UInt8) :
    m.raw.load program = some ((m.load program).answer, (m.load program).machine.raw) := by
  simp only [RawMachine.load, load]
  split
  case isTrue large => rfl
  case isFalse fits =>
    have copied := m.reset.machine.processor.raw_loadProgram (Nat.not_lt.mp fits)
    simp only [raw_reset, Option.bind_eq_bind, Option.bind_some]
    refine (congrArg (Option.bind · _) copied).trans ?_
    rfl

theorem raw_loadFrom (source : ByteSource) :
    m.raw.loadFrom source = some ((m.loadFrom source).answer, (m.loadFrom source).machine.raw) := by
  unfold RawMachine.loadFrom loadFrom
  cases source.readAll with
  | ok program => exact m.raw_load program
  | error cause => rfl

theorem raw_loadFile (path : String) (opened : Except FileError ByteSource) :
    m.raw.loadFile opened =
      some ((m.loadFile path opened).answer, (m.loadFile path opened).machine.raw) := by
  cases opened with
  | ok source => exact m.raw_loadFrom source
  | error cause => rfl

/-! ### Running -/

theorem raw_perform (i : Instruction) :
    m.raw.perform i = some ((m.perform i).1, (m.perform i).2.raw) := by
  have random : m.raw.random = m.random := rfl
  simp only [RawMachine.perform, perform, random]
  -- The random bytes lie in no cells, so both machines draw the same one.
  generalize (if i.drawsRandom then m.random.draw else (0, m.random)) = drawn
  have executed := m.processor.raw_execute m.settings.shift drawn.1 i
  exact (congrArg (Option.bind · _) executed).trans rfl

theorem raw_dispatch (word : UInt16) :
    m.raw.dispatch word = some ((m.dispatch word).answer, (m.dispatch word).machine.raw) := by
  unfold RawMachine.dispatch dispatch
  cases Instruction.decode word with
  | none => rfl
  | some i =>
    simp only [raw_perform, Option.bind_eq_bind, Option.bind_some]
    rcases m.perform i with ⟨kind | flow, n⟩
    · rfl
    · rfl

theorem raw_execute (word : UInt16) :
    m.raw.execute word = some ((m.execute word).answer, (m.execute word).machine.raw) := by
  have fault : m.raw.fault = m.fault := rfl
  have awaiting : m.raw.processor.awaiting = m.processor.awaiting.map fun x => .ofNat x.val := rfl
  simp only [RawMachine.execute, execute, fault, awaiting]
  cases m.fault with
  | some fault => rfl
  | none =>
    cases m.processor.awaiting with
    | some x => rfl
    | none => exact m.raw_dispatch word

theorem raw_step : m.raw.step = some (m.step.answer, m.step.machine.raw) := by
  have fetched : m.raw.processor.fetch = some m.processor.fetch := m.processor.raw_fetch
  rw [RawMachine.step, fetched]
  exact m.raw_execute _

theorem raw_tickTimers (now : Nat) : m.raw.tickTimers now = (m.tickTimers now).raw := by
  have timer : m.raw.timer = m.timer := rfl
  simp only [RawMachine.tickTimers, tickTimers, timer]
  cases (m.timer.poll now).1 <;> rfl

theorem raw_tickClock (now : Nat) :
    m.raw.tickClock now = some ((m.tickClock now).answer, (m.tickClock now).machine.raw) := by
  have awaiting : m.raw.processor.awaiting = m.processor.awaiting.map fun x => .ofNat x.val := rfl
  have clock : m.raw.clock = m.clock := rfl
  simp only [RawMachine.tickClock, tickClock, awaiting, clock]
  cases m.processor.awaiting with
  | some x => rfl
  | none =>
    cases (m.clock.poll now).1 with
    | false => rfl
    | true => exact raw_step { m with clock := (m.clock.poll now).2 }

theorem raw_tick (now : Nat) :
    m.raw.tick now = some ((m.tick now).answer, (m.tick now).machine.raw) := by
  have fault : m.raw.fault = m.fault := rfl
  simp only [RawMachine.tick, tick, fault, raw_tickClock, Option.bind_eq_bind, Option.bind_some]
  cases m.fault with
  | some fault => rfl
  | none =>
    rcases m.tickClock now with ⟨fault | flow, n, lines⟩
    · rfl
    · exact congrArg (fun n => some (Except.ok flow, n)) (n.raw_tickTimers now)

/-! ### Operations -/

theorem raw_withProcessor {p : Processor} {outcome : Option RawProcessor}
    (h : outcome = some p.raw) :
    m.raw.withProcessor outcome = some (.done, { m with processor := p }.raw) := by
  rw [h]
  rfl

theorem raw_answer {α : Type} (f : α → Answer) {r : Response α} {outcome : Option (α × RawMachine)}
    (h : outcome = some (r.answer, r.machine.raw)) :
    RawMachine.answer f outcome = some ((r.map f).answer, (r.map f).machine.raw) := by
  rw [h]
  rfl

/-- **Every operation can be carried out on the cells of a machine**, and comes to the same
there. -/
theorem raw_apply (operation : Operation) :
    m.raw.apply operation =
      some ((m.apply operation).answer, (m.apply operation).machine.raw) := by
  cases operation with
  | reset =>
    rw [RawMachine.apply, raw_reset]
    rfl
  | load program => exact raw_answer _ (m.raw_load program)
  | loadFrom source => exact raw_answer _ (m.raw_loadFrom source)
  | loadFile path opened => exact raw_answer _ (m.raw_loadFile path opened)
  | step => exact raw_answer _ m.raw_step
  | execute word => exact raw_answer _ (m.raw_execute word)
  | tick now => exact raw_answer _ (m.raw_tick now)
  | pressKey key => exact m.raw_withProcessor (m.processor.raw_pressKey key)
  | releaseKey key => exact m.raw_withProcessor (m.processor.raw_setKey key.val false)
  | releaseKeys =>
    refine m.raw_withProcessor (p := m.processor.releaseKeys) ?_
    rw [← Keypad.bits_released]
    rfl
  | markPainted | takeRepaint => rfl
  | edit change => exact m.raw_withProcessor (m.processor.raw_edit change)

/-- **Every run can be carried out on the cells of a machine**, and comes to the same there. -/
theorem raw_run (operations : List Operation) :
    m.raw.run operations = some (m.run operations).raw := by
  induction operations generalizing m with
  | nil => rfl
  | cons operation operations ih =>
    rw [RawMachine.run, List.foldlM_cons, raw_apply]
    exact ih _

end Machine

end Chip8
