import Chip8.Proofs.Subroutine

/-!
# What instructions touch

Most instructions leave most of the processor alone. This file says so for three parts of it:
a register waits for a key press by one instruction only (`Chip8.Processor.awaiting_execute`),
no instruction moves a key (`Chip8.Processor.keypad_execute`), and memory is written to by two,
with the bytes that `Chip8.Processor.stored` lists, from the index register on
(`Chip8.Processor.memory_execute`). Elsewhere it reads as before
(`Chip8.Memory.read_writeBytes_of_disjoint`).

From what instructions do it follows what executing something on a machine does
(`Chip8.Machine.processor_apply_of_executes`), and what driving it does, for all that neither
time nor the keypad has a bearing on (`Chip8.Machine.apply_of_isSteady`).
-/

namespace Chip8

namespace Processor

variable {p q : Processor} {shift : ShiftRule} {noise : UInt8} {i : Instruction} {flow : Flow}

/-! ### Waiting -/

@[simp] theorem awaiting_setResult (p : Processor) (x : Register)
    (result : UInt8 × Option Bool) : (p.setResult x result).awaiting = p.awaiting := by
  rw [setResult_eq]

@[simp] theorem awaiting_drawSprite (p : Processor) (x y : Register) (rows : Nat) :
    (p.drawSprite x y rows).awaiting = p.awaiting := rfl

/-- One instruction alone has a register wait. -/
theorem awaiting_execute (h : p.execute shift noise i = (.ok flow, q))
    (other : ∀ x, i ≠ .awaitKey x) : q.awaiting = p.awaiting := by
  cases i
  case ret =>
    obtain ⟨-, site, stack, -, rfl⟩ := execute_ret h
    rfl
  case call target =>
    obtain ⟨-, stack, -, rfl⟩ := execute_call h
    rfl
  case awaitKey x => exact absurd rfl (other x)
  all_goals
    cases h
    simp [advance, clearScreen, setRegister, storeBytes, loadRegisters]

/-! ### Memory -/

@[simp] theorem memory_setResult (p : Processor) (x : Register)
    (result : UInt8 × Option Bool) : (p.setResult x result).memory = p.memory := by
  rw [setResult_eq]

@[simp] theorem memory_drawSprite (p : Processor) (x y : Register) (rows : Nat) :
    (p.drawSprite x y rows).memory = p.memory := rfl

@[simp] theorem memory_pressKey (p : Processor) (key : Key) :
    (p.pressKey key).memory = p.memory := by
  unfold pressKey
  cases p.awaiting <;> rfl

/-- The bytes that an instruction stores from the index register on. -/
def stored (p : Processor) : Instruction → List UInt8
  | .storeDigits x => decimalDigits (p.register x)
  | .store x => p.registers.toList.take (x.val + 1)
  | _ => []

/-- An instruction stores no more bytes than there are registers. -/
theorem length_stored (p : Processor) (i : Instruction) : (p.stored i).length ≤ 16 := by
  cases i with
  | storeDigits x => exact Nat.le_of_ble_eq_true rfl
  | store x =>
    rw [stored, List.length_take, Vector.length_toList]
    exact Nat.min_le_right _ _
  | _ => exact Nat.zero_le _

/-- An instruction does nothing to memory but store its bytes. -/
theorem memory_execute (h : p.execute shift noise i = (.ok flow, q)) :
    q.memory = p.memory.writeBytes p.index.toNat (p.stored i) := by
  cases i
  case ret =>
    obtain ⟨-, site, stack, -, rfl⟩ := execute_ret h
    rfl
  case call target =>
    obtain ⟨-, stack, -, rfl⟩ := execute_call h
    rfl
  all_goals
    cases h
    simp [stored, advance, clearScreen, setRegister, storeBytes, loadRegisters, Memory.writeBytes]

/-! ### Keys -/

@[simp] theorem keypad_setResult (p : Processor) (x : Register)
    (result : UInt8 × Option Bool) : (p.setResult x result).keypad = p.keypad := by
  rw [setResult_eq]

@[simp] theorem keypad_drawSprite (p : Processor) (x y : Register) (rows : Nat) :
    (p.drawSprite x y rows).keypad = p.keypad := rfl

@[simp] theorem keypad_pressKey (p : Processor) (key : Key) :
    (p.pressKey key).keypad = p.keypad.set key.val true := by
  unfold pressKey
  cases p.awaiting <;> rfl

/-- No instruction moves a key. -/
theorem keypad_execute (h : p.execute shift noise i = (.ok flow, q)) : q.keypad = p.keypad := by
  cases i
  case ret =>
    obtain ⟨-, site, stack, -, rfl⟩ := execute_ret h
    rfl
  case call target =>
    obtain ⟨-, stack, -, rfl⟩ := execute_call h
    rfl
  all_goals
    cases h
    simp [advance, clearScreen, setRegister, storeBytes, loadRegisters]

end Processor

/-- Where no byte of a block is written, memory reads as before. -/
theorem Memory.read_writeBytes_of_disjoint {m : Memory} {first address : Nat}
    {bytes : List UInt8} (fits : bytes.length ≤ 4096)
    (apart : ∀ k < bytes.length, (first + k) % 4096 ≠ address % 4096) :
    (m.writeBytes first bytes).read address = m.read address := by
  -- At a shorter distance from the start of the block, the address would be within it.
  have beyond : bytes.length ≤ distance first address := by
    refine Nat.not_lt.mp fun inside => apart _ inside ?_
    unfold distance
    omega
  rw [m.read_writeBytes first address bytes fits, List.getElem?_eq_none beyond]
  rfl

/-! ### What driving preserves -/

/-- A property of the processor on which neither time nor the keypad has a bearing. -/
structure Processor.IsSteady (I : Processor → Prop) : Prop where
  /-- Counting down preserves it. -/
  countDown : ∀ p, I p → I p.countDown
  /-- Pressing a key preserves it. -/
  pressKey : ∀ p key, I p → I (p.pressKey key)
  /-- Releasing a key preserves it. -/
  releaseKey : ∀ p key, I p → I (p.releaseKey key)
  /-- Releasing all keys preserves it. -/
  releaseKeys : ∀ p, I p → I p.releaseKeys

/-- Neither time nor the keypad has a bearing on memory. -/
theorem Processor.isSteady_memory (I : Memory → Prop) : IsSteady fun p => I p.memory where
  countDown _ h := h
  pressKey p key h := by
    rw [memory_pressKey]
    exact h
  releaseKey _ _ h := h
  releaseKeys _ h := h

namespace Machine

variable {I : Processor → Prop} {m : Machine} {operation : Operation}

/-- **What executing preserves** is up to the instruction that is executed, if counting down
preserves it. -/
theorem processor_apply_of_executes (countDown : ∀ p, I p → I p.countDown)
    (executes : operation.Executes)
    (execute : ∀ {i noise flow q}, m.executed? operation = some i →
      m.processor.execute m.settings.shift noise i = (.ok flow, q) → I q)
    (h : I m.processor) : I (m.apply operation).machine.processor := by
  cases dispatched : m.dispatched? operation with
  | some word =>
    obtain ⟨-, clock, -, machine⟩ := apply_of_dispatched dispatched
    have executed : I (({ m with clock } : Machine).dispatch word).machine.processor := by
      rcases dispatch_cases { m with clock } word with
        ⟨kind, emitted, -, halted⟩ | ⟨i, flow, n, decoded, performed, done⟩
      · -- A word that is refused leaves the processor as it was.
        rw [halted]
        exact h
      · have found : m.executed? operation = some i := by
          rw [executed?, dispatched]
          exact decoded
        obtain ⟨noise, effect⟩ := execute_of_perform performed
        rw [done]
        exact execute found effect
    rcases machine with same | counted
    · rw [same]
      exact executed
    · rw [counted]
      exact countDown _ executed
  | none =>
    rcases machine_apply_of_not_dispatched executes dispatched with same | ⟨clock, now, ticked⟩
    · rw [same]
      exact h
    · rw [ticked]
      rcases processor_tickTimers { m with clock } now with same | counted
      · rw [same]
        exact h
      · rw [counted]
        exact countDown _ h

/-- **What driving a machine preserves** is up to the instruction that it executes, if
neither time nor the keypad has a bearing on it. -/
theorem apply_of_isSteady (steady : Processor.IsSteady I) (drives : operation.Drives)
    (execute : ∀ {i noise flow q}, m.executed? operation = some i →
      m.processor.execute m.settings.shift noise i = (.ok flow, q) → I q)
    (h : I m.processor) : I (m.apply operation).machine.processor := by
  cases drives with
  | step => exact processor_apply_of_executes steady.countDown .step execute h
  | execute word => exact processor_apply_of_executes steady.countDown (.execute word) execute h
  | tick now => exact processor_apply_of_executes steady.countDown (.tick now) execute h
  | pressKey key => exact steady.pressKey _ key h
  | releaseKey key => exact steady.releaseKey _ key h
  | releaseKeys => exact steady.releaseKeys _ h

end Machine

end Chip8
