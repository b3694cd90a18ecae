import Chip8.Proofs.Loading
import Chip8.Proofs.Raw.Machine

/-!
# Nothing goes out of bounds

The types of a machine rule out much that can go wrong with its cells: calls beyond the
stack, a pixel that is neither lit nor dark, a register past the last one. Two things are
left to the course of operations. A machine that was stopped does not wait for a key press,
and the fault that stopped it fits its word (`Chip8.Machine.IsSound`); every operation keeps
it so (`Chip8.Machine.IsSound.apply`).

The main statement, `Chip8.RawMachine.never_traps`, is about the machine in cells, to which
none of this is given by its types. Whatever is done to it from its start, it goes on having
results, and its cells are sound (`Chip8.RawMachine.IsSound`): what they hold is within the
ranges that the operations on them rely on.
-/

namespace Chip8

/-! ### Faults and their words -/

/-- A fault whose word gives the reason for it. -/
structure Fault.IsJustified (fault : Fault) : Prop where
  /-- The unknown instructions are the words that do not decode. -/
  unknown : fault.kind = .unknownInstruction ↔ Instruction.decode fault.word = none
  /-- The stack overflows by calls only. -/
  overflow : fault.kind = .stackOverflow → Word.family fault.word = 2
  /-- The stack underflows by the return only. -/
  underflow : fault.kind = .stackUnderflow → fault.word = 0x00EE

/-- A word that is refused justifies the fault. -/
theorem Processor.Refuses.isJustified {p : Processor} {word : UInt16} {kind : FaultKind}
    (h : p.Refuses word kind) (pc : UInt16) : Fault.IsJustified ⟨kind, pc, word⟩ where
  unknown := by
    constructor
    · rintro rfl
      exact h
    · intro undecoded
      have unknown : p.Refuses word .unknownInstruction := undecoded
      exact h.unique unknown
  overflow := by
    rintro rfl
    exact h.1
  underflow := by
    rintro rfl
    exact h.1

namespace Machine

variable {m n : Machine}

/-! ### The invariant of the machine -/

/-- What the course of operations ensures of a machine. -/
structure IsSound (m : Machine) : Prop where
  /-- A machine that was stopped does not wait for a key press. -/
  exclusive : m.fault = none ∨ m.processor.awaiting = none
  /-- The word of a fault gives the reason for it. -/
  justified : ∀ fault, m.fault = some fault → fault.IsJustified

theorem IsSound.of_unstopped (h : m.fault = none) : m.IsSound where
  exclusive := Or.inl h
  justified fault stopped := by
    rw [h] at stopped
    contradiction

/-- What stops no machine, and has none wait, keeps machines sound. -/
theorem IsSound.congr (h : m.IsSound) (fault : n.fault = m.fault)
    (awaiting : n.processor.awaiting = none ∨ n.processor.awaiting = m.processor.awaiting) :
    n.IsSound where
  exclusive := by
    rw [fault]
    rcases awaiting with released | same
    · exact Or.inr released
    · rw [same]
      exact h.exclusive
  justified := by
    rw [fault]
    exact h.justified

theorem fault_perform (m : Machine) (i : Instruction) : (m.perform i).2.fault = m.fault := rfl

theorem isSound_dispatch (h : m.IsReady) (word : UInt16) : (m.dispatch word).machine.IsSound := by
  rcases dispatch_cases m word with
    ⟨kind, emitted, refused, halted⟩ | ⟨i, flow, n, -, performed, done⟩
  · -- A word is refused by a machine that is ready, on which no register waits.
    rw [halted]
    refine ⟨Or.inr h.unblocked, ?_⟩
    rintro _ ⟨rfl⟩
    exact refused.isJustified _
  · have fault := m.fault_perform i
    rw [performed, h.unstopped] at fault
    rw [done]
    exact .of_unstopped fault

theorem IsSound.tickTimers (h : m.IsSound) (now : Nat) : (m.tickTimers now).IsSound := by
  simp only [Machine.tickTimers]
  split
  · exact h.congr rfl (Or.inr rfl)
  · exact h.congr rfl (Or.inr rfl)

/-- To execute something, or to let time go by, keeps a machine sound. -/
theorem IsSound.of_executes (h : m.IsSound) {operation : Operation}
    (executes : operation.Executes) : (m.apply operation).machine.IsSound := by
  cases dispatched : m.dispatched? operation with
  | some word =>
    obtain ⟨ready, clock, -, -, machine⟩ := response_of_dispatched dispatched
    have ready : IsReady { m with clock } := ⟨ready.unstopped, ready.unblocked⟩
    have executed := isSound_dispatch ready word
    rcases machine with same | ⟨now, ticked⟩
    · rw [same]
      exact executed
    · rw [ticked]
      exact executed.tickTimers now
  | none =>
    rcases machine_apply_of_not_dispatched executes dispatched with same | ⟨clock, now, ticked⟩
    · rw [same]
      exact h
    · have kept : IsSound { m with clock } := h.congr rfl (Or.inr rfl)
      rw [ticked]
      exact kept.tickTimers now

/-- Loading leaves the machine alone, or leaves no fault behind. -/
theorem IsSound.of_loadEffect (h : m.IsSound) {outcome : Except LoadError (List UInt8)}
    {answer : Answer} (effect : m.LoadEffect outcome answer n) : n.IsSound := by
  cases effect with
  | failed cause => exact h
  | loaded program fits => exact .of_unstopped rfl

/-- A key press can only end a wait. -/
theorem awaiting_pressKey (p : Processor) (key : Key) : (p.pressKey key).awaiting = none := by
  cases h : p.awaiting with
  | none =>
    rw [Processor.pressKey_of_not_awaiting h]
    exact h
  | some x =>
    rw [Processor.pressKey_of_awaiting h]
    rfl

/-- A change from outside can end a wait as well, but begin none. -/
theorem awaiting_edit (p : Processor) (change : Processor.Edit) :
    (p.edit change).awaiting = none ∨ (p.edit change).awaiting = p.awaiting := by
  -- With `p` left whole, its parts would be compared as well.
  cases p
  cases change with
  | replace => exact Or.inl rfl
  | _ => exact Or.inr rfl

/-- **Every operation keeps a machine sound.** -/
theorem IsSound.apply (h : m.IsSound) (operation : Operation) :
    (m.apply operation).machine.IsSound := by
  cases operation with
  | reset => exact .of_unstopped rfl
  | load program => exact h.of_loadEffect (m.loadEffect_load program)
  | loadFrom source => exact h.of_loadEffect (m.loadEffect_loadFrom source)
  | loadFile path opened => exact h.of_loadEffect (m.loadEffect_loadFile path opened)
  | step => exact h.of_executes .step
  | execute word => exact h.of_executes (.execute word)
  | tick now => exact h.of_executes (.tick now)
  | pressKey key => exact h.congr rfl (Or.inl (awaiting_pressKey _ key))
  | edit change => exact h.congr rfl (awaiting_edit _ change)
  | releaseKey _ | releaseKeys | markPainted | takeRepaint => exact h.congr rfl (Or.inr rfl)

/-- **All machines that can come about are sound.** -/
theorem isSound_run (settings : Settings) (entropy : UInt64) (operations : List Operation) :
    ((create settings entropy).machine.run operations).IsSound :=
  run_induction (fun _ operation (_ : True) h => h.apply operation) operations
    (fun _ _ => trivial) (.of_unstopped rfl)

theorem Reachable.isSound (h : m.Reachable) : m.IsSound := by
  obtain ⟨settings, entropy, operations, rfl⟩ := h
  exact isSound_run settings entropy operations

end Machine

/-! ### The invariant of the cells -/

/-- Everything that can be asked of the cells of a processor has an answer. -/
structure RawProcessor.IsReadable (p : RawProcessor) : Prop where
  /-- The open calls can be listed. -/
  calls : p.calls.isSome
  /-- There is a word at the program counter. -/
  fetch : p.fetch.isSome
  /-- There is a byte at every address. -/
  read : ∀ address, (p.read address).isSome
  /-- Register numbers of which the low four bits count have a register. -/
  register : ∀ number, (p.register (number &&& 0xF)).isSome
  /-- Every byte can be asked for as a key. -/
  isDown : ∀ code : UInt8, (p.isDown code.toNat).isSome

theorem Processor.isReadable_raw (p : Processor) : p.raw.IsReadable where
  calls := by simp [raw_calls]
  fetch := by simp [raw_fetch]
  read address := by simp [raw_read]
  register number := by
    have low : number &&& 0xF = number % 16 := Nat.and_two_pow_sub_one_eq_mod number 4
    rw [low]
    exact Option.isSome_of_eq_some (p.raw_register (registerOf number))
  isDown code := by simp [raw_isDown]

namespace RawMachine

/-- What the course of operations ensures of a machine in cells. -/
structure IsSound (m : RawMachine) : Prop where
  /-- There are no more open calls than slots. -/
  depth : m.processor.depth.toNat ≤ CallStack.capacity
  /-- A pixel is dark or lit. -/
  pixels : ∀ pixel ∈ m.processor.pixels, pixel = 0 ∨ pixel = 1
  /-- A register that waits is one of those there are. -/
  awaiting : ∀ x, m.processor.awaiting = some x → x.toNat < 16
  /-- A machine that was stopped does not wait for a key press. -/
  exclusive : m.fault = none ∨ m.processor.awaiting = none
  /-- The word of a fault gives the reason for it. -/
  justified : ∀ fault, m.fault = some fault → fault.IsJustified

end RawMachine

/-- The pixels of a screen are dark or lit. -/
theorem Screen.mem_bytes {s : Screen} {pixel : UInt8} (h : pixel ∈ s.bytes) :
    pixel = 0 ∨ pixel = 1 := by
  obtain ⟨lit, -, rfl⟩ := Vector.mem_map.mp h
  cases lit with
  | false => exact Or.inl rfl
  | true => exact Or.inr rfl

/-- A sound machine lies soundly in cells; the rest is due to its types. -/
theorem Machine.IsSound.raw {m : Machine} (h : m.IsSound) : m.raw.IsSound where
  depth := by
    have depth : m.raw.processor.depth.toNat = m.processor.stack.depth :=
      m.processor.toNat_raw_depth
    rw [depth]
    exact m.processor.stack.bounded
  pixels pixel lies := Screen.mem_bytes lies
  awaiting x waits := by
    obtain ⟨y, -, rfl⟩ := Option.map_eq_some_iff.mp waits
    rw [Processor.toNat_ofNat_register]
    exact y.isLt
  exclusive := by
    rcases h.exclusive with unstopped | unblocked
    · exact Or.inl unstopped
    · exact Or.inr (Option.map_eq_none_iff.mpr unblocked)
  justified := h.justified

namespace RawMachine

/-- **The machine in cells never goes out of bounds.** Whatever is done to it from its
start, there is a result, which is the one of the machine; its cells are sound; everything
that can be asked of them has an answer; and whatever is done to it next will have a result
as well, with the answer that the machine gives. -/
theorem never_traps (settings : Settings) (entropy : UInt64) (operations : List Operation) :
    ∃ raw, (create settings entropy).bind (·.run operations) = some raw ∧
      raw = ((Machine.create settings entropy).machine.run operations).raw ∧
      raw.IsSound ∧ raw.processor.IsReadable ∧
      ∀ operation, ∃ next, next.IsSound ∧
        raw.apply operation =
          some ((((Machine.create settings entropy).machine.run operations).apply operation).answer,
            next) := by
  have started : create settings entropy = some (Machine.create settings entropy).machine.raw :=
    Machine.raw_create settings entropy
  have sound := Machine.isSound_run settings entropy operations
  refine ⟨_, ?_, rfl, sound.raw, Processor.isReadable_raw _, ?_⟩
  · rw [started, Option.bind_some, Machine.raw_run]
  · intro operation
    exact ⟨_, (sound.apply operation).raw, Machine.raw_apply _ operation⟩

end RawMachine

end Chip8
