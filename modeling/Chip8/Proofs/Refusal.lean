import Chip8.Proofs.Decoding
import Chip8.Proofs.Run

/-!
# What a machine refuses

A machine that is ready refuses a word for one of three reasons, which
`Chip8.Processor.Refuses` lists: the word is no instruction, or it is a call and the
stack is full, or it is the return and the stack is empty. The main statement,
`Chip8.Machine.refuses_exactly`, is that these are all the reasons, that the fault
names the word and the program counter, and that the fault is all there is to see
afterwards: an instruction that cannot be executed leaves the processor as it was, and
draws no random byte. When time drives the machine, the gate of the instructions has
fired by then, and the gate of the timers is not asked.

Everything else that is to be known about single words starts from
`Chip8.Machine.dispatch_cases`, the two ways in which the execution of a word can go.
-/

namespace Chip8

/-! ### Instructions that cannot be executed -/

namespace Processor

variable {p q : Processor} {shift : ShiftRule} {noise : UInt8} {i : Instruction}
  {kind : FaultKind}

/-- **An instruction that cannot be executed is a return without a call or a call too
many**, and it leaves the processor as it was. -/
theorem execute_eq_error_iff :
    p.execute shift noise i = (.error kind, q) ↔
      q = p ∧ ((i = .ret ∧ p.stack.depth = 0 ∧ kind = .stackUnderflow) ∨
        ((∃ target, i = .call target) ∧ p.stack.depth = CallStack.capacity ∧
          kind = .stackOverflow)) := by
  cases i
  case ret =>
    cases popped : p.stack.pop? with
    | none =>
      have empty := CallStack.pop?_eq_none_iff.mp popped
      simp only [execute, popped, Prod.mk.injEq, Except.error.injEq, empty]
      simp [eq_comm, and_comm]
    | some top =>
      have calls : p.stack.depth ≠ 0 := by
        intro h
        rw [CallStack.pop?_eq_none_iff.mpr h] at popped
        contradiction
      simp [execute, popped, calls]
  case call target =>
    cases pushed : p.stack.push? p.pc with
    | none =>
      have full := CallStack.push?_eq_none_iff.mp pushed
      simp only [execute, pushed, Prod.mk.injEq, Except.error.injEq, full]
      simp [eq_comm, and_comm]
    | some stack =>
      simp [execute, pushed, CallStack.depth_ne_of_push? pushed]
  all_goals simp [execute]

/-- The reasons for which a processor cannot execute a word. -/
def Refuses (p : Processor) (word : UInt16) : FaultKind → Prop
  | .unknownInstruction => Instruction.decode word = none
  | .stackOverflow => Word.family word = 2 ∧ p.stack.depth = CallStack.capacity
  | .stackUnderflow => word = 0x00EE ∧ p.stack.depth = 0

/-- The reasons for a word that decodes are those for its instruction. -/
theorem refuses_iff_of_decode {word : UInt16} (h : Instruction.decode word = some i) :
    p.Refuses word kind ↔
      ((i = .ret ∧ p.stack.depth = 0 ∧ kind = .stackUnderflow) ∨
        ((∃ target, i = .call target) ∧ p.stack.depth = CallStack.capacity ∧
          kind = .stackOverflow)) := by
  have isRet : i = .ret ↔ word = 0x00EE := by
    rw [← Instruction.decode_eq_ret_iff, h, Option.some.injEq]
  have isCall : (∃ target, i = .call target) ↔ Word.family word = 2 := by
    rw [← Instruction.exists_decode_eq_call_iff]
    simp only [h, Option.some.injEq]
  rw [isRet, isCall]
  cases kind <;> simp [Refuses, h]

/-- There is at most one reason to refuse a word. -/
theorem Refuses.unique {word : UInt16} {other : FaultKind} (h : p.Refuses word kind)
    (h' : p.Refuses word other) : kind = other := by
  cases decoded : Instruction.decode word with
  | some i =>
    rw [refuses_iff_of_decode decoded] at h h'
    rcases h with ⟨rfl, -, rfl⟩ | ⟨⟨target, rfl⟩, -, rfl⟩
    · rcases h' with ⟨-, -, rfl⟩ | ⟨⟨target, call⟩, -, -⟩
      · rfl
      · contradiction
    · rcases h' with ⟨ret, -, -⟩ | ⟨-, -, rfl⟩
      · contradiction
      · rfl
  | none =>
    -- Without an instruction, the word is neither a return nor a call.
    have notRet : word ≠ 0x00EE := by
      intro isRet
      rw [Instruction.decode_eq_ret_iff.mpr isRet] at decoded
      contradiction
    have notCall : Word.family word ≠ 2 := by
      intro isCall
      obtain ⟨target, call⟩ := Instruction.exists_decode_eq_call_iff.mpr isCall
      rw [call] at decoded
      contradiction
    cases kind <;> cases other <;> simp [Refuses, notRet, notCall] at h h' ⊢

end Processor

namespace Machine

variable {m : Machine}

/-! ### Words that cannot be executed -/

/-- An instruction that cannot be executed leaves the machine as it was, its random
bytes included: those that draw one can always be executed. -/
theorem perform_eq_error_iff {i : Instruction} {kind : FaultKind} {n : Machine} :
    m.perform i = (.error kind, n) ↔
      n = m ∧ ((i = .ret ∧ m.processor.stack.depth = 0 ∧ kind = .stackUnderflow) ∨
        ((∃ target, i = .call target) ∧ m.processor.stack.depth = CallStack.capacity ∧
          kind = .stackOverflow)) := by
  cases draws : i.drawsRandom with
  | true =>
    -- The one instruction that draws a byte has no way to fail.
    cases i <;> simp [Instruction.drawsRandom] at draws
    simp [perform, Instruction.drawsRandom, Processor.execute]
  | false =>
    rcases effect : m.processor.execute m.settings.shift 0 i with ⟨result, q⟩
    have performed : m.perform i = (result, { m with processor := q }) := by
      simp only [perform, draws, Bool.false_eq_true, if_false, effect]
    rw [performed, Prod.mk.injEq]
    constructor
    · rintro ⟨rfl, rfl⟩
      obtain ⟨rfl, reason⟩ := Processor.execute_eq_error_iff.mp effect
      exact ⟨rfl, reason⟩
    · rintro ⟨rfl, reason⟩
      rw [Processor.execute_eq_error_iff.mpr ⟨rfl, reason⟩] at effect
      cases effect
      exact ⟨rfl, rfl⟩

/-- **The execution of a word goes one of two ways**: it is refused for a reason, and
the fault is the only trace it leaves, or it decodes to an instruction that is
performed. -/
theorem dispatch_cases (m : Machine) (word : UInt16) :
    (∃ kind emitted, m.processor.Refuses word kind ∧
      m.dispatch word = m.halt ⟨kind, m.processor.pc, word⟩ emitted) ∨
    (∃ i flow n, Instruction.decode word = some i ∧ m.perform i = (.ok flow, n) ∧
      m.dispatch word = ⟨.ok flow, n, [m.traceOf i]⟩) := by
  cases decoded : Instruction.decode word with
  | none =>
    exact Or.inl ⟨.unknownInstruction, [], decoded, by simp only [dispatch, decoded]⟩
  | some i =>
    rcases performed : m.perform i with ⟨kind | flow, n⟩
    · have halted : m.dispatch word = n.halt ⟨kind, m.processor.pc, word⟩ [m.traceOf i] := by
        simp only [dispatch, decoded, performed]
      obtain ⟨rfl, reason⟩ := perform_eq_error_iff.mp performed
      exact Or.inl ⟨kind, _, (Processor.refuses_iff_of_decode decoded).mpr reason, halted⟩
    · exact Or.inr ⟨i, flow, n, rfl, performed, by simp only [dispatch, decoded, performed]⟩

/-- A word that is performed is not one to be refused. -/
theorem not_refuses_of_perform {word : UInt16} {i : Instruction} {flow : Flow} {n : Machine}
    (decoded : Instruction.decode word = some i) (performed : m.perform i = (.ok flow, n))
    (kind : FaultKind) : ¬m.processor.Refuses word kind := by
  intro refused
  rw [Processor.refuses_iff_of_decode decoded] at refused
  rw [perform_eq_error_iff.mpr ⟨rfl, refused⟩] at performed
  cases performed

/-- What a machine that is ready answers to a word it refuses, and when. -/
theorem execute_eq_error_iff (h : m.IsReady) {word : UInt16} {fault : Fault} :
    (m.execute word).answer = .error fault ↔
      fault.pc = m.processor.pc ∧ fault.word = word ∧ m.processor.Refuses word fault.kind := by
  rw [execute_of_isReady h]
  rcases dispatch_cases m word with
    ⟨kind, emitted, refused, halted⟩ | ⟨i, flow, n, decoded, performed, done⟩
  · rw [halted]
    constructor
    · rintro ⟨rfl⟩
      exact ⟨rfl, rfl, refused⟩
    · rintro ⟨pc, word, reason⟩
      obtain rfl := reason.unique refused
      obtain ⟨kind, _, _⟩ := fault
      cases pc
      cases word
      rfl
  · rw [done]
    constructor
    · intro failed
      cases failed
    · rintro ⟨-, -, reason⟩
      exact absurd reason (not_refuses_of_perform decoded performed _)

/-- A refused word leaves nothing behind but the fault. -/
theorem machine_execute_of_error (h : m.IsReady) {word : UInt16} {fault : Fault}
    (failed : (m.execute word).answer = .error fault) :
    (m.execute word).machine = { m with fault := some fault } := by
  rw [execute_of_isReady h] at failed ⊢
  rcases dispatch_cases m word with ⟨kind, emitted, -, halted⟩ | ⟨i, flow, n, -, -, done⟩
  · rw [halted] at failed ⊢
    cases failed
    rfl
  · rw [done] at failed
    cases failed

/-! ### Faults in the course of time -/

/-- A machine that is ready fails at a time when its gate fires then and the word at its
program counter is refused, and with the same fault. -/
theorem tick_eq_error_iff (h : m.IsReady) {now : Nat} {fault : Fault} :
    (m.tick now).answer = .error fault ↔
      (m.clock.poll now).1 = true ∧ (m.execute m.processor.fetch).answer = .error fault := by
  rw [answer_tick_of_unstopped h.unstopped]
  cases hp : (m.clock.poll now).1 with
  | false =>
    rw [tickClock_of_silent h hp]
    constructor
    · intro failed
      cases failed
    · rintro ⟨fires, -⟩
      cases fires
  | true =>
    -- Whether the gate holds the time makes no difference to what is refused.
    rw [tickClock_of_fires h hp, execute_eq_error_iff (h.latch now), execute_eq_error_iff h]
    exact ⟨fun reason => ⟨rfl, reason⟩, fun ⟨_, reason⟩ => reason⟩

/-- **What a machine refuses, and what is left of it then.** A machine that is ready
answers a word with a fault exactly when there is a reason to refuse the word, and the
fault tells the reason, the program counter and the word. Afterwards the fault is
stored, and nothing else is different. At a time, the same goes for the word at the
program counter if the gate of the instructions fires, except that this gate now holds
the time. -/
theorem refuses_exactly (h : m.IsReady) (word : UInt16) (now : Nat) :
    (∀ fault, (m.execute word).answer = .error fault ↔
      fault.pc = m.processor.pc ∧ fault.word = word ∧ m.processor.Refuses word fault.kind) ∧
    (∀ fault, (m.execute word).answer = .error fault →
      (m.execute word).machine = { m with fault := some fault }) ∧
    (∀ fault, (m.tick now).answer = .error fault ↔
      (m.clock.poll now).1 = true ∧ (m.execute m.processor.fetch).answer = .error fault) ∧
    (∀ fault, (m.tick now).answer = .error fault →
      (m.tick now).machine =
        { m with clock := { m.clock with since := some now }, fault := some fault }) := by
  refine ⟨fun _ => execute_eq_error_iff h, fun _ => machine_execute_of_error h,
    fun _ => tick_eq_error_iff h, fun fault failed => ?_⟩
  obtain ⟨fires, -⟩ := (tick_eq_error_iff h).mp failed
  -- After a fault the timers are not reached, and what was executed was executed on the
  -- machine whose gate holds the time.
  rw [answer_tick_of_unstopped h.unstopped] at failed
  rw [tick_of_error h.unstopped failed]
  rw [tickClock_of_fires h fires] at failed ⊢
  exact machine_execute_of_error (h.latch now) failed

/-- A return on a new machine is refused, there being no call to return from. -/
theorem refuses_return_when_new :
    (create .standard 0).machine.IsReady ∧
      ((create .standard 0).machine.execute 0x00EE).answer =
        .error ⟨.stackUnderflow, 0x200, 0x00EE⟩ ∧
      ((create .standard 0).machine.execute 0x00EE).machine =
        { (create .standard 0).machine with fault := some ⟨.stackUnderflow, 0x200, 0x00EE⟩ } := by
  have ready : (create .standard 0).machine.IsReady := ⟨rfl, rfl⟩
  obtain ⟨answered, left, -, -⟩ := refuses_exactly ready 0x00EE 0
  have failed := (answered ⟨.stackUnderflow, 0x200, 0x00EE⟩).mpr ⟨rfl, rfl, rfl, rfl⟩
  exact ⟨ready, failed, left _ failed⟩

end Machine

end Chip8
