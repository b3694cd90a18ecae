import Chip8.Proofs.Refusal
import Mathlib.Data.List.Infix

/-!
# Subroutines

A call and the return that ends it enclose a part of a run. The main statement is
`Chip8.Machine.subroutine_brackets`: from a call on, until as many calls are open again
as were open before it, the calls that were open before stay open below it, and when
that happens it is by a return, which goes on after the call. Calls in between, key
waits and skipped instructions make no difference, and neither does the way in which
the machine is driven.

The invariant is that the open calls begin with those from before the call and the call
itself. It is carried by what a single operation can do to the open calls: leave them
alone, open one above them or close the one that was opened last
(`Chip8.Machine.calls_apply_cases`).
-/

namespace Chip8

/-! ### What an instruction does to the open calls -/

namespace Processor

variable {p q : Processor} {shift : ShiftRule} {noise : UInt8} {i : Instruction} {flow : Flow}

/-- Setting a result touches registers alone. -/
theorem setResult_eq (p : Processor) (x : Register) (result : UInt8 × Option Bool) :
    p.setResult x result = { p with registers := (p.setResult x result).registers } := by
  obtain ⟨value, flag⟩ := result
  cases flag <;> rfl

@[simp] theorem stack_setResult (p : Processor) (x : Register) (result : UInt8 × Option Bool) :
    (p.setResult x result).stack = p.stack := by
  rw [setResult_eq]

@[simp] theorem stack_drawSprite (p : Processor) (x y : Register) (rows : Nat) :
    (p.drawSprite x y rows).stack = p.stack := rfl

@[simp] theorem stack_pressKey (p : Processor) (key : Key) :
    (p.pressKey key).stack = p.stack := by
  unfold pressKey
  cases p.awaiting <;> rfl

/-- A return jumps, and touches the program counter and the stack. -/
theorem execute_ret (h : p.execute shift noise .ret = (.ok flow, q)) :
    flow = .jump ∧ ∃ site stack, p.stack.pop? = some (site, stack) ∧
      q = { p with pc := site + 2, stack } := by
  cases popped : p.stack.pop? with
  | none => simp [execute, popped] at h
  | some top =>
    simp only [execute, popped, Prod.mk.injEq, Except.ok.injEq] at h
    exact ⟨h.1.symm, top.1, top.2, rfl, h.2.symm⟩

/-- A call jumps, and touches the program counter and the stack. -/
theorem execute_call {target : Target} (h : p.execute shift noise (.call target) = (.ok flow, q)) :
    flow = .jump ∧ ∃ stack, p.stack.push? p.pc = some stack ∧
      q = { p with pc := UInt16.ofNat target.val, stack } := by
  cases pushed : p.stack.push? p.pc with
  | none => simp [execute, pushed] at h
  | some stack =>
    simp only [execute, pushed, Prod.mk.injEq, Except.ok.injEq] at h
    exact ⟨h.1.symm, stack, rfl, h.2.symm⟩

/-- A return closes the call that was opened last and goes on after it, a call opens
one at the program counter, and no other instruction touches the stack. -/
theorem execute_stack_cases (h : p.execute shift noise i = (.ok flow, q)) :
    (i = .ret ∧ flow = .jump ∧
      ∃ site, p.stack.toList = q.stack.toList ++ [site] ∧ q.pc = site + 2) ∨
    ((∃ target, i = .call target) ∧ q.stack.toList = p.stack.toList ++ [p.pc]) ∨
    (i ≠ .ret ∧ (∀ target, i ≠ .call target) ∧ q.stack = p.stack) := by
  cases i
  case ret =>
    obtain ⟨rfl, site, stack, popped, rfl⟩ := execute_ret h
    exact Or.inl ⟨rfl, rfl, site, CallStack.toList_of_pop? popped, rfl⟩
  case call target =>
    obtain ⟨-, stack, pushed, rfl⟩ := execute_call h
    exact Or.inr (Or.inl ⟨⟨target, rfl⟩, CallStack.toList_of_push? pushed⟩)
  -- No other instruction writes to the stack.
  all_goals
    refine Or.inr (Or.inr ⟨by simp, by simp, ?_⟩)
    cases h
    simp [advance, clearScreen, setRegister, storeBytes, loadRegisters]

/-- What the execution of a word can do to the open calls of a processor, by what comes
of it. -/
inductive CallEffect (p q : Processor) (word : UInt16) : Except Fault Flow → Prop where
  /-- A word that is refused leaves them alone. -/
  | refused (fault : Fault) (stack : q.stack = p.stack) : CallEffect p q word (.error fault)
  /-- A return closes the call that was opened last and goes on after it. -/
  | closed (site : UInt16) (isReturn : word = 0x00EE)
      (calls : p.stack.toList = q.stack.toList ++ [site]) (pc : q.pc = site + 2) :
      CallEffect p q word (.ok .jump)
  /-- A call opens one at the program counter. -/
  | opened (flow : Flow) (isCall : Word.family word = 2)
      (calls : q.stack.toList = p.stack.toList ++ [p.pc]) : CallEffect p q word (.ok flow)
  /-- Another word leaves them alone. -/
  | kept (flow : Flow) (notCall : Word.family word ≠ 2) (stack : q.stack = p.stack) :
      CallEffect p q word (.ok flow)

/-- Only the stack and the program counter matter to the effect on the open calls. -/
theorem CallEffect.congr {q' : Processor} {word : UInt16} {result : Except Fault Flow}
    (h : CallEffect p q word result) (stack : q'.stack = q.stack) (pc : q'.pc = q.pc) :
    CallEffect p q' word result := by
  cases h with
  | refused fault kept => exact .refused fault (stack.trans kept)
  | closed site isReturn calls target =>
    exact .closed site isReturn (stack ▸ calls) (pc.trans target)
  | opened flow isCall calls => exact .opened flow isCall (stack ▸ calls)
  | kept flow notCall kept => exact .kept flow notCall (stack.trans kept)

end Processor

namespace Machine

variable {m : Machine} {operation : Operation} {word : UInt16}

/-! ### What an operation does to the open calls -/

/-- An instruction is performed by the processor, with some random byte. -/
theorem execute_of_perform {i : Instruction} {n : Machine} {result : Except FaultKind Flow}
    (h : m.perform i = (result, n)) :
    ∃ noise, m.processor.execute m.settings.shift noise i = (result, n.processor) := by
  unfold perform at h
  cases h
  exact ⟨_, rfl⟩

/-- What becomes of the open calls when a word is executed. -/
theorem callEffect_dispatch (m : Machine) (word : UInt16) :
    m.processor.CallEffect (m.dispatch word).machine.processor word (m.dispatch word).answer := by
  rcases dispatch_cases m word with
    ⟨kind, emitted, -, halted⟩ | ⟨i, flow, n, decoded, performed, done⟩
  · rw [halted]
    exact .refused _ rfl
  · obtain ⟨noise, executed⟩ := execute_of_perform performed
    rw [done]
    rcases Processor.execute_stack_cases executed with
      ⟨rfl, rfl, site, calls, pc⟩ | ⟨⟨target, rfl⟩, calls⟩ | ⟨-, notCall, stack⟩
    · exact .closed site (Instruction.decode_eq_ret_iff.mp decoded) calls pc
    · exact .opened flow (Instruction.exists_decode_eq_call_iff.mp ⟨target, decoded⟩) calls
    · refine .kept flow ?_ stack
      intro isCall
      obtain ⟨target, call⟩ := Instruction.exists_decode_eq_call_iff.mpr isCall
      rw [decoded, Option.some.injEq] at call
      exact notCall target call

/-- What becomes of the open calls when an operation executes a word. -/
theorem callEffect_apply (h : m.dispatched? operation = some word) :
    ∃ result, (m.apply operation).answer = .ofExecution result ∧
      m.processor.CallEffect (m.apply operation).machine.processor word result := by
  obtain ⟨-, clock, answer, processor⟩ := apply_of_dispatched h
  refine ⟨_, answer, ?_⟩
  have effect := callEffect_dispatch { m with clock } word
  rcases processor with same | counted
  · rw [same]
    exact effect
  · rw [counted]
    exact effect.congr rfl rfl

/-- An operation that drives a machine without executing a word leaves the open calls
alone. -/
theorem stack_apply_of_not_dispatched (drives : operation.Drives)
    (h : m.dispatched? operation = none) :
    (m.apply operation).machine.processor.stack = m.processor.stack := by
  rcases processor_apply_of_not_dispatched drives h with
    kept | counted | ⟨key, pressed⟩ | ⟨key, released⟩ | released
  · rw [kept]
  · rw [counted]
    rfl
  · rw [pressed, Processor.stack_pressKey]
  · rw [released]
    rfl
  · rw [released]
    rfl

/-! ### Between a call and its return -/

/-- The addresses of the open calls of a machine, the outermost first. -/
def calls (m : Machine) : List UInt16 := m.processor.stack.toList

/-- **What an operation that drives a machine does to the open calls**: it leaves them
alone, it opens one above them, or it executes a return, which closes the one that was
opened last and goes on after it. -/
theorem calls_apply_cases (m : Machine) (drives : operation.Drives) :
    (m.apply operation).machine.calls = m.calls ∨
    (∃ site, (m.apply operation).machine.calls = m.calls ++ [site]) ∨
    (m.dispatched? operation = some 0x00EE ∧ (m.apply operation).answer = .flow .jump ∧
      ∃ site, m.calls = (m.apply operation).machine.calls ++ [site] ∧
        (m.apply operation).machine.processor.pc = site + 2) := by
  cases dispatched : m.dispatched? operation with
  | none =>
    exact Or.inl (congrArg CallStack.toList (stack_apply_of_not_dispatched drives dispatched))
  | some word =>
    obtain ⟨result, answer, effect⟩ := callEffect_apply dispatched
    cases effect with
    | refused fault stack => exact Or.inl (congrArg CallStack.toList stack)
    | closed site isReturn calls pc =>
      exact Or.inr (Or.inr ⟨by rw [isReturn], answer, site, calls, pc⟩)
    | opened flow isCall calls => exact Or.inr (Or.inl ⟨_, calls⟩)
    | kept flow notCall stack => exact Or.inl (congrArg CallStack.toList stack)

/-- As long as there are not as few open calls as `below`, those that begin with `below`
and one more go on to do so. -/
theorem calls_prefix_apply {below : List UInt16} {site : UInt16} (drives : operation.Drives)
    (h : below ++ [site] <+: m.calls)
    (inside : (m.apply operation).machine.calls.length ≠ below.length) :
    below ++ [site] <+: (m.apply operation).machine.calls := by
  rcases m.calls_apply_cases drives with kept | ⟨other, opened⟩ | ⟨-, -, top, closed, -⟩
  · rw [kept]
    exact h
  · rw [opened]
    exact h.trans (List.prefix_append _ _)
  · rw [closed, List.prefix_concat_iff] at h
    rcases h with whole | part
    -- To close the call itself would be to get back to as few as before it.
    · obtain ⟨rest, -⟩ := List.append_inj' whole rfl
      exact absurd (congrArg List.length rest).symm inside
    · exact part

/-- An operation after which there are as few open calls as `below` is the return from
the call that was opened above them. -/
theorem calls_apply_of_length {below : List UInt16} {site : UInt16} (drives : operation.Drives)
    (h : below ++ [site] <+: m.calls)
    (outside : (m.apply operation).machine.calls.length = below.length) :
    m.dispatched? operation = some 0x00EE ∧ (m.apply operation).answer = .flow .jump ∧
      (m.apply operation).machine.processor.pc = site + 2 ∧
      (m.apply operation).machine.calls = below := by
  have long := h.length_le
  rw [List.length_append, List.length_singleton] at long
  -- There is one call more than in `below` at least, so only a return gets there.
  rcases m.calls_apply_cases drives with kept | ⟨other, opened⟩ | ⟨ret, answer, top, closed, pc⟩
  · rw [kept] at outside
    omega
  · rw [opened, List.length_append, List.length_singleton] at outside
    omega
  · rw [closed, List.prefix_concat_iff] at h
    rcases h with whole | part
    · obtain ⟨rest, last⟩ := List.append_inj' whole rfl
      rw [List.singleton_inj] at last
      exact ⟨ret, answer, by rw [pc, last], rest.symm⟩
    · have short := part.length_le
      rw [List.length_append, List.length_singleton] at short
      omega

/-- The open calls begin with `below` and one more for as long as there are not as few
of them as `below`. -/
theorem calls_prefix_run {below : List UInt16} {site : UInt16} (operations : List Operation)
    (drives : ∀ operation ∈ operations, operation.Drives) (h : below ++ [site] <+: m.calls)
    (inside : ∀ first, first <+: operations → (m.run first).calls.length ≠ below.length) :
    below ++ [site] <+: (m.run operations).calls := by
  induction operations generalizing m with
  | nil => exact h
  | cons operation operations ih =>
    rw [List.forall_mem_cons] at drives
    have first := inside [operation] (List.cons_prefix_cons.mpr ⟨rfl, List.nil_prefix⟩)
    refine ih drives.2 (calls_prefix_apply drives.1 h first) ?_
    intro rest hrest
    exact inside (operation :: rest) (List.cons_prefix_cons.mpr ⟨rfl, hrest⟩)

/-- **A call and its return enclose a part of the run.** After a call that succeeds, and
for as long as there are not as few open calls as before it, the open calls begin with
those from before the call and the call itself. The operation after which there are as
few again executes a return; the machine goes on after the call, with the calls open
that were open before it. -/
theorem subroutine_brackets {call : Operation} (dispatched : m.dispatched? call = some word)
    (isCall : Word.family word = 2) (succeeds : ∃ flow, (m.apply call).answer = .flow flow)
    {operations : List Operation} (drives : ∀ operation ∈ operations, operation.Drives)
    (inside : ∀ first, first <+: operations →
      ((m.apply call).machine.run first).calls.length ≠ m.calls.length) :
    m.calls ++ [m.processor.pc] <+: ((m.apply call).machine.run operations).calls ∧
      ∀ operation, operation.Drives →
        (((m.apply call).machine.run operations).apply operation).machine.calls.length =
          m.calls.length →
        ((m.apply call).machine.run operations).dispatched? operation = some 0x00EE ∧
        (((m.apply call).machine.run operations).apply operation).answer = .flow .jump ∧
        (((m.apply call).machine.run operations).apply operation).machine.processor.pc =
          m.processor.pc + 2 ∧
        (((m.apply call).machine.run operations).apply operation).machine.calls = m.calls := by
  have opened : (m.apply call).machine.calls = m.calls ++ [m.processor.pc] := by
    obtain ⟨result, answer, effect⟩ := callEffect_apply dispatched
    obtain ⟨flow, succeeds⟩ := succeeds
    rw [answer] at succeeds
    cases effect with
    | refused fault stack => cases succeeds
    | closed site isReturn calls pc =>
      rw [isReturn] at isCall
      cases isCall
    | opened flow isCall calls => exact calls
    | kept flow notCall stack => exact absurd isCall notCall
  have begun : m.calls ++ [m.processor.pc] <+: (m.apply call).machine.calls := by
    rw [opened]
  have between := calls_prefix_run operations drives begun inside
  exact ⟨between, fun operation last => calls_apply_of_length last between⟩

/-- A call on a new machine, with another call and its return inside, is ended by the
return after them. -/
theorem subroutine_brackets_nested :
    let m := (create .standard 0).machine
    let inner := (m.apply (.execute 0x2300)).machine.run [.execute 0x2400, .execute 0x00EE]
    m.dispatched? (.execute 0x2300) = some 0x2300 ∧
      m.calls ++ [0x200] <+: inner.calls ∧
      (inner.apply (.execute 0x00EE)).machine.processor.pc = 0x202 ∧
      (inner.apply (.execute 0x00EE)).machine.calls = m.calls := by
  intro m inner
  have dispatched : m.dispatched? (.execute 0x2300) = some 0x2300 := rfl
  have drives : ∀ operation ∈ [Operation.execute 0x2400, .execute 0x00EE], operation.Drives :=
    List.forall_mem_cons.mpr ⟨.execute _, List.forall_mem_singleton.mpr (.execute _)⟩
  have inside : ∀ first, first <+: [Operation.execute 0x2400, .execute 0x00EE] →
      ((m.apply (.execute 0x2300)).machine.run first).calls.length ≠ m.calls.length := by
    intro first h
    rw [← List.mem_inits] at h
    revert first
    decide +kernel
  obtain ⟨between, after⟩ := subroutine_brackets dispatched (by decide) ⟨.jump, rfl⟩ drives inside
  obtain ⟨-, -, pc, calls⟩ := after (.execute 0x00EE) (.execute _) (by decide +kernel)
  exact ⟨dispatched, between, pc, calls⟩

end Machine

end Chip8
