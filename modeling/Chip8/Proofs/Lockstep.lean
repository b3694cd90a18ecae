import Chip8.Proofs.Run

/-!
# Machines in lockstep

To compare two runs of the same operations is to find a relation between machines that
the operations respect. `Chip8.Machine.Lockstep` lists what there is to show of such a
relation: related machines agree on whether they can execute something, on what they
execute and when, and the execution of a single word respects the relation. Then so do
the operations that execute and report a time (`Chip8.Machine.Lockstep.apply_step`,
`Chip8.Machine.Lockstep.apply_execute` and `Chip8.Machine.Lockstep.apply_tick`; all three at
once are `Chip8.Machine.Lockstep.apply_of_executes`, if the faults are the same).

A relation may be respected by some words only. In that case it comes with a condition
on the processor and the word, which is asked of those words alone that are executed.
What is to be shown of a word comes from what its instruction does and how a fault is
noted (`Chip8.Machine.dispatch_related`, and `Chip8.Machine.dispatch_related_of_pc_eq` if the
machines stand at the same place).
-/

namespace Chip8

/-! ### Related responses -/

/-- Two responses whose answers, machines and diagnostics are related. -/
structure Response.Related {α : Type} (A : α → α → Prop) (S : Machine → Machine → Prop)
    (E : List Diagnostic → List Diagnostic → Prop) (r s : Response α) : Prop where
  /-- The answers are related. -/
  answer : A r.answer s.answer
  /-- The machines are related. -/
  machine : S r.machine s.machine
  /-- The diagnostics are related. -/
  emitted : E r.emitted s.emitted

/-- Two outcomes of an attempt to execute something: both did the same, or both failed,
with related faults. -/
inductive SameOutcome (F : Fault → Fault → Prop) :
    Except Fault Flow → Except Fault Flow → Prop where
  /-- Both did the same. -/
  | flow (flow : Flow) : SameOutcome F (.ok flow) (.ok flow)
  /-- Both failed. -/
  | failed {f g : Fault} (related : F f g) : SameOutcome F (.error f) (.error g)

/-- Two answers to an operation: they are the same, or both say that execution failed,
with related faults. -/
inductive SameAnswer (F : Fault → Fault → Prop) : Answer → Answer → Prop where
  /-- The answers are the same. -/
  | same (answer : Answer) : SameAnswer F answer answer
  /-- Both say that execution failed. -/
  | failed {f g : Fault} (related : F f g) :
    SameAnswer F (.failed (.halted f)) (.failed (.halted g))

theorem SameOutcome.ofExecution {F : Fault → Fault → Prop} {x y : Except Fault Flow}
    (h : SameOutcome F x y) : SameAnswer F (.ofExecution x) (.ofExecution y) := by
  cases h with
  | flow flow => exact .same (.flow flow)
  | failed related => exact .failed related

/-- Answers with the same faults are the same. -/
theorem SameAnswer.eq {a b : Answer} (h : SameAnswer Eq a b) : a = b := by
  cases h with
  | same answer => rfl
  | failed related => rw [related]

namespace Machine

variable {S : Machine → Machine → Prop} {F : Fault → Fault → Prop}
  {E : List Diagnostic → List Diagnostic → Prop} {P : Processor → UInt16 → Prop}
  {m n : Machine}

/-- **The execution of a word respects what instructions and faults respect.** -/
theorem dispatch_related {word : UInt16} (h : S m n) (silent : E [] [])
    (trace : ∀ i, E [m.traceOf i] [n.traceOf i])
    (halt : ∀ {m' n' : Machine} {lines lines' : List Diagnostic} kind, S m' n' → E lines lines' →
      Response.Related (SameOutcome F) S E (m'.halt ⟨kind, m.processor.pc, word⟩ lines)
        (n'.halt ⟨kind, n.processor.pc, word⟩ lines'))
    (perform : ∀ i, Instruction.decode word = some i →
      (m.perform i).1 = (n.perform i).1 ∧ S (m.perform i).2 (n.perform i).2) :
    Response.Related (SameOutcome F) S E (m.dispatch word) (n.dispatch word) := by
  cases decoded : Instruction.decode word with
  | none =>
    simp only [dispatch, decoded]
    exact halt .unknownInstruction h silent
  | some i =>
    obtain ⟨result, next⟩ := perform i decoded
    rcases hm : m.perform i with ⟨x, m'⟩
    rcases hn : n.perform i with ⟨y, n'⟩
    rw [hm, hn] at result next
    obtain rfl : x = y := result
    cases x with
    | error kind =>
      simp only [dispatch, decoded, hm, hn]
      exact halt kind next (trace i)
    | ok flow =>
      simp only [dispatch, decoded, hm, hn]
      exact ⟨.flow flow, next, trace i⟩

/-- Machines that stand at the same place emit the same lines, and a fault is the same for both. -/
theorem dispatch_related_of_pc_eq {word : UInt16} (h : S m n)
    (pc : m.processor.pc = n.processor.pc)
    (stop : ∀ {m' n' : Machine} fault, S m' n' →
      S { m' with fault := some fault } { n' with fault := some fault })
    (perform : ∀ i, Instruction.decode word = some i →
      (m.perform i).1 = (n.perform i).1 ∧ S (m.perform i).2 (n.perform i).2) :
    Response.Related (SameOutcome Eq) S Eq (m.dispatch word) (n.dispatch word) := by
  refine dispatch_related h rfl ?_ ?_ perform
  · intro i
    rw [traceOf, traceOf, pc]
  · rintro m' n' lines _ kind next rfl
    rw [pc]
    exact ⟨.failed rfl, stop _ next, rfl⟩

/-- Faults that are the same stop both machines or neither. -/
theorem rel_fault_of_eq (same : m.fault = n.fault) : Option.Rel Eq m.fault n.fault := by
  rw [same]
  cases n.fault with
  | none => exact .none
  | some fault => exact .some rfl

/-! ### Relations that driving respects -/

/-- A relation between machines that the execution of words respects, and the passing of
time with it. The faults are related by `F` and the diagnostics by `E`, and the words are
those that meet the condition `P`. -/
structure Lockstep (S : Machine → Machine → Prop) (F : Fault → Fault → Prop)
    (E : List Diagnostic → List Diagnostic → Prop) (P : Processor → UInt16 → Prop) :
    Prop where
  /-- Faults stopped both machines or neither. -/
  fault : ∀ {m n}, S m n → Option.Rel F m.fault n.fault
  /-- The same register waits for a key press. -/
  awaiting : ∀ {m n}, S m n → m.processor.awaiting = n.processor.awaiting
  /-- The same word is at the program counters. -/
  fetch : ∀ {m n}, S m n → m.processor.fetch = n.processor.fetch
  /-- The gates of the instructions are the same. -/
  clock : ∀ {m n}, S m n → m.clock = n.clock
  /-- The gates of the timers are the same. -/
  timer : ∀ {m n}, S m n → m.timer = n.timer
  /-- The gates of the instructions can move together. -/
  setClock : ∀ {m n} gate, S m n → S { m with clock := gate } { n with clock := gate }
  /-- The gates of the timers can move together. -/
  setTimer : ∀ {m n} gate, S m n → S { m with timer := gate } { n with timer := gate }
  /-- The timers can be counted down together. -/
  countDown : ∀ {m n}, S m n →
    S { m with processor := m.processor.countDown } { n with processor := n.processor.countDown }
  /-- Nothing may be emitted. -/
  silent : E [] []
  /-- A word can be executed by both. -/
  dispatch : ∀ {m n} word, S m n → P m.processor word →
    Response.Related (SameOutcome F) S E (m.dispatch word) (n.dispatch word)

namespace Lockstep

variable (lockstep : Lockstep S F E P) (h : S m n)

include lockstep h

theorem fault_cases :
    (m.fault = none ∧ n.fault = none) ∨
      ∃ f g, m.fault = some f ∧ n.fault = some g ∧ F f g := by
  have faults := lockstep.fault h
  generalize m.fault = left, n.fault = right at faults ⊢
  cases faults with
  | none => exact Or.inl ⟨rfl, rfl⟩
  | some related => exact Or.inr ⟨_, _, rfl, rfl, related⟩

theorem execute (word : UInt16) (calm : m.IsReady → P m.processor word) :
    Response.Related (SameOutcome F) S E (m.execute word) (n.execute word) := by
  rcases lockstep.fault_cases h with ⟨hm, hn⟩ | ⟨f, g, hm, hn, related⟩
  · have awaiting := lockstep.awaiting h
    cases hw : n.processor.awaiting with
    | none =>
      have ready : m.IsReady := ⟨hm, awaiting.trans hw⟩
      rw [execute_of_isReady ready, execute_of_isReady ⟨hn, hw⟩]
      exact lockstep.dispatch word h (calm ready)
    | some x =>
      simp only [Machine.execute, hm, hn, awaiting, hw]
      exact ⟨.flow .awaitKey, h, lockstep.silent⟩
  · simp only [Machine.execute, hm, hn]
    exact ⟨.failed related, h, lockstep.silent⟩

theorem step (calm : m.IsReady → P m.processor m.processor.fetch) :
    Response.Related (SameOutcome F) S E m.step n.step := by
  rw [Machine.step, Machine.step, ← lockstep.fetch h]
  exact lockstep.execute h _ calm

theorem tickTimers (now : Nat) : S (m.tickTimers now) (n.tickTimers now) := by
  simp only [Machine.tickTimers, lockstep.timer h]
  split
  · exact lockstep.countDown (lockstep.setTimer (n.timer.poll now).2 h)
  · exact lockstep.setTimer _ h

theorem tickClock (now : Nat)
    (calm : ∀ word, m.dispatched? (.tick now) = some word → P m.processor word) :
    Response.Related (SameOutcome F) S E (m.tickClock now) (n.tickClock now) := by
  have awaiting := lockstep.awaiting h
  cases hw : m.processor.awaiting with
  | some x =>
    rw [tickClock_of_awaiting hw, tickClock_of_awaiting (awaiting.symm.trans hw),
      lockstep.clock h]
    exact ⟨.flow .idle, lockstep.setClock _ h, lockstep.silent⟩
  | none =>
    have polled := lockstep.setClock (m.clock.poll now).2 h
    simp only [Machine.tickClock, hw, awaiting.symm.trans hw, ← lockstep.clock h]
    cases fires : (m.clock.poll now).1 with
    | false => exact ⟨.flow .idle, polled, lockstep.silent⟩
    | true =>
      refine lockstep.step polled ?_
      intro ready
      -- The gate has moved, but whether the machine is ready does not depend on it.
      have same : m.IsReady := ⟨ready.unstopped, ready.unblocked⟩
      exact calm _ (if_pos ⟨same, fires⟩)

theorem tick (now : Nat)
    (calm : ∀ word, m.dispatched? (.tick now) = some word → P m.processor word) :
    Response.Related (SameOutcome F) S E (m.tick now) (n.tick now) := by
  rcases lockstep.fault_cases h with ⟨hm, hn⟩ | ⟨f, g, hm, hn, related⟩
  · obtain ⟨answer, machine, emitted⟩ := lockstep.tickClock h now calm
    rw [tick_of_unstopped hm, tick_of_unstopped hn]
    -- A fault keeps both machines from their timers.
    generalize m.tickClock now = r, n.tickClock now = s at answer machine emitted ⊢
    obtain ⟨x, m', lines⟩ := r
    obtain ⟨y, n', lines'⟩ := s
    cases answer with
    | flow flow => exact ⟨.flow flow, lockstep.tickTimers machine now, emitted⟩
    | failed related => exact ⟨.failed related, machine, emitted⟩
  · rw [tick_of_fault hm, tick_of_fault hn]
    exact ⟨.failed related, h, lockstep.silent⟩

/-! ### As operations -/

theorem apply_step (calm : ∀ word, m.dispatched? .step = some word → P m.processor word) :
    Response.Related (SameAnswer F) S E (m.apply .step) (n.apply .step) := by
  obtain ⟨answer, machine, emitted⟩ := lockstep.step h fun ready => calm _ (if_pos ready)
  exact ⟨answer.ofExecution, machine, emitted⟩

theorem apply_execute (word : UInt16)
    (calm : ∀ other, m.dispatched? (.execute word) = some other → P m.processor other) :
    Response.Related (SameAnswer F) S E (m.apply (.execute word)) (n.apply (.execute word)) := by
  obtain ⟨answer, machine, emitted⟩ :=
    lockstep.execute h word fun ready => calm word (if_pos ready)
  exact ⟨answer.ofExecution, machine, emitted⟩

theorem apply_tick (now : Nat)
    (calm : ∀ word, m.dispatched? (.tick now) = some word → P m.processor word) :
    Response.Related (SameAnswer F) S E (m.apply (.tick now)) (n.apply (.tick now)) := by
  obtain ⟨answer, machine, emitted⟩ := lockstep.tick h now calm
  exact ⟨answer.ofExecution, machine, emitted⟩

/-- Related machines execute the same word at an operation, or none. -/
theorem dispatched?_eq (operation : Operation) :
    m.dispatched? operation = n.dispatched? operation := by
  have ready : m.IsReady ↔ n.IsReady := by
    have awaiting := lockstep.awaiting h
    rcases lockstep.fault_cases h with ⟨hm, hn⟩ | ⟨f, g, hm, hn, -⟩
    · constructor
      · exact fun ready => ⟨hn, awaiting.symm.trans ready.unblocked⟩
      · exact fun ready => ⟨hm, awaiting.trans ready.unblocked⟩
    · constructor
      · exact fun ready => absurd (hm.symm.trans ready.unstopped) nofun
      · exact fun ready => absurd (hn.symm.trans ready.unstopped) nofun
  cases operation with
  | step | execute _ | tick _ =>
    simp only [dispatched?, ready, lockstep.fetch h, lockstep.clock h]
  | _ => rfl

end Lockstep

/-- **Operations that execute something respect a relation**, answer for answer, if it has the
same faults on both sides. -/
theorem Lockstep.apply_of_executes (lockstep : Lockstep S Eq E P) (h : S m n)
    {operation : Operation} (executes : operation.Executes)
    (calm : ∀ word, m.dispatched? operation = some word → P m.processor word) :
    Response.Related Eq S E (m.apply operation) (n.apply operation) := by
  have related : Response.Related (SameAnswer Eq) S E (m.apply operation) (n.apply operation) := by
    cases executes with
    | step => exact lockstep.apply_step h calm
    | execute word => exact lockstep.apply_execute h word calm
    | tick now => exact lockstep.apply_tick h now calm
  exact ⟨related.answer.eq, related.machine, related.emitted⟩

/-- If the relation asks for a condition on instructions, it asks it of the one that is executed. -/
theorem Lockstep.apply_of_executed {C : Processor → Instruction → Prop}
    (lockstep : Lockstep S Eq E fun p word => ∀ i ∈ Instruction.decode word, C p i) (h : S m n)
    {operation : Operation} (executes : operation.Executes)
    (calm : ∀ i ∈ m.executed? operation, C m.processor i) :
    Response.Related Eq S E (m.apply operation) (n.apply operation) :=
  lockstep.apply_of_executes h executes fun word dispatched i decoded =>
    calm i (Option.bind_eq_some_iff.mpr ⟨word, dispatched, decoded⟩)

end Machine

end Chip8
