import Chip8.Machine.Operation
import Mathlib.Data.List.Forall2

/-!
# Runs of a machine

What is said of all histories of a machine is said here once. A machine is reachable
(`Chip8.Machine.Reachable`) if some operations bring it about from a new one, and what
every operation preserves holds of every machine that a run comes to
(`Chip8.Machine.run_induction`); if it depends on the machine what an operation
preserves, the run is one along which the condition holds (`Chip8.Machine.Along`).
`Chip8.Machine.responses` lists the responses to the
operations of a run, and `Chip8.Machine.collect` whatever else there is to find at them; two
runs of the same operations from related machines give
related responses as soon as single operations do
(`Chip8.Machine.forall₂_responses`).

Among the operations, `Chip8.Operation.Drives` holds of those that drive a machine, as
opposed to those that restart it, load it or reach into it. A machine can execute
something when it is ready (`Chip8.Machine.IsReady`), and
`Chip8.Machine.dispatched?` is the word that an operation then has it execute, if it
has it execute one; `Chip8.Machine.executions` are all the words of a run. The rest of the
file settles what is left of an operation besides that:
`Chip8.Machine.response_of_dispatched` for the operations that execute a word, and
`Chip8.Machine.processor_apply_of_not_dispatched` for those that do not.
-/

namespace Chip8

/-! ### Sequences of operations -/

namespace Machine

/-- A machine that operations bring about from a new one. -/
def Reachable (m : Machine) : Prop :=
  ∃ settings entropy operations, (create settings entropy).machine.run operations = m

/-- The responses to the operations of a run. -/
def responses (m : Machine) : List Operation → List (Response Answer)
  | [] => []
  | operation :: operations =>
    m.apply operation :: (m.apply operation).machine.responses operations

@[simp] theorem run_nil (m : Machine) : m.run [] = m := rfl

@[simp] theorem run_cons (m : Machine) (operation : Operation) (operations : List Operation) :
    m.run (operation :: operations) = (m.apply operation).machine.run operations := rfl

theorem run_append (m : Machine) (operations others : List Operation) :
    m.run (operations ++ others) = (m.run operations).run others := List.foldl_append

theorem responses_append (m : Machine) (operations others : List Operation) :
    m.responses (operations ++ others) =
      m.responses operations ++ (m.run operations).responses others := by
  induction operations generalizing m with
  | nil => rfl
  | cons operation operations ih =>
    exact congrArg (m.apply operation :: ·) (ih (m.apply operation).machine)

/-- What is found at the operations of a run, of which each is looked at when its turn comes. -/
def collect {α : Type} (find : Machine → Operation → Option α) : Machine → List Operation → List α
  | _, [] => []
  | m, operation :: operations =>
    (find m operation).toList ++ collect find (m.apply operation).machine operations

/-- A property of the machine and the operation holds along a run if it holds of every
operation when its turn comes. -/
def Along (P : Machine → Operation → Prop) : Machine → List Operation → Prop
  | _, [] => True
  | m, operation :: operations =>
    P m operation ∧ Along P (m.apply operation).machine operations

section Collect

variable {α : Type} {find : Machine → Operation → Option α} {m : Machine} {operation : Operation}

theorem collect_cons_of_none (nothing : find m operation = none) (operations : List Operation) :
    m.collect find (operation :: operations) =
      (m.apply operation).machine.collect find operations := by
  rw [collect, nothing]
  rfl

theorem collect_cons_of_some {a : α} (found : find m operation = some a)
    (operations : List Operation) :
    m.collect find (operation :: operations) =
      a :: (m.apply operation).machine.collect find operations := by
  rw [collect, found]
  rfl

end Collect

/-- What is found along a run is found along its parts. -/
theorem collect_append {α : Type} (find : Machine → Operation → Option α) (m : Machine)
    (operations others : List Operation) :
    m.collect find (operations ++ others) =
      m.collect find operations ++ (m.run operations).collect find others := by
  induction operations generalizing m with
  | nil => rfl
  | cons operation operations ih =>
    rw [List.cons_append, collect, collect, ih, List.append_assoc]
    rfl

instance decidableAlong {P : Machine → Operation → Prop}
    [inst : ∀ m operation, Decidable (P m operation)] :
    ∀ m operations, Decidable (Along P m operations)
  | _, [] => isTrue trivial
  | m, operation :: operations =>
    have : Decidable (Along P (m.apply operation).machine operations) := decidableAlong _ _
    inferInstanceAs (Decidable (P m operation ∧ Along P (m.apply operation).machine operations))

/-- **What the operations of a run preserve**, as far as they have a property when their
turn comes, is preserved by the run. -/
theorem Along.run_induction {P : Machine → Operation → Prop} {I : Machine → Prop}
    (step : ∀ m operation, P m operation → I m → I (m.apply operation).machine)
    {operations : List Operation} {m : Machine} (along : Along P m operations) (hm : I m) :
    I (m.run operations) := by
  induction operations generalizing m with
  | nil => exact hm
  | cons operation operations ih => exact ih along.2 (step m operation along.1 hm)

/-- What holds of all operations of a run holds along it. -/
theorem along_of_forall {P : Operation → Prop} {operations : List Operation}
    (h : ∀ operation ∈ operations, P operation) (m : Machine) :
    Along (fun _ => P) m operations := by
  induction operations generalizing m with
  | nil => trivial
  | cons operation operations ih =>
    rw [List.forall_mem_cons] at h
    exact ⟨h.1, ih h.2 _⟩

/-- **What every operation preserves, every run preserves.** -/
theorem run_induction {I : Machine → Prop} {P : Operation → Prop}
    (step : ∀ m operation, P operation → I m → I (m.apply operation).machine)
    (operations : List Operation) (hP : ∀ operation ∈ operations, P operation) {m : Machine}
    (hm : I m) : I (m.run operations) :=
  (along_of_forall hP m).run_induction step hm

theorem Along.imp {P Q : Machine → Operation → Prop}
    (weaken : ∀ m operation, P m operation → Q m operation) {m : Machine}
    {operations : List Operation} (along : Along P m operations) : Along Q m operations := by
  induction operations generalizing m with
  | nil => trivial
  | cons operation operations ih => exact ⟨weaken m operation along.1, ih along.2⟩

theorem Along.and {P Q : Machine → Operation → Prop} {m : Machine}
    {operations : List Operation} (hP : Along P m operations) (hQ : Along Q m operations) :
    Along (fun m operation => P m operation ∧ Q m operation) m operations := by
  induction operations generalizing m with
  | nil => trivial
  | cons operation operations ih => exact ⟨⟨hP.1, hQ.1⟩, ih hP.2 hQ.2⟩

/-- What holds along a run holds along its beginnings. -/
theorem Along.beginning {P : Machine → Operation → Prop} {m : Machine}
    {operations first : List Operation} (along : Along P m operations)
    (reached : first <+: operations) : Along P m first := by
  induction first generalizing m operations with
  | nil => trivial
  | cons operation first ih =>
    obtain ⟨rest, rfl⟩ := reached
    exact ⟨along.1, ih along.2 ⟨rest, rfl⟩⟩

/-- **Machines that single operations keep related are kept related by runs**, and the
responses on the way are related one by one. The operations may be asked for a property when
their turn comes. -/
theorem Along.forall₂_responses {S : Machine → Machine → Prop}
    {R : Response Answer → Response Answer → Prop} {P : Machine → Operation → Prop}
    (step : ∀ m n operation, P m operation → S m n → R (m.apply operation) (n.apply operation))
    (related : ∀ r s, R r s → S r.machine s.machine) {operations : List Operation}
    {m n : Machine} (along : Along P m operations) (h : S m n) :
    List.Forall₂ R (m.responses operations) (n.responses operations) ∧
      S (m.run operations) (n.run operations) := by
  induction operations generalizing m n with
  | nil => exact ⟨.nil, h⟩
  | cons operation operations ih =>
    have first := step m n operation along.1 h
    obtain ⟨rest, last⟩ := ih along.2 (related _ _ first)
    exact ⟨.cons first rest, last⟩

/-- So they are if the property is one of the operations alone. -/
theorem forall₂_responses {S : Machine → Machine → Prop}
    {R : Response Answer → Response Answer → Prop} {P : Operation → Prop}
    (step : ∀ m n operation, P operation → S m n → R (m.apply operation) (n.apply operation))
    (related : ∀ r s, R r s → S r.machine s.machine)
    (operations : List Operation) (hP : ∀ operation ∈ operations, P operation)
    {m n : Machine} (h : S m n) :
    List.Forall₂ R (m.responses operations) (n.responses operations) ∧
      S (m.run operations) (n.run operations) :=
  (along_of_forall hP m).forall₂_responses step related h

end Machine

/-! ### Driving a machine -/

/-- The operations that drive a machine: those that execute or report a time, and the
events of the keypad. -/
inductive Operation.Drives : Operation → Prop
  /-- Executing the word at the program counter. -/
  | step : Drives .step
  /-- Executing a word. -/
  | execute (word : UInt16) : Drives (.execute word)
  /-- Advancing to a time. -/
  | tick (now : Nat) : Drives (.tick now)
  /-- Pressing a key. -/
  | pressKey (key : Key) : Drives (.pressKey key)
  /-- Releasing a key. -/
  | releaseKey (key : Key) : Drives (.releaseKey key)
  /-- Releasing all keys. -/
  | releaseKeys : Drives .releaseKeys

/-- The operations that execute a word if the machine can. -/
inductive Operation.Executes : Operation → Prop
  /-- Executing the word at the program counter. -/
  | step : Executes .step
  /-- Executing a word. -/
  | execute (word : UInt16) : Executes (.execute word)
  /-- Advancing to a time. -/
  | tick (now : Nat) : Executes (.tick now)

/-- A word, and the machine that executes it. -/
structure Execution where
  /-- The machine before it. -/
  machine : Machine
  /-- The word. -/
  word : UInt16

/-- An answer that tells of a fault is due to it. -/
theorem Answer.eq_error_of_ofExecution {result : Except Fault Flow} {fault : Fault}
    (h : Answer.ofExecution result = .failed (.halted fault)) : result = .error fault := by
  cases result with
  | ok flow => cases h
  | error other =>
    cases h
    rfl

/-- So is an answer that tells of success. -/
theorem Answer.eq_ok_of_ofExecution {result : Except Fault Flow} {flow : Flow}
    (h : Answer.ofExecution result = .flow flow) : result = .ok flow := by
  cases result with
  | ok other =>
    cases h
    rfl
  | error fault => cases h

namespace Machine

/-- A machine that can execute something. -/
structure IsReady (m : Machine) : Prop where
  /-- No fault stopped it. -/
  unstopped : m.fault = none
  /-- No register waits for a key press. -/
  unblocked : m.processor.awaiting = none

instance (m : Machine) : Decidable m.IsReady :=
  decidable_of_iff (m.fault = none ∧ m.processor.awaiting = none)
    ⟨fun h => ⟨h.1, h.2⟩, fun h => ⟨h.unstopped, h.unblocked⟩⟩

/-- The word that an operation has the machine execute, if it has it execute one. -/
def dispatched? (m : Machine) : Operation → Option UInt16
  | .step => if m.IsReady then some m.processor.fetch else none
  | .execute word => if m.IsReady then some word else none
  | .tick now => if m.IsReady ∧ (m.clock.poll now).1 then some m.processor.fetch else none
  | _ => none

/-- The instruction that an operation has the machine execute, if it has it execute one. -/
def executed? (m : Machine) (operation : Operation) : Option Instruction :=
  (m.dispatched? operation).bind Instruction.decode

/-- What is executed along a run. -/
def executions (m : Machine) (operations : List Operation) : List Execution :=
  m.collect (fun m operation => (m.dispatched? operation).map (Execution.mk m)) operations

/-- The instructions that are executed along a run. -/
def instructions (m : Machine) (operations : List Operation) : List Instruction :=
  m.collect executed? operations

variable {m : Machine}

theorem executions_cons_of_none {operation : Operation} (silent : m.dispatched? operation = none)
    (operations : List Operation) :
    m.executions (operation :: operations) =
      (m.apply operation).machine.executions operations :=
  collect_cons_of_none (Option.map_eq_none_iff.mpr silent) operations

theorem executions_cons_of_some {operation : Operation} {word : UInt16}
    (dispatched : m.dispatched? operation = some word) (operations : List Operation) :
    m.executions (operation :: operations) =
      ⟨m, word⟩ :: (m.apply operation).machine.executions operations :=
  collect_cons_of_some (Option.map_eq_some_iff.mpr ⟨word, dispatched, rfl⟩) operations

/-! ### Executing a word -/

theorem execute_of_isReady (h : m.IsReady) (word : UInt16) : m.execute word = m.dispatch word := by
  simp only [execute, h.unstopped, h.unblocked]

/-- What is dispatched does what the instruction of its word does, if this can be executed and
draws no random byte. -/
theorem dispatch_of_decode {word : UInt16} {i : Instruction} {flow : Flow} {q : Processor}
    (decoded : Instruction.decode word = some i) (quiet : i.drawsRandom = false)
    (executed : m.processor.execute m.settings.shift 0 i = (.ok flow, q)) :
    m.dispatch word = ⟨.ok flow, { m with processor := q }, [m.traceOf i]⟩ := by
  simp only [dispatch, decoded, perform, quiet, Bool.false_eq_true, if_false, executed]

/-- A machine that is ready executes a word by dispatching it. -/
theorem execute_of_decode (h : m.IsReady) {word : UInt16} {i : Instruction} {flow : Flow}
    {q : Processor} (decoded : Instruction.decode word = some i)
    (quiet : i.drawsRandom = false)
    (executed : m.processor.execute m.settings.shift 0 i = (.ok flow, q)) :
    m.execute word = ⟨.ok flow, { m with processor := q }, [m.traceOf i]⟩ :=
  (execute_of_isReady h word).trans (dispatch_of_decode decoded quiet executed)

/-- A machine that is not ready is left alone. -/
theorem machine_execute_of_not_isReady (h : ¬m.IsReady) (word : UInt16) :
    (m.execute word).machine = m := by
  cases hf : m.fault with
  | some fault => simp only [execute, hf]
  | none =>
    cases hw : m.processor.awaiting with
    | some x => simp only [execute, hf, hw]
    | none => exact absurd ⟨hf, hw⟩ h

theorem dispatched?_step_eq_none_iff : m.dispatched? .step = none ↔ ¬m.IsReady := by
  simp [dispatched?]

theorem dispatched?_execute_eq_none_iff {word : UInt16} :
    m.dispatched? (.execute word) = none ↔ ¬m.IsReady := by
  simp [dispatched?]

/-! ### Reporting a time -/

theorem tick_of_fault {fault : Fault} (h : m.fault = some fault) (now : Nat) :
    m.tick now = ⟨.error fault, m, []⟩ := by
  simp only [tick, h]

/-- A machine on which no fault was found goes on to its timers, unless one is found. -/
theorem tick_of_unstopped (h : m.fault = none) (now : Nat) :
    m.tick now =
      match (m.tickClock now).answer with
      | .error _ => m.tickClock now
      | .ok _ => { m.tickClock now with machine := (m.tickClock now).machine.tickTimers now } := by
  obtain ⟨settings, entropy, processor, clock, timer, random, fault⟩ := m
  obtain rfl : fault = none := h
  rfl

theorem answer_tick_of_unstopped (h : m.fault = none) (now : Nat) :
    (m.tick now).answer = (m.tickClock now).answer := by
  rw [tick_of_unstopped h]
  split <;> rfl

/-- A fault keeps a machine from going on to its timers. -/
theorem tick_of_error (h : m.fault = none) {now : Nat} {fault : Fault}
    (failed : (m.tickClock now).answer = .error fault) : m.tick now = m.tickClock now := by
  rw [tick_of_unstopped h, failed]

/-- The machine whose gate of the instructions holds a time. -/
def latch (m : Machine) (now : Nat) : Machine :=
  { m with clock := { m.clock with since := some now } }

theorem IsReady.latch (h : m.IsReady) (now : Nat) : (m.latch now).IsReady :=
  ⟨h.unstopped, h.unblocked⟩

/-- When its gate fires, a machine that is ready executes the word at its program
counter, with the time held by the gate already. -/
theorem tickClock_of_fires (h : m.IsReady) {now : Nat} (hp : (m.clock.poll now).1 = true) :
    m.tickClock now = (m.latch now).execute m.processor.fetch := by
  simp only [tickClock, h.unblocked, hp, Gate.poll_of_fires hp, if_true]
  rfl

/-- When its gate does not fire, a machine that is ready does nothing. -/
theorem tickClock_of_silent (h : m.IsReady) {now : Nat} (hp : (m.clock.poll now).1 = false) :
    m.tickClock now = ⟨.ok .idle, { m with clock := (m.clock.poll now).2 }, []⟩ := by
  simp only [tickClock, h.unblocked, hp]
  rfl

theorem tickClock_of_awaiting {x : Register} (h : m.processor.awaiting = some x) (now : Nat) :
    m.tickClock now = ⟨.ok .idle, { m with clock := m.clock.arm now }, []⟩ := by
  simp only [tickClock, h]

/-- The gate of the timers counts the processor down, or leaves it alone. -/
theorem processor_tickTimers (m : Machine) (now : Nat) :
    (m.tickTimers now).processor = m.processor ∨
      (m.tickTimers now).processor = m.processor.countDown := by
  simp only [tickTimers]
  split
  · exact Or.inr rfl
  · exact Or.inl rfl

/-- A key press does nothing but move the key down on a machine on which no register
waits. -/
theorem machine_pressKey_of_not_awaiting (h : m.processor.awaiting = none) (key : Key) :
    (m.apply (.pressKey key)).machine =
      { m with
        processor := { m.processor with keypad := m.processor.keypad.set key.val true } } := by
  simp only [apply, Response.map, pressKey, Processor.pressKey_of_not_awaiting h]

/-! ### The word that an operation executes -/

/-- Only some operations have a machine execute a word. -/
theorem executes_of_dispatched {operation : Operation} {word : UInt16}
    (h : m.dispatched? operation = some word) : operation.Executes := by
  cases operation with
  | step => exact .step
  | execute word => exact .execute word
  | tick now => exact .tick now
  | _ => contradiction

/-- The word that is executed is the one at the program counter, unless it was given. -/
theorem dispatched?_eq_fetch {operation : Operation} {word : UInt16}
    (dispatched : m.dispatched? operation = some word)
    (fetches : ∀ given, operation ≠ .execute given) : word = m.processor.fetch := by
  cases operation
  case execute given => exact absurd rfl (fetches given)
  case step =>
    simp only [dispatched?, Option.ite_none_right_eq_some, Option.some.injEq] at dispatched
    exact dispatched.2.symm
  case tick now =>
    simp only [dispatched?, Option.ite_none_right_eq_some, Option.some.injEq] at dispatched
    exact dispatched.2.symm
  all_goals contradiction

/-- **What is left of an operation that executes a word besides that word**: it may
move the gate of the instructions before, and report the time to the timers after. -/
theorem response_of_dispatched {operation : Operation} {word : UInt16}
    (h : m.dispatched? operation = some word) :
    m.IsReady ∧ ∃ clock,
      (m.apply operation).answer =
        .ofExecution (({ m with clock } : Machine).dispatch word).answer ∧
      (m.apply operation).emitted = (({ m with clock } : Machine).dispatch word).emitted ∧
      ((m.apply operation).machine = (({ m with clock } : Machine).dispatch word).machine ∨
        ∃ now, (m.apply operation).machine =
          (({ m with clock } : Machine).dispatch word).machine.tickTimers now) := by
  cases operation
  case step =>
    simp only [dispatched?, Option.ite_none_right_eq_some, Option.some.injEq] at h
    obtain ⟨ready, rfl⟩ := h
    refine ⟨ready, m.clock, ?_, ?_, Or.inl ?_⟩ <;>
      simp only [apply, Response.map, step, execute_of_isReady ready]
  case execute word' =>
    simp only [dispatched?, Option.ite_none_right_eq_some, Option.some.injEq] at h
    obtain ⟨ready, rfl⟩ := h
    refine ⟨ready, m.clock, ?_, ?_, Or.inl ?_⟩ <;>
      simp only [apply, Response.map, execute_of_isReady ready]
  case tick now =>
    simp only [dispatched?, Option.ite_none_right_eq_some, Option.some.injEq] at h
    obtain ⟨⟨ready, fires⟩, rfl⟩ := h
    refine ⟨ready, { m.clock with since := some now }, ?_⟩
    -- The gate holds the time before the word is executed; the timers come after it.
    have executed := tickClock_of_fires ready fires
    rw [execute_of_isReady (ready.latch now)] at executed
    rw [latch] at executed
    rw [← executed]
    simp only [apply, Response.map, tick_of_unstopped ready.unstopped]
    split
    case h_1 error => exact ⟨rfl, rfl, Or.inl rfl⟩
    case h_2 ok => exact ⟨rfl, rfl, Or.inr ⟨now, rfl⟩⟩
  all_goals contradiction

/-- For the processor, what comes after the word is to count the timers down at most. -/
theorem apply_of_dispatched {operation : Operation} {word : UInt16}
    (h : m.dispatched? operation = some word) :
    m.IsReady ∧ ∃ clock,
      (m.apply operation).answer =
        .ofExecution (({ m with clock } : Machine).dispatch word).answer ∧
      ((m.apply operation).machine.processor =
          (({ m with clock } : Machine).dispatch word).machine.processor ∨
        (m.apply operation).machine.processor =
          (({ m with clock } : Machine).dispatch word).machine.processor.countDown) := by
  obtain ⟨ready, clock, answer, -, machine⟩ := response_of_dispatched h
  refine ⟨ready, clock, answer, ?_⟩
  rcases machine with same | ⟨now, ticked⟩
  · exact Or.inl (congrArg processor same)
  · rw [ticked]
    exact processor_tickTimers _ now

/-- A time at which no word is executed is reported to both gates, unless the machine was
stopped. -/
theorem machine_tick_of_not_dispatched {now : Nat} (h : m.dispatched? (.tick now) = none) :
    (m.tick now).machine = m ∨
      ∃ clock, (m.tick now).machine = ({ m with clock } : Machine).tickTimers now := by
  rcases Option.eq_none_or_eq_some m.fault with hf | ⟨fault, hf⟩
  · rcases Option.eq_none_or_eq_some m.processor.awaiting with hw | ⟨x, hw⟩
    · have ready : m.IsReady := ⟨hf, hw⟩
      cases hp : (m.clock.poll now).1 with
      | true => simp [dispatched?, ready, hp] at h
      | false =>
        rw [tick_of_unstopped hf, tickClock_of_silent ready hp]
        exact Or.inr ⟨(m.clock.poll now).2, rfl⟩
    · rw [tick_of_unstopped hf, tickClock_of_awaiting hw]
      exact Or.inr ⟨m.clock.arm now, rfl⟩
  · exact Or.inl (by rw [tick_of_fault hf])

/-- **A machine is left as it was when it executes no word**, except that its gates learn of
the time. -/
theorem machine_apply_of_not_dispatched {operation : Operation} (executes : operation.Executes)
    (h : m.dispatched? operation = none) :
    (m.apply operation).machine = m ∨
      ∃ clock now, (m.apply operation).machine = ({ m with clock } : Machine).tickTimers now := by
  cases executes with
  | step =>
    exact Or.inl (machine_execute_of_not_isReady (dispatched?_step_eq_none_iff.mp h) _)
  | execute word =>
    exact Or.inl (machine_execute_of_not_isReady (dispatched?_execute_eq_none_iff.mp h) word)
  | tick now =>
    rcases machine_tick_of_not_dispatched h with same | ⟨clock, ticked⟩
    · exact Or.inl same
    · exact Or.inr ⟨clock, now, ticked⟩

/-- **What an operation that drives a machine does when it executes no word**: it counts
the timers down, passes an event of the keypad on, or leaves the processor alone. -/
theorem processor_apply_of_not_dispatched {operation : Operation} (drives : operation.Drives)
    (h : m.dispatched? operation = none) :
    (m.apply operation).machine.processor = m.processor ∨
      (m.apply operation).machine.processor = m.processor.countDown ∨
      (∃ key, (m.apply operation).machine.processor = m.processor.pressKey key) ∨
      (∃ key, (m.apply operation).machine.processor = m.processor.releaseKey key) ∨
      (m.apply operation).machine.processor = m.processor.releaseKeys := by
  cases drives
  case pressKey key => exact Or.inr (Or.inr (Or.inl ⟨key, rfl⟩))
  case releaseKey key => exact Or.inr (Or.inr (Or.inr (Or.inl ⟨key, rfl⟩)))
  case releaseKeys => exact Or.inr (Or.inr (Or.inr (Or.inr rfl)))
  all_goals
    rcases machine_apply_of_not_dispatched (by constructor) h with same | ⟨clock, now, ticked⟩
    · exact Or.inl (congrArg processor same)
    · rw [ticked]
      exact (processor_tickTimers _ now).imp_right Or.inl

end Machine

end Chip8
