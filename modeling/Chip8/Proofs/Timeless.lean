import Chip8.Proofs.Effects
import Chip8.Proofs.Lockstep
import Chip8.Proofs.Ticking

/-!
# What time has a bearing on

A machine knows of time by its two timers and by the times that its gates hold;
`Chip8.Machine.timeless` is the machine without either, and two machines are the same apart
from time if these agree. A single instruction reads a timer. All others do the same on
machines that are the same apart from time (`Chip8.Machine.perform_timeless`), and so does
every operation that reports no time (`Chip8.Machine.apply_timeless`).

A time that is reported comes down to a step or to nothing, apart from time
(`Chip8.Machine.timeless_tick`). What is left of a run is its course
(`Chip8.Machine.course`): a step for each word that was executed, and the events of the
keypad between them. The main statement is `Chip8.Machine.time_leaves_no_trace`: machines
that are the same apart from time, and whose runs have the same course, end up the same apart
from time, if the delay timer was not read on the way.
-/

namespace Chip8

/-! ### Processors apart from time -/

namespace Processor

variable {p q : Processor} {shift : ShiftRule} {noise : UInt8} {i : Instruction}

/-- The processor with both timers at zero. -/
def timeless (p : Processor) : Processor := { p with delay := 0, sound := 0 }

theorem timeless_countDown (p : Processor) : p.countDown.timeless = p.timeless := rfl

theorem timeless_pressKey (p : Processor) (key : Key) :
    (p.pressKey key).timeless = p.timeless.pressKey key := by
  unfold pressKey timeless
  cases p.awaiting <;> rfl

theorem timeless_advance (p : Processor) (count : UInt16) :
    (p.advance count).timeless = p.timeless.advance count := rfl

theorem timeless_setResult (p : Processor) (x : Register) (result : UInt8 × Option Bool) :
    (p.setResult x result).timeless = p.timeless.setResult x result := by
  obtain ⟨value, flag⟩ := result
  cases flag <;> rfl

/-- Processors that are the same apart from time differ in their timers at most. -/
theorem exists_of_timeless_eq (same : p.timeless = q.timeless) :
    ∃ delay sound, q = { p with delay, sound } := by
  obtain ⟨⟩ := p
  obtain ⟨⟩ := q
  cases same
  exact ⟨_, _, rfl⟩

/-- **All instructions but one do the same**, whatever the timers are. -/
theorem execute_timeless (same : p.timeless = q.timeless) (other : ∀ x, i ≠ .readDelay x) :
    (p.execute shift noise i).1 = (q.execute shift noise i).1 ∧
      (p.execute shift noise i).2.timeless = (q.execute shift noise i).2.timeless := by
  obtain ⟨delay, sound, rfl⟩ := exists_of_timeless_eq same
  cases i
  case readDelay x => exact absurd rfl (other x)
  case ret =>
    simp only [execute]
    cases p.stack.pop? <;> exact ⟨rfl, rfl⟩
  case call target =>
    simp only [execute]
    cases p.stack.push? p.pc <;> exact ⟨rfl, rfl⟩
  case combine operation x y =>
    refine ⟨rfl, ?_⟩
    simp only [execute, timeless_advance, timeless_setResult]
    rfl
  all_goals exact ⟨rfl, rfl⟩

end Processor

/-! ### Machines apart from time -/

/-- A time that is reported to a gate changes no more of it than the time that it holds, -/
theorem Gate.forget_arm (g : Gate) (now : Nat) : (g.arm now).forget = g.forget := by
  simp only [forget, interval_arm]

/-- also if the gate is asked whether it fires. -/
theorem Gate.forget_poll (g : Gate) (now : Nat) : (g.poll now).2.forget = g.forget := by
  simp only [forget, interval_poll]

namespace Machine

variable {m n : Machine} {operation rest : Operation} {operations : List Operation}

/-- The machine with its timers at zero, and with gates that hold no time. -/
def timeless (m : Machine) : Machine :=
  { m with
    processor := m.processor.timeless
    clock := m.clock.forget
    timer := m.timer.forget }

theorem timeless_latch (m : Machine) (now : Nat) : (m.latch now).timeless = m.timeless := rfl

theorem timeless_setDelay (m : Machine) (value : UInt8) :
    (m.apply (.edit (.setDelay value))).machine.timeless = m.timeless := rfl

/-- Machines that are the same apart from time differ in their timers and in what their gates
hold at most. -/
theorem exists_of_timeless_eq (same : m.timeless = n.timeless) :
    ∃ delay sound clock timer,
      n = { m with processor := { m.processor with delay, sound }, clock, timer } ∧
      m.clock.forget = clock.forget ∧ m.timer.forget = timer.forget := by
  obtain ⟨settings, entropy, p, clock, timer, random, fault⟩ := m
  obtain ⟨settings', entropy', q, clock', timer', random', fault'⟩ := n
  simp only [timeless, mk.injEq] at same
  obtain ⟨rfl, rfl, processor, clocks, timers, rfl, rfl⟩ := same
  obtain ⟨delay, sound, rfl⟩ := Processor.exists_of_timeless_eq processor
  exact ⟨delay, sound, clock', timer', rfl, clocks, timers⟩

theorem isReady_timeless (same : m.timeless = n.timeless) : m.IsReady ↔ n.IsReady := by
  obtain ⟨delay, sound, clock, timer, rfl, -⟩ := exists_of_timeless_eq same
  constructor
  · rintro ⟨unstopped, unblocked⟩
    exact ⟨unstopped, unblocked⟩
  · rintro ⟨unstopped, unblocked⟩
    exact ⟨unstopped, unblocked⟩

theorem fetch_timeless (same : m.timeless = n.timeless) :
    m.processor.fetch = n.processor.fetch := by
  obtain ⟨delay, sound, clock, timer, rfl, -⟩ := exists_of_timeless_eq same
  rfl

/-! ### Executing a word -/

/-- A machine performs all instructions but one alike, whatever the time. -/
theorem perform_timeless {i : Instruction} (same : m.timeless = n.timeless)
    (other : ∀ x, i ≠ .readDelay x) :
    (m.perform i).1 = (n.perform i).1 ∧ (m.perform i).2.timeless = (n.perform i).2.timeless := by
  obtain ⟨delay, sound, clock, timer, rfl, clocks, timers⟩ := exists_of_timeless_eq same
  let q : Processor := { m.processor with delay, sound }
  have effect (noise : UInt8) :
      (m.processor.execute m.settings.shift noise i).1 =
          (q.execute m.settings.shift noise i).1 ∧
        (m.processor.execute m.settings.shift noise i).2.timeless =
          (q.execute m.settings.shift noise i).2.timeless :=
    Processor.execute_timeless rfl other
  refine ⟨(effect _).1, ?_⟩
  simp only [timeless, perform, clocks, timers, (effect _).2, q]

/-- So does it execute all words but those that read the delay timer. -/
theorem dispatch_timeless {word : UInt16} (same : m.timeless = n.timeless)
    (other : ∀ x, Instruction.decode word ≠ some (.readDelay x)) :
    (m.dispatch word).machine.timeless = (n.dispatch word).machine.timeless := by
  have pc : m.processor.pc = n.processor.pc := by
    obtain ⟨delay, sound, clock, timer, rfl, -⟩ := exists_of_timeless_eq same
    rfl
  refine (dispatch_related_of_pc_eq (S := fun m n => m.timeless = n.timeless) same pc ?_ ?_).machine
  · intro k l fault same
    obtain ⟨delay, sound, clock, timer, rfl, clocks, timers⟩ := exists_of_timeless_eq same
    simp only [timeless, Processor.timeless, clocks, timers]
  · intro i decoded
    refine perform_timeless same fun x reads => other x ?_
    rw [decoded, reads]

/-- An operation that does not have the machine read its delay timer. -/
def IgnoresDelay (m : Machine) (operation : Operation) : Prop :=
  ∀ x, m.executed? operation ≠ some (.readDelay x)

instance (m : Machine) (operation : Operation) : Decidable (m.IgnoresDelay operation) :=
  inferInstanceAs (Decidable (∀ x, m.executed? operation ≠ some (.readDelay x)))

theorem execute_timeless {word : UInt16} (same : m.timeless = n.timeless)
    (unread : m.IgnoresDelay (.execute word)) :
    (m.execute word).machine.timeless = (n.execute word).machine.timeless := by
  have readiness := isReady_timeless same
  by_cases ready : m.IsReady
  · rw [execute_of_isReady ready, execute_of_isReady (readiness.mp ready)]
    refine dispatch_timeless same fun x reads => unread x ?_
    rw [executed?, dispatched?, if_pos ready]
    exact reads
  · have blocked : ¬n.IsReady := fun h => ready (readiness.mpr h)
    rw [machine_execute_of_not_isReady ready, machine_execute_of_not_isReady blocked]
    exact same

/-! ### Operations that report no time -/

/-- What is left of an operation apart from time: a step, if it is a time that has a word
executed; nothing, if it is to execute something and has no word executed. -/
def untimed? (m : Machine) : Operation → Option Operation
  | .tick now => (m.dispatched? (.tick now)).map fun _ => .step
  | .step => (m.dispatched? .step).map fun _ => .step
  | .execute word => (m.dispatched? (.execute word)).map fun _ => .execute word
  | operation => some operation

theorem dispatched?_timeless (same : m.timeless = n.timeless)
    (untimed : operation.time? = none) : m.dispatched? operation = n.dispatched? operation := by
  have ready := isReady_timeless same
  have fetch := fetch_timeless same
  cases operation with
  | tick now => contradiction
  | step => simp only [dispatched?, ready, fetch]
  | execute word => simp only [dispatched?, ready]
  | _ => rfl

theorem untimed?_timeless (same : m.timeless = n.timeless)
    (untimed : operation.time? = none) : m.untimed? operation = n.untimed? operation := by
  cases operation with
  | tick now => contradiction
  | step | execute _ => simp only [untimed?, dispatched?_timeless same untimed]
  | _ => rfl

theorem ignoresDelay_timeless (same : m.timeless = n.timeless)
    (untimed : operation.time? = none) : m.IgnoresDelay operation ↔ n.IgnoresDelay operation := by
  rw [IgnoresDelay, IgnoresDelay, executed?, executed?, dispatched?_timeless same untimed]

/-- The processors can change alike. -/
theorem setProcessor_timeless {p q : Processor} (same : m.timeless = n.timeless)
    (processor : p.timeless = q.timeless) :
    ({ m with processor := p } : Machine).timeless = { n with processor := q }.timeless := by
  obtain ⟨delay, sound, clock, timer, rfl, clocks, timers⟩ := exists_of_timeless_eq same
  simp only [timeless, processor, clocks, timers]

/-- **An operation that reports no time does the same**, whatever the time, unless it reads
the delay timer. -/
theorem apply_timeless (same : m.timeless = n.timeless) (drives : operation.Drives)
    (untimed : operation.time? = none) (unread : m.IgnoresDelay operation) :
    (m.apply operation).machine.timeless = (n.apply operation).machine.timeless := by
  have processor : m.processor.timeless = n.processor.timeless := congrArg processor same
  cases drives with
  | tick now => contradiction
  | step =>
    -- A step is the execution of the word at the program counter, which is the same.
    calc (m.apply .step).machine.timeless
      _ = (m.execute m.processor.fetch).machine.timeless := rfl
      _ = (n.execute m.processor.fetch).machine.timeless := execute_timeless same unread
      _ = (n.apply .step).machine.timeless := by
        rw [fetch_timeless same]
        rfl
  | execute word => exact execute_timeless same unread
  | pressKey key =>
    refine setProcessor_timeless same ?_
    rw [Processor.timeless_pressKey, Processor.timeless_pressKey, processor]
  | releaseKey key => exact setProcessor_timeless same (congrArg (·.releaseKey key) processor)
  | releaseKeys => exact setProcessor_timeless same (congrArg (·.releaseKeys) processor)

/-! ### What is left of a time -/

theorem timeless_tickTimers (m : Machine) (now : Nat) :
    (m.tickTimers now).timeless = m.timeless := by
  have processor : (m.tickTimers now).processor.timeless = m.processor.timeless := by
    rcases m.processor_tickTimers now with same | counted
    · rw [same]
    · rw [counted, Processor.timeless_countDown]
  rw [timeless, processor, tickTimers_eq, Gate.forget_poll]
  rfl

/-- **A time comes down to a step or to nothing**, apart from time. -/
theorem timeless_tick (m : Machine) (now : Nat) :
    (m.tick now).machine.timeless =
      if m.isDue now then m.step.machine.timeless else m.timeless := by
  have effect := m.tick_effect now
  generalize m.tick now = r at effect ⊢
  cases effect with
  | halted stopped =>
    rw [isDue_of_not_isReady (not_isReady_of_fault stopped)]
    rfl
  | blocked unstopped waits =>
    rw [isDue_of_not_isReady (not_isReady_of_awaiting waits), timeless_tickTimers, timeless,
      Gate.forget_arm]
    rfl
  | idle ready silent =>
    rw [isDue_of_isReady ready, silent, timeless_tickTimers, timeless, Gate.forget_poll]
    rfl
  | refused ready fires halted =>
    rw [isDue_of_isReady ready, fires, if_pos rfl, step, execute_of_isReady ready, halted]
    rfl
  | performed ready fires performed done =>
    rw [isDue_of_isReady ready, fires, if_pos rfl, step, execute_of_isReady ready, done,
      timeless_tickTimers]
    rfl

/-! ### The course of a run -/

/-- What is left of a run apart from time: a step for each word that is executed, and the
events of the keypad, in their order. -/
def course : Machine → List Operation → List Operation
  | _, [] => []
  | m, operation :: operations =>
    (m.untimed? operation).toList ++ course (m.apply operation).machine operations

theorem course_cons_of_none (left : m.untimed? operation = none) :
    m.course (operation :: operations) = (m.apply operation).machine.course operations := by
  rw [course, left]
  rfl

theorem course_cons_of_some (left : m.untimed? operation = some rest) :
    m.course (operation :: operations) =
      rest :: (m.apply operation).machine.course operations := by
  rw [course, left]
  rfl

/-- An operation of which nothing is left changes nothing but what the machine knows of
time. -/
theorem apply_of_untimed?_eq_none (drives : operation.Drives)
    (left : m.untimed? operation = none) :
    m.dispatched? operation = none ∧ (m.apply operation).machine.timeless = m.timeless := by
  have silent : m.dispatched? operation = none := by
    cases drives with
    | step | execute _ | tick _ => exact Option.map_eq_none_iff.mp left
    | _ => contradiction
  refine ⟨silent, ?_⟩
  cases drives with
  | tick now =>
    have early : m.isDue now = false := by rw [isDue, silent, Option.isSome_none]
    have ticked := m.timeless_tick now
    rw [early] at ticked
    exact ticked
  | step =>
    have blocked := dispatched?_step_eq_none_iff.mp silent
    exact congrArg timeless (machine_execute_of_not_isReady blocked _)
  | execute word =>
    have blocked := dispatched?_execute_eq_none_iff.mp silent
    exact congrArg timeless (machine_execute_of_not_isReady blocked word)
  | _ => contradiction

/-- What is left of an operation reports no time, and does what the operation does, apart from
time. -/
theorem apply_of_untimed?_eq_some (drives : operation.Drives)
    (left : m.untimed? operation = some rest) :
    rest.Drives ∧ rest.time? = none ∧ m.untimed? rest = some rest ∧
      m.dispatched? rest = m.dispatched? operation ∧
      (m.apply operation).machine.timeless = (m.apply rest).machine.timeless := by
  cases drives with
  | tick now =>
    obtain ⟨word, dispatched, rfl⟩ := Option.map_eq_some_iff.mp left
    have due : m.isDue now = true := by rw [isDue, dispatched, Option.isSome_some]
    have ticked := m.timeless_tick now
    rw [due] at ticked
    simp only [dispatched?, Option.ite_none_right_eq_some, Option.some.injEq] at dispatched
    obtain ⟨⟨ready, fires⟩, rfl⟩ := dispatched
    have stepped : m.dispatched? .step = some m.processor.fetch := if_pos ready
    refine ⟨.step, rfl, ?_, ?_, ticked⟩
    · rw [untimed?, stepped]
      rfl
    · rw [stepped, dispatched?_tick_of_fires ready fires]
  | step =>
    obtain ⟨word, dispatched, rfl⟩ := Option.map_eq_some_iff.mp left
    exact ⟨.step, rfl, left, rfl, rfl⟩
  | execute word =>
    obtain ⟨word', dispatched, rfl⟩ := Option.map_eq_some_iff.mp left
    exact ⟨.execute word, rfl, left, rfl, rfl⟩
  | pressKey key =>
    obtain rfl := Option.some.inj left
    exact ⟨.pressKey key, rfl, rfl, rfl, rfl⟩
  | releaseKey key =>
    obtain rfl := Option.some.inj left
    exact ⟨.releaseKey key, rfl, rfl, rfl, rfl⟩
  | releaseKeys =>
    obtain rfl := Option.some.inj left
    exact ⟨.releaseKeys, rfl, rfl, rfl, rfl⟩

theorem ignoresDelay_of_untimed?_eq_some (drives : operation.Drives)
    (left : m.untimed? operation = some rest) :
    m.IgnoresDelay rest ↔ m.IgnoresDelay operation := by
  obtain ⟨-, -, -, dispatched, -⟩ := apply_of_untimed?_eq_some drives left
  rw [IgnoresDelay, IgnoresDelay, executed?, executed?, dispatched]

/-- On a machine that is the same apart from time, what is left of an operation comes to the
same apart from time. -/
theorem apply_left (same : m.timeless = n.timeless) (drives : operation.Drives)
    (left : m.untimed? operation = some rest) (unread : m.IgnoresDelay operation) :
    (m.apply operation).machine.timeless = (n.apply rest).machine.timeless := by
  obtain ⟨restDrives, untimed, -, -, alike⟩ := apply_of_untimed?_eq_some drives left
  rw [← ignoresDelay_of_untimed?_eq_some drives left] at unread
  exact alike.trans (apply_timeless same restDrives untimed unread)

/-- **A run comes to what its course comes to**, apart from time, and nothing is left out of
the course when it is run: every step in it executes a word. -/
theorem run_course (same : m.timeless = n.timeless)
    (drives : ∀ operation ∈ operations, operation.Drives)
    (unread : m.Along IgnoresDelay operations) :
    (m.run operations).timeless = (n.run (m.course operations)).timeless ∧
      n.Along IgnoresDelay (m.course operations) ∧
      n.course (m.course operations) = m.course operations := by
  induction operations generalizing m n with
  | nil => exact ⟨same, trivial, rfl⟩
  | cons operation operations ih =>
    rw [List.forall_mem_cons] at drives
    obtain ⟨first, along⟩ := unread
    rcases left : m.untimed? operation with _ | rest
    · obtain ⟨-, frozen⟩ := apply_of_untimed?_eq_none drives.1 left
      rw [course_cons_of_none left]
      exact ih (frozen.trans same) drives.2 along
    · obtain ⟨last, plain, whole⟩ := ih (apply_left same drives.1 left first) drives.2 along
      obtain ⟨-, untimed, again, -, -⟩ := apply_of_untimed?_eq_some drives.1 left
      rw [course_cons_of_some left]
      refine ⟨last, ⟨?_, plain⟩, ?_⟩
      · rwa [← ignoresDelay_timeless same untimed, ignoresDelay_of_untimed?_eq_some drives.1 left]
      · rw [untimed?_timeless same untimed] at again
        rw [course_cons_of_some again, whole]

/-- The delay timer is not read on a run if it is not read on its course. -/
theorem unread_of_course (same : m.timeless = n.timeless)
    (drives : ∀ operation ∈ operations, operation.Drives)
    (unread : n.Along IgnoresDelay (m.course operations)) :
    m.Along IgnoresDelay operations := by
  induction operations generalizing m n with
  | nil => trivial
  | cons operation operations ih =>
    rw [List.forall_mem_cons] at drives
    rcases left : m.untimed? operation with _ | rest
    · obtain ⟨silent, frozen⟩ := apply_of_untimed?_eq_none drives.1 left
      rw [course_cons_of_none left] at unread
      refine ⟨?_, ih (frozen.trans same) drives.2 unread⟩
      intro x reads
      rw [executed?, silent] at reads
      contradiction
    · obtain ⟨-, untimed, -, -, -⟩ := apply_of_untimed?_eq_some drives.1 left
      rw [course_cons_of_some left] at unread
      obtain ⟨first, along⟩ := unread
      rw [← ignoresDelay_timeless same untimed,
        ignoresDelay_of_untimed?_eq_some drives.1 left] at first
      exact ⟨first, ih (apply_left same drives.1 left first) drives.2 along⟩

/-- **Time leaves no trace but on the delay timer.** Two machines that are the same apart from
time are driven each in its own time, so that what is left of both runs is the same: the same
events of the keypad, with as many words executed before each of them and after the last. If
one of the runs does not read the delay timer, the machines end up the same apart from time.
In particular, such a run comes to what it comes to without any time, with one step for each
word that it executes. -/
theorem time_leaves_no_trace {events others : List Operation} (same : m.timeless = n.timeless)
    (drives : ∀ operation ∈ events, operation.Drives)
    (drives' : ∀ operation ∈ others, operation.Drives)
    (alike : m.course events = n.course others)
    (unread : m.Along IgnoresDelay events) :
    (m.run events).timeless = (n.run others).timeless ∧
      (m.run events).timeless = (m.run (m.course events)).timeless ∧
      m.course (m.course events) = m.course events := by
  obtain ⟨comes, plain, -⟩ := run_course same drives unread
  rw [alike] at comes plain
  -- The course is common to both runs, so the other one does not read the timer either.
  have unread' := unread_of_course rfl drives' plain
  obtain ⟨comes', -, -⟩ := run_course rfl drives' unread'
  obtain ⟨stepped, -, whole⟩ := run_course rfl drives unread
  exact ⟨comes.trans comes'.symm, stepped, whole⟩

/-- A program that sets the delay timer, waits for a key press and then counts, on a machine
that was just loaded and on one with another delay, each told other times: they differ in the
delay timer in the end, and in no other way that is not about time. -/
theorem time_leaves_no_trace_wait :
    let program := [0x61, 0x05, 0xF1, 0x15, 0xF2, 0x0A, 0x73, 0x01, 0x12, 0x06]
    let m := (create .standard 0).machine.run [.load program]
    let n := (m.apply (.edit (.setDelay 9))).machine.latch 1000
    let events : List Operation :=
      [.tick 0, .tick 4, .tick 8, .tick 12, .tick 30, .pressKey 7, .tick 34, .tick 38]
    let others : List Operation :=
      [.tick 990, .tick 1004, .tick 1100, .tick 1300, .pressKey 7, .tick 1400, .tick 1350,
        .tick 1404]
    let course : List Operation := [.step, .step, .step, .pressKey 7, .step, .step]
    (m.run events).timeless = (n.run others).timeless ∧
      (m.run events).timeless = (m.run course).timeless ∧
      (m.run events).processor.delay ≠ (n.run others).processor.delay := by
  intro program m n events others course
  have drives : ∀ operation ∈ events, operation.Drives := by
    simp only [events, List.forall_mem_cons]
    exact ⟨.tick _, .tick _, .tick _, .tick _, .tick _, .pressKey _, .tick _, .tick _,
      List.forall_mem_nil _⟩
  have drives' : ∀ operation ∈ others, operation.Drives := by
    simp only [others, List.forall_mem_cons]
    exact ⟨.tick _, .tick _, .tick _, .tick _, .pressKey _, .tick _, .tick _, .tick _,
      List.forall_mem_nil _⟩
  have same : m.timeless = n.timeless :=
    ((timeless_latch _ 1000).trans (m.timeless_setDelay 9)).symm
  have first : m.course events = course := by decide +kernel
  have second : n.course others = course := by decide +kernel
  have unread : m.Along IgnoresDelay events := by decide +kernel
  obtain ⟨alike, stepped, -⟩ :=
    time_leaves_no_trace same drives drives' (first.trans second.symm) unread
  rw [first] at stepped
  exact ⟨alike, stepped, by decide +kernel⟩

end Machine

end Chip8
