import Chip8.Proofs.Halted

/-!
# Time

What a machine does when it is told the time. `Chip8.Machine.TickEffect` lists the five ways
in which this can go, with everything there is to say about each, and all other statements
about times start from there (`Chip8.Machine.tick_effect`).

A time that is reported has a word executed, if one is due (`Chip8.Machine.isDue`), and the
timers counted down, if they are due (`Chip8.Machine.countsDown`); and for the processor, that
is all it does (`Chip8.Machine.processor_tick`). No other operation touches the gates, until
one starts the machine over (`Chip8.Operation.Restarts`); then the machine is at its start
(`Chip8.Machine.Starts`), like a new one.
-/

namespace Chip8

/-! ### Times and restarts -/

namespace Operation

/-- The time that an operation reports, if it reports one. -/
def time? : Operation → Option Nat
  | .tick now => some now
  | _ => none

/-- The times that operations report, in their order. -/
def times (operations : List Operation) : List Nat := operations.filterMap time?

/-- The operations that start a machine over. -/
inductive Restarts : Operation → Prop
  /-- A reset does. -/
  | reset : Restarts .reset
  /-- Loading a program does, if it succeeds. -/
  | loads {operation : Operation} {program : List UInt8}
      (h : operation.loading? = some (.ok program)) : Restarts operation

theorem restarts_iff {operation : Operation} :
    operation.Restarts ↔ operation = .reset ∨ operation.loading?.any Except.isOk = true := by
  constructor
  · intro restarts
    cases restarts with
    | reset => exact Or.inl rfl
    | loads loads => exact Or.inr (by rw [loads]; rfl)
  · rintro (rfl | succeeds)
    · exact .reset
    · obtain ⟨outcome, loads, ok⟩ := (Option.any_eq_true ..).mp succeeds
      cases outcome with
      | ok program => exact .loads loads
      | error cause => contradiction

instance (operation : Operation) : Decidable operation.Restarts :=
  decidable_of_iff _ restarts_iff.symm

/-- What goes on with a machine does not start it over. -/
theorem Continues.not_restarts {operation : Operation} (continues : operation.Continues) :
    ¬operation.Restarts := by
  intro restarts
  cases restarts with
  | reset =>
    cases continues with
    | drives drives => cases drives
    | loadsNothing loads => cases loads
  | loads loads =>
    cases continues with
    | drives drives => cases drives <;> cases loads
    | markPainted | takeRepaint => cases loads
    | loadsNothing loadsNothing =>
      rw [loads] at loadsNothing
      cases loadsNothing

theorem eq_tick_or_untimed (operation : Operation) :
    (∃ now, operation = .tick now) ∨ operation.time? = none := by
  cases operation with
  | tick now => exact Or.inl ⟨now, rfl⟩
  | _ => exact Or.inr rfl

theorem times_tick_cons (now : Nat) (operations : List Operation) :
    times (.tick now :: operations) = now :: times operations := rfl

theorem times_cons_of_untimed {operation : Operation} (untimed : operation.time? = none)
    (operations : List Operation) : times (operation :: operations) = times operations :=
  List.filterMap_cons_none untimed

end Operation

/-- A countdown takes one from both timers, unless they are at zero, and touches nothing
else. -/
theorem Processor.countDown_spec (p : Processor) :
    p.countDown.delay.toNat = p.delay.toNat - 1 ∧ p.countDown.sound.toNat = p.sound.toNat - 1 ∧
      p.countDown = { p with delay := p.countDown.delay, sound := p.countDown.sound } := by
  have lowered (timer : UInt8) : (if timer = 0 then 0 else timer - 1).toNat = timer.toNat - 1 := by
    split
    case isTrue zero =>
      rw [zero]
      rfl
    case isFalse running =>
      have positive : timer.toNat ≠ 0 := fun zero => running (UInt8.toNat.inj zero)
      exact UInt8.toNat_sub_of_le timer 1 (Nat.one_le_iff_ne_zero.mpr positive)
  exact ⟨lowered p.delay, lowered p.sound, rfl⟩

namespace Machine

variable {m n : Machine} {operation : Operation} {now : Nat} {fault : Fault}

/-! ### Operations that report no time -/

/-- To load a program without starting over is to fail. -/
theorem machine_apply_of_loading {outcome : Except LoadError (List UInt8)}
    (h : operation.loading? = some outcome) (goesOn : ¬operation.Restarts) :
    (m.apply operation).machine = m := by
  cases outcome with
  | ok program => exact absurd (.loads h) goesOn
  | error cause => exact machine_apply_of_loadsNothing h

/-- An instruction touches the processor and the random bytes. -/
theorem perform_frame {i : Instruction} {result : Except FaultKind Flow}
    (h : m.perform i = (result, n)) :
    n = { m with processor := n.processor, random := n.random } := by
  have same : (m.perform i).2 =
      { m with processor := (m.perform i).2.processor, random := (m.perform i).2.random } := rfl
  rw [h] at same
  exact same

/-- The execution of a word touches no gate. -/
theorem gates_execute (m : Machine) (word : UInt16) :
    (m.execute word).machine.clock = m.clock ∧ (m.execute word).machine.timer = m.timer := by
  by_cases ready : m.IsReady
  · rw [execute_of_isReady ready]
    rcases dispatch_cases m word with
      ⟨kind, emitted, -, halted⟩ | ⟨i, flow, n, -, performed, done⟩
    · rw [halted]
      exact ⟨rfl, rfl⟩
    · rw [done, perform_frame performed]
      exact ⟨rfl, rfl⟩
  · rw [machine_execute_of_not_isReady ready]
    exact ⟨rfl, rfl⟩

/-- **Only times and restarts touch the gates.** -/
theorem gates_apply (goesOn : ¬operation.Restarts) (untimed : operation.time? = none) :
    (m.apply operation).machine.clock = m.clock ∧
      (m.apply operation).machine.timer = m.timer := by
  cases operation with
  | reset => exact absurd .reset goesOn
  | tick now => contradiction
  | load _ | loadFrom _ | loadFile _ _ =>
    rw [machine_apply_of_loading rfl goesOn]
    exact ⟨rfl, rfl⟩
  | step => exact gates_execute m _
  | execute word => exact gates_execute m word
  | _ => exact ⟨rfl, rfl⟩

/-- So the gates are left alone as long as no time is told. -/
theorem gates_run {operations : List Operation}
    (goesOn : ∀ operation ∈ operations, ¬operation.Restarts)
    (untimed : ∀ operation ∈ operations, operation.time? = none) :
    (m.run operations).clock = m.clock ∧ (m.run operations).timer = m.timer := by
  have both : ∀ operation ∈ operations, ¬operation.Restarts ∧ operation.time? = none :=
    fun operation member => ⟨goesOn operation member, untimed operation member⟩
  refine run_induction (I := fun k => k.clock = m.clock ∧ k.timer = m.timer) ?_ operations both
    ⟨rfl, rfl⟩
  rintro k operation ⟨goesOn, untimed⟩ ⟨clock, timer⟩
  obtain ⟨clock', timer'⟩ := gates_apply (m := k) goesOn untimed
  exact ⟨clock'.trans clock, timer'.trans timer⟩

/-- A fault stays until the machine is started over. -/
theorem fault_apply_of_halted (stopped : m.fault = some fault) (goesOn : ¬operation.Restarts) :
    (m.apply operation).machine.fault = some fault := by
  cases operation with
  | reset => exact absurd .reset goesOn
  | load _ | loadFrom _ | loadFile _ _ =>
    rw [machine_apply_of_loading rfl goesOn]
    exact stopped
  | step =>
    rw [apply_of_executes stopped .step]
    exact stopped
  | execute word =>
    rw [apply_of_executes stopped (.execute word)]
    exact stopped
  | tick now =>
    rw [apply_of_executes stopped (.tick now)]
    exact stopped
  | _ => exact stopped

/-! ### Machines at their start -/

/-- A machine at its start. -/
inductive Starts : Machine → Prop where
  /-- A new machine is. -/
  | new (settings : Settings) (entropy : UInt64) : Starts (create settings entropy).machine
  /-- So is a machine that was started over. -/
  | again {m : Machine} {operation : Operation} (reachable : m.Reachable)
      (restarts : operation.Restarts) : Starts (m.apply operation).machine

namespace Starts

/-- A machine at its start is like a new one, except that there may be a program in memory. -/
theorem exists_memory (starts : n.Starts) :
    ∃ memory, n = { (create n.settings n.entropy).machine with
      processor := { Processor.powerOn with memory } } := by
  cases starts with
  | new settings entropy => exact ⟨.withFont, rfl⟩
  | @again m operation reachable restarts =>
    have anew := reachable.reset_eq_create
    cases restarts with
    | reset =>
      have reset : (m.apply .reset).machine = m.reset.machine := rfl
      rw [reset, anew]
      exact ⟨.withFont, rfl⟩
    | @loads operation program loads =>
      obtain ⟨-, loaded⟩ := (m.apply_of_loading loads).of_ok
      rw [loaded, anew]
      exact ⟨Memory.withFont.loadProgram program, rfl⟩

/-- Its gates hold no time, -/
theorem gates (starts : n.Starts) :
    n.clock = .ofInterval n.settings.interval ∧ n.timer = .ofInterval timerInterval := by
  obtain ⟨memory, same⟩ := starts.exists_memory
  constructor
  · exact congrArg clock same
  · exact congrArg timer same

/-- it has drawn no random byte, -/
theorem random (starts : n.Starts) {seed : UInt64} (seeded : n.settings.seed = some seed) :
    n.random = .ofSeed seed := by
  obtain ⟨memory, same⟩ := starts.exists_memory
  have drawn : n.random = .ofSeed (n.settings.seed.getD n.entropy) := congrArg Machine.random same
  rw [drawn, seeded, Option.getD_some]

/-- and it can execute something. -/
theorem isReady (starts : n.Starts) : n.IsReady := by
  obtain ⟨memory, same⟩ := starts.exists_memory
  constructor
  · exact congrArg fault same
  · exact congrArg (·.processor.awaiting) same

end Starts

/-- After a machine was started over, its gates hold no time. -/
theorem gates_apply_of_restarts (reachable : m.Reachable) (restarts : operation.Restarts) :
    (m.apply operation).machine.clock = .ofInterval m.settings.interval ∧
      (m.apply operation).machine.timer = .ofInterval timerInterval := by
  have starts : (m.apply operation).machine.Starts := .again reachable restarts
  rw [← (SameDevice.apply m operation).settings]
  exact starts.gates

/-! ### Runs that no fault stops -/

/-- A run that ends without a fault began without one. -/
theorem unstopped_of_run {operations : List Operation}
    (goesOn : ∀ operation ∈ operations, ¬operation.Restarts)
    (ends : (m.run operations).fault = none) : m.fault = none := by
  rcases Option.eq_none_or_eq_some m.fault with hf | ⟨fault, hf⟩
  · exact hf
  · have kept : (m.run operations).fault = some fault :=
      run_induction (I := fun m => m.fault = some fault)
        (fun _ _ goesOn stopped => fault_apply_of_halted stopped goesOn) operations goesOn hf
    rw [ends] at kept
    contradiction

/-- On a run that ends without a fault, there is none on the way. -/
theorem along_unstopped {operations : List Operation}
    (goesOn : ∀ operation ∈ operations, ¬operation.Restarts)
    (ends : (m.run operations).fault = none) :
    m.Along (fun n operation => n.fault = none ∧ (n.apply operation).machine.fault = none)
      operations := by
  induction operations generalizing m with
  | nil => trivial
  | cons operation operations ih =>
    have begun := unstopped_of_run goesOn ends
    rw [List.forall_mem_cons] at goesOn
    exact ⟨⟨begun, unstopped_of_run goesOn.2 ends⟩, ih goesOn.2 ends⟩

/-! ### What a time does -/

/-- A time that is reported to the gate of the timers has them counted down when it fires, and
does nothing else. -/
theorem tickTimers_eq (m : Machine) (now : Nat) :
    m.tickTimers now =
      { m with
        timer := (m.timer.poll now).2
        processor := if (m.timer.poll now).1 then m.processor.countDown else m.processor } := by
  simp only [tickTimers]
  split <;> rfl

/-- What can become of a time that is reported to a machine. -/
inductive TickEffect (m : Machine) (now : Nat) : Response (Except Fault Flow) → Prop where
  /-- A machine that was stopped refuses it. -/
  | halted {fault : Fault} (stopped : m.fault = some fault) :
      TickEffect m now ⟨.error fault, m, []⟩
  /-- A machine on which a register waits for a key press notes it. -/
  | blocked {x : Register} (unstopped : m.fault = none)
      (waits : m.processor.awaiting = some x) :
      TickEffect m now
        ⟨.ok .idle, { m with clock := m.clock.arm now }.tickTimers now, []⟩
  /-- No instruction is due. -/
  | idle (ready : m.IsReady) (silent : (m.clock.poll now).1 = false) :
      TickEffect m now
        ⟨.ok .idle, { m with clock := (m.clock.poll now).2 }.tickTimers now, []⟩
  /-- The word at the program counter is due, and refused. The timers are not reached. -/
  | refused (ready : m.IsReady) (fires : (m.clock.poll now).1 = true) {fault : Fault}
      {emitted : List Diagnostic}
      (halted : m.dispatch m.processor.fetch = m.halt fault emitted) :
      TickEffect m now ((m.latch now).halt fault emitted)
  /-- The word at the program counter is due, and its instruction performed. -/
  | performed (ready : m.IsReady) (fires : (m.clock.poll now).1 = true) {i : Instruction}
      {flow : Flow} {n : Machine} (performed : m.perform i = (.ok flow, n))
      (done : m.dispatch m.processor.fetch = ⟨.ok flow, n, [m.traceOf i]⟩) :
      TickEffect m now ⟨.ok flow, (n.latch now).tickTimers now, [m.traceOf i]⟩

/-- The time that the gate of the instructions holds has no bearing on what is performed, -/
theorem perform_latch (m : Machine) (now : Nat) (i : Instruction) :
    (m.latch now).perform i = ((m.perform i).1, (m.perform i).2.latch now) := rfl

/-- nor on what is refused. -/
theorem dispatch_latch (m : Machine) (now : Nat) (word : UInt16) :
    (m.latch now).dispatch word =
      { m.dispatch word with machine := (m.dispatch word).machine.latch now } := by
  unfold dispatch
  cases Instruction.decode word with
  | none => rfl
  | some i =>
    simp only [perform_latch]
    rcases m.perform i with ⟨kind | flow, n⟩
    · rfl
    · rfl

/-- **What becomes of a time that is reported to a machine.** -/
theorem tick_effect (m : Machine) (now : Nat) : m.TickEffect now (m.tick now) := by
  rcases Option.eq_none_or_eq_some m.fault with hf | ⟨fault, hf⟩
  · rw [tick_of_unstopped hf]
    rcases Option.eq_none_or_eq_some m.processor.awaiting with hw | ⟨x, hw⟩
    · have ready : m.IsReady := ⟨hf, hw⟩
      cases hp : (m.clock.poll now).1 with
      | false =>
        rw [tickClock_of_silent ready hp]
        exact .idle ready hp
      | true =>
        rw [tickClock_of_fires ready hp, execute_of_isReady (ready.latch now), dispatch_latch]
        rcases dispatch_cases m m.processor.fetch with
          ⟨kind, emitted, -, halted⟩ | ⟨i, flow, n, -, performed, done⟩
        · rw [halted]
          exact .refused ready hp halted
        · rw [done]
          exact .performed ready hp performed done
    · rw [tickClock_of_awaiting hw]
      exact .blocked hf hw
  · rw [tick_of_fault hf]
    exact .halted hf

/-! ### What is due -/

/-- Whether a time has a word executed. -/
def isDue (m : Machine) (now : Nat) : Bool := (m.dispatched? (.tick now)).isSome

/-- Whether a time has the timers counted down: their gate fires, and nothing fails before it
is asked. -/
def countsDown (m : Machine) (now : Nat) : Bool :=
  (m.tick now).answer.isOk && (m.timer.poll now).1

/-- The processor after the word that a time has executed, if it has one executed. -/
def afterDue (m : Machine) (now : Nat) : Processor :=
  (m.dispatched? (.tick now)).elim m.processor fun word => (m.dispatch word).machine.processor

theorem not_isReady_of_fault (stopped : m.fault = some fault) : ¬m.IsReady := by
  intro ready
  rw [ready.unstopped] at stopped
  contradiction

theorem not_isReady_of_awaiting {x : Register} (waits : m.processor.awaiting = some x) :
    ¬m.IsReady := by
  intro ready
  rw [ready.unblocked] at waits
  contradiction

theorem dispatched?_tick_of_fires (ready : m.IsReady) (fires : (m.clock.poll now).1 = true) :
    m.dispatched? (.tick now) = some m.processor.fetch :=
  if_pos ⟨ready, fires⟩

theorem dispatched?_tick_of_silent (silent : (m.clock.poll now).1 = false) :
    m.dispatched? (.tick now) = none := by
  simp [dispatched?, silent]

theorem dispatched?_tick_of_not_isReady (blocked : ¬m.IsReady) :
    m.dispatched? (.tick now) = none := by
  simp [dispatched?, blocked]

theorem isDue_of_not_isReady (blocked : ¬m.IsReady) : m.isDue now = false := by
  rw [isDue, dispatched?_tick_of_not_isReady blocked, Option.isSome_none]

/-- A word is due when the gate of the instructions fires, on a machine that is ready. -/
theorem isDue_of_isReady (ready : m.IsReady) : m.isDue now = (m.clock.poll now).1 := by
  cases fires : (m.clock.poll now).1 with
  | false => rw [isDue, dispatched?_tick_of_silent fires, Option.isSome_none]
  | true => rw [isDue, dispatched?_tick_of_fires ready fires, Option.isSome_some]

/-- **When a word is due, it is executed.** The answer is that of the word at the program counter,
and the machine is as the word leaves it, with the time held by the gate of the instructions; but
unless the word is refused, the time is reported to the timers after it. -/
theorem response_tick_of_due (due : m.isDue now = true) :
    let r := m.dispatch m.processor.fetch
    (m.apply (.tick now)).answer = .ofExecution r.answer ∧
      (m.apply (.tick now)).emitted = r.emitted ∧
      (∀ fault, r.answer = .error fault →
        (m.apply (.tick now)).machine = r.machine.latch now) ∧
      ∀ flow, r.answer = .ok flow →
        (m.apply (.tick now)).machine = (r.machine.latch now).tickTimers now := by
  have effect := m.tick_effect now
  simp only [apply, Response.map]
  generalize m.tick now = r at effect ⊢
  cases effect with
  | halted stopped =>
    rw [isDue_of_not_isReady (not_isReady_of_fault stopped)] at due
    contradiction
  | blocked unstopped waits =>
    rw [isDue_of_not_isReady (not_isReady_of_awaiting waits)] at due
    contradiction
  | idle ready silent =>
    rw [isDue_of_isReady ready, silent] at due
    contradiction
  | refused ready fires halted =>
    rw [halted]
    exact ⟨rfl, rfl, fun _ _ => rfl, fun _ done => by contradiction⟩
  | performed ready fires performed done =>
    rw [done]
    exact ⟨rfl, rfl, fun _ refused => by contradiction, fun _ _ => rfl⟩

/-- Otherwise there is nothing to tell, unless the machine was stopped. -/
theorem response_tick_of_not_due (unstopped : m.fault = none) (early : m.isDue now = false) :
    (m.apply (.tick now)).answer = .flow .idle ∧ (m.apply (.tick now)).emitted = [] := by
  have effect := m.tick_effect now
  simp only [apply, Response.map]
  generalize m.tick now = r at effect ⊢
  cases effect with
  | halted stopped =>
    rw [unstopped] at stopped
    contradiction
  | blocked _ _ | idle _ _ => exact ⟨rfl, rfl⟩
  | refused ready fires halted | performed ready fires performed done =>
    rw [isDue_of_isReady ready, fires] at early
    contradiction

/-- **A time does two things to a processor at most**: the word at the program counter is
executed once, if it is due, and the timers are counted down once after it, if they are due. -/
theorem processor_tick (m : Machine) (now : Nat) :
    (m.tick now).machine.processor =
      if m.countsDown now then (m.afterDue now).countDown else m.afterDue now := by
  have effect := m.tick_effect now
  unfold countsDown afterDue
  generalize m.tick now = r at effect ⊢
  cases effect with
  | halted stopped =>
    rw [dispatched?_tick_of_not_isReady (not_isReady_of_fault stopped)]
    rfl
  | blocked unstopped waits =>
    rw [dispatched?_tick_of_not_isReady (not_isReady_of_awaiting waits), tickTimers_eq]
    rfl
  | idle ready silent =>
    rw [dispatched?_tick_of_silent silent, tickTimers_eq]
    rfl
  | refused ready fires halted =>
    rw [dispatched?_tick_of_fires ready fires, Option.elim_some, halted]
    rfl
  | @performed ready fires i flow n performed done =>
    rw [dispatched?_tick_of_fires ready fires, Option.elim_some, done]
    rw [tickTimers_eq, perform_frame performed]
    rfl

/-! ### What becomes of the gates -/

/-- A time is reported to the gate of the instructions on a machine that is ready, -/
theorem clock_tick_of_isReady (ready : m.IsReady) :
    (m.tick now).machine.clock = (m.clock.poll now).2 := by
  have effect := m.tick_effect now
  generalize m.tick now = r at effect ⊢
  cases effect with
  | halted stopped => exact absurd ready (not_isReady_of_fault stopped)
  | blocked unstopped waits => exact absurd ready (not_isReady_of_awaiting waits)
  | idle ready silent => rw [tickTimers_eq]
  | refused ready fires halted =>
    rw [Gate.poll_of_fires fires]
    rfl
  | performed ready fires performed done =>
    rw [Gate.poll_of_fires fires, tickTimers_eq, perform_frame performed]
    rfl

/-- and it is only noted while a register waits for a key press. -/
theorem clock_tick_of_awaiting (unstopped : m.fault = none) {x : Register}
    (waits : m.processor.awaiting = some x) :
    (m.tick now).machine.clock = m.clock.arm now := by
  rw [tick_of_unstopped unstopped, tickClock_of_awaiting waits, tickTimers_eq]

/-- A time at which nothing fails is reported to the gate of the timers. -/
theorem timer_tick_of_unstopped (unstopped : (m.tick now).machine.fault = none) :
    m.countsDown now = (m.timer.poll now).1 ∧
      (m.tick now).machine.timer = (m.timer.poll now).2 := by
  have effect := m.tick_effect now
  unfold countsDown
  generalize m.tick now = r at effect unstopped ⊢
  cases effect with
  | halted stopped =>
    rw [stopped] at unstopped
    contradiction
  | blocked _ _ | idle _ _ =>
    rw [tickTimers_eq]
    exact ⟨Bool.true_and _, rfl⟩
  | refused ready fires halted => contradiction
  | performed ready fires performed done =>
    rw [tickTimers_eq, perform_frame performed]
    exact ⟨Bool.true_and _, rfl⟩

/-- After a fault, the timers are not reached any more. -/
theorem timer_tick_of_fault (stopped : (m.tick now).machine.fault = some fault) :
    m.countsDown now = false ∧ (m.tick now).machine.timer = m.timer := by
  have effect := m.tick_effect now
  unfold countsDown
  generalize m.tick now = r at effect stopped ⊢
  cases effect with
  | halted _ | refused _ _ _ => exact ⟨rfl, rfl⟩
  | blocked unstopped waits =>
    rw [tickTimers_eq] at stopped
    exact absurd (unstopped.symm.trans stopped) nofun
  | idle ready silent =>
    rw [tickTimers_eq] at stopped
    exact absurd (ready.unstopped.symm.trans stopped) nofun
  | performed ready fires performed done =>
    rw [tickTimers_eq, perform_frame performed] at stopped
    exact absurd (ready.unstopped.symm.trans stopped) nofun

/-! ### Questions asked at every time -/

/-- The answers to a question that is asked at the times that operations report, one for each
time and before anything is done at it. -/
def atTimes (ask : Machine → Nat → Bool) : Machine → List Operation → List Bool
  | _, [] => []
  | m, operation :: operations =>
    (operation.time?.map (ask m)).toList ++ atTimes ask (m.apply operation).machine operations

theorem atTimes_tick_cons (ask : Machine → Nat → Bool) (m : Machine) (now : Nat)
    (operations : List Operation) :
    m.atTimes ask (.tick now :: operations) =
      ask m now :: (m.apply (.tick now)).machine.atTimes ask operations := rfl

theorem atTimes_cons_of_untimed (ask : Machine → Nat → Bool) (untimed : operation.time? = none)
    (operations : List Operation) :
    m.atTimes ask (operation :: operations) =
      (m.apply operation).machine.atTimes ask operations := by
  rw [atTimes, untimed]
  rfl

end Machine

end Chip8
