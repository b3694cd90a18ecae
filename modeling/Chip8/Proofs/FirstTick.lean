import Chip8.Proofs.Pace

/-!
# The first time

A machine at its start has not been told the time, and the first time it is told is only taken
down. The main statement is `Chip8.Machine.first_tick`: this time sets both gates going and does
nothing else, whatever was done to the machine before and whether or not it waits for a key
press; and from then on, the gate of the instructions counts from it, until a word is due for the
first time. That gate is not asked while a register waits, so it makes no difference when the
wait ends.

That both gates are set going together is true of the whole course of a machine
(`Chip8.Machine.Reachable.latched_together`), although they are told the time at different
places and a fault keeps a time from the second one: a fault needs a gate that holds a time
already.
-/

namespace Chip8

/-! ### Gates that hold a time -/

namespace Gate

variable {g : Gate} {now : Nat}

theorem isSome_since_arm (g : Gate) (now : Nat) : (g.arm now).since.isSome = true := by
  rcases held : g.since with _ | since
  · simp only [arm, held, Option.isSome_some]
  · simp only [arm, held, Option.isSome_some]

theorem isSome_since_poll (g : Gate) (now : Nat) : (g.poll now).2.since.isSome = true := by
  rcases held : g.since with _ | since
  · rw [poll_of_free held, Option.isSome_some]
  · rcases Nat.lt_or_ge (since + g.interval) now with due | early
    · rw [poll_of_due held due, Option.isSome_some]
    · rw [poll_of_early held early, held, Option.isSome_some]

/-- A gate that fires holds a time already. -/
theorem isSome_since_of_fires (fires : (g.poll now).1 = true) : g.since.isSome = true := by
  rcases held : g.since with _ | since
  · rw [poll_of_free held] at fires
    contradiction
  · rfl

end Gate

namespace Machine

variable {m n : Machine} {operation : Operation} {operations : List Operation} {now : Nat}

/-! ### Both gates hold a time, or neither -/

/-- Both gates of the machine hold a time, or neither does. -/
def LatchedTogether (m : Machine) : Prop := m.clock.since.isSome = m.timer.since.isSome

/-- A time keeps the gates together: a fault that keeps it from the second one needs a first
one that holds a time already. -/
theorem LatchedTogether.tick (h : m.LatchedTogether) (now : Nat) :
    (m.tick now).machine.LatchedTogether := by
  have effect := m.tick_effect now
  unfold LatchedTogether
  generalize m.tick now = r at effect ⊢
  cases effect with
  | halted stopped => exact h
  | blocked unstopped waits =>
    rw [tickTimers_eq]
    exact (m.clock.isSome_since_arm now).trans (m.timer.isSome_since_poll now).symm
  | idle ready silent =>
    rw [tickTimers_eq]
    exact (m.clock.isSome_since_poll now).trans (m.timer.isSome_since_poll now).symm
  | refused ready fires halted =>
    -- The time is kept from the timers here, but their gate holds one from before.
    exact (Gate.isSome_since_of_fires fires).symm.trans h
  | performed ready fires performed done =>
    rw [tickTimers_eq, perform_frame performed]
    exact (m.timer.isSome_since_poll now).symm

theorem LatchedTogether.apply (h : m.LatchedTogether) (operation : Operation) :
    (m.apply operation).machine.LatchedTogether := by
  by_cases restarts : operation.Restarts
  · cases restarts with
    | reset => rfl
    | loads loads =>
      obtain ⟨-, loaded⟩ := (m.apply_of_loading loads).of_ok
      rw [loaded]
      rfl
  · rcases operation.eq_tick_or_untimed with ⟨now, rfl⟩ | untimed
    · exact h.tick now
    · obtain ⟨clock, timer⟩ := gates_apply (m := m) restarts untimed
      rw [LatchedTogether, clock, timer]
      exact h

/-- **All machines that can come about have both gates set going, or neither.** -/
theorem Reachable.latched_together (reachable : m.Reachable) : m.LatchedTogether := by
  obtain ⟨settings, entropy, operations, rfl⟩ := reachable
  exact run_induction (I := LatchedTogether) (fun _ operation (_ : True) h => h.apply operation)
    operations (fun _ _ => trivial) rfl

/-! ### The first time -/

/-- The machine whose gates both hold a time. -/
def latchBoth (m : Machine) (now : Nat) : Machine :=
  { m with
    clock := { m.clock with since := some now }
    timer := { m.timer with since := some now } }

/-- **A first time is taken down by both gates**, and nothing else happens. -/
theorem tick_of_free (unstopped : m.fault = none) (clock : m.clock.since = none)
    (timer : m.timer.since = none) (now : Nat) :
    m.tick now = ⟨.ok .idle, m.latchBoth now, []⟩ := by
  have effect := m.tick_effect now
  have polled := Gate.poll_of_free clock now
  have counted := Gate.poll_of_free timer now
  generalize m.tick now = r at effect ⊢
  cases effect with
  | halted stopped =>
    rw [unstopped] at stopped
    contradiction
  | blocked _ waits =>
    rw [tickTimers_eq]
    simp only [Gate.arm, clock, counted]
    rfl
  | idle ready silent =>
    rw [tickTimers_eq]
    simp only [polled, counted]
    rfl
  | refused ready fires halted =>
    rw [polled] at fires
    contradiction
  | performed ready fires performed done =>
    rw [polled] at fires
    contradiction

/-! ### The times after it -/

/-- On a machine whose gate holds a time, a word is due when more than the interval has passed
since. -/
theorem isDue_of_since {since : Nat} (held : m.clock.since = some since) (now : Nat) :
    m.isDue now = decide (m.IsReady ∧ since + m.clock.interval < now) := by
  by_cases ready : m.IsReady
  · rcases Nat.lt_or_ge (since + m.clock.interval) now with due | early
    · rw [isDue_of_isReady ready, Gate.poll_of_due held due]
      simp [ready, due]
    · rw [isDue_of_isReady ready, Gate.poll_of_early held early]
      simp [early]
  · rw [isDue_of_not_isReady ready]
    simp [ready]

/-- A time at which no word is due leaves the gate of the instructions alone, if it holds a time
already. -/
theorem clock_tick_of_not_due {since : Nat} (held : m.clock.since = some since)
    (early : m.isDue now = false) : (m.apply (.tick now)).machine.clock = m.clock := by
  rcases paces_clock.of_held held now with ⟨due, -, -⟩ | ⟨-, kept⟩
  · rw [early] at due
    contradiction
  · exact kept

/-- Such a time is reported to the timers, and nothing else becomes of it. -/
theorem tick_of_not_due {since : Nat} (held : m.clock.since = some since)
    (unstopped : m.fault = none) (early : m.isDue now = false) :
    m.apply (.tick now) = ⟨.flow .idle, m.tickTimers now, []⟩ := by
  have effect := m.tick_effect now
  simp only [apply, Response.map]
  generalize m.tick now = r at effect ⊢
  cases effect with
  | halted stopped =>
    rw [unstopped] at stopped
    contradiction
  | blocked _ waits =>
    have kept : m.clock.arm now = m.clock := Gate.Report.armed.of_silent held rfl
    rw [kept]
    rfl
  | idle ready silent =>
    have kept : (m.clock.poll now).2 = m.clock := Gate.Report.polled.of_silent held silent
    rw [kept]
    rfl
  | refused ready fires halted | performed ready fires performed done =>
    rw [isDue_of_isReady ready, fires] at early
    contradiction

/-- **Until more than the interval has passed, no word is due**, and the gate holds on to its
time. Times at which a register waits do not count. -/
theorem run_of_early {since : Nat} (held : m.clock.since = some since)
    (goesOn : ∀ operation ∈ operations, ¬operation.Restarts)
    (early : m.Along (fun k operation =>
      k.IsReady → ∀ now ∈ operation.time?, now ≤ since + m.clock.interval) operations) :
    (m.run operations).clock = m.clock ∧ true ∉ m.atTimes isDue operations := by
  generalize gate : m.clock = clock at held early ⊢
  induction operations generalizing m with
  | nil => exact ⟨gate, List.not_mem_nil⟩
  | cons operation operations ih =>
    rw [List.forall_mem_cons] at goesOn
    obtain ⟨first, early⟩ := early
    rcases operation.eq_tick_or_untimed with ⟨now, rfl⟩ | untimed
    · have silent : m.isDue now = false := by
        rw [isDue_of_since (by rw [gate, held]), gate, decide_eq_false_iff_not]
        rintro ⟨ready, late⟩
        have soon := first ready now rfl
        omega
      have kept : (m.apply (.tick now)).machine.clock = clock :=
        (clock_tick_of_not_due (by rw [gate, held]) silent).trans gate
      obtain ⟨latched, never⟩ := ih goesOn.2 kept early
      rw [atTimes_tick_cons, silent]
      exact ⟨latched, List.not_mem_cons_of_ne_of_not_mem nofun never⟩
    · have kept := (gates_apply (m := m) goesOn.1 untimed).1.trans gate
      rw [atTimes_cons_of_untimed isDue untimed]
      exact ih goesOn.2 kept early

/-- **The first time sets both gates going, and does nothing else.** Both gates of a machine hold
a time or neither does, whatever was done to it; on a machine that was stopped, a time does
nothing. Take a machine at its start, and anything that is done to it without starting it over or
telling it the time, which may leave it waiting for a key press. If nothing stopped it, the first
time leaves everything as it is, except that both gates hold this time now. Go on with it in any
way, but whenever it is ready, tell it no time that exceeds the first one by more than the
interval. No word is due until then; and at the next time, a word is due exactly if the machine
is ready and that much has passed since the first time, however recently it became ready. If it is
due, the word at the program counter is executed: the answer, the lines and the machine are those
of the word, with the time held by the gate of the instructions, and the timers are reached after
it unless it is refused. If no word is due, the timers are all that the time reaches. To reach
them is to ask their gate, which has both of them counted down if it fires. -/
theorem first_tick (starts : n.Starts) {before : List Operation}
    (goesOn : ∀ operation ∈ before, ¬operation.Restarts)
    (untimed : ∀ operation ∈ before, operation.time? = none)
    (unstopped : (n.run before).fault = none) (first : Nat) :
    let interval := n.settings.interval
    let r := n.run before
    let s := r.latchBoth first
    (∀ k : Machine, k.Reachable → (k.clock.since.isSome ↔ k.timer.since.isSome)) ∧
    (∀ (k : Machine) fault now, k.fault = some fault →
      k.apply (.tick now) = ⟨.failed (.halted fault), k, []⟩) ∧
    r.apply (.tick first) = ⟨.flow .idle, s, []⟩ ∧
    (∀ later : List Operation, (∀ operation ∈ later, ¬operation.Restarts) →
      s.Along (fun k operation =>
        k.IsReady → ∀ now ∈ operation.time?, now ≤ first + interval) later →
      let k := s.run later
      let executed := k.dispatch k.processor.fetch
      true ∉ s.atTimes isDue later ∧
      ∀ now, k.isDue now = decide (k.IsReady ∧ first + interval < now) ∧
        (k.isDue now = true →
          (k.apply (.tick now)).answer = .ofExecution executed.answer ∧
          (k.apply (.tick now)).emitted = executed.emitted ∧
          (∀ fault, executed.answer = .error fault →
            (k.apply (.tick now)).machine = executed.machine.latch now) ∧
          ∀ flow, executed.answer = .ok flow →
            (k.apply (.tick now)).machine = (executed.machine.latch now).tickTimers now) ∧
        (k.isDue now = false → k.fault = none →
          k.apply (.tick now) = ⟨.flow .idle, k.tickTimers now, []⟩)) ∧
    (∀ (k : Machine) now, k.tickTimers now =
      { k with
        timer := (k.timer.poll now).2
        processor := if (k.timer.poll now).1 then k.processor.countDown else k.processor }) ∧
    ∀ p : Processor, p.countDown.delay.toNat = p.delay.toNat - 1 ∧
      p.countDown.sound.toNat = p.sound.toNat - 1 ∧
      p.countDown = { p with delay := p.countDown.delay, sound := p.countDown.sound } := by
  intro interval r s
  have together (k : Machine) (reachable : k.Reachable) :
      k.clock.since.isSome ↔ k.timer.since.isSome := by
    rw [reachable.latched_together]
  have refuses (k : Machine) (fault : Fault) (now : Nat) (stopped : k.fault = some fault) :
      k.apply (.tick now) = ⟨.failed (.halted fault), k, []⟩ :=
    apply_of_executes stopped (.tick now)
  obtain ⟨clock, timer⟩ := gates_run goesOn untimed
  rw [starts.gates.1] at clock
  rw [starts.gates.2] at timer
  have ticked : r.apply (.tick first) = ⟨.flow .idle, s, []⟩ := by
    have taken := tick_of_free unstopped (by rw [clock]; rfl) (by rw [timer]; rfl) first
    simp only [apply, Response.map, r, taken]
    rfl
  refine ⟨together, refuses, ticked, ?_, tickTimers_eq, Processor.countDown_spec⟩
  intro later goesOn' early k executed
  have interval_eq : s.clock.interval = interval := congrArg Gate.interval clock
  obtain ⟨latched, never⟩ := run_of_early (m := s) rfl goesOn' (by rw [interval_eq]; exact early)
  have held : k.clock.since = some first := by
    rw [latched]
    rfl
  refine ⟨never, fun now => ⟨?_, response_tick_of_due, fun silent unstopped =>
    tick_of_not_due held unstopped silent⟩⟩
  rw [isDue_of_since held, latched, interval_eq]

/-- A program that waits for a key press does so before the first time. It is told five, then a
hundred, which is too late for nothing as long as it waits, then a key is pressed; eight is still
too early for the next word, and nine is not: the machine jumps back to where it started, and nine
is held in the place of five. -/
theorem first_tick_blocked :
    let n := ((create .standard 0).machine.apply (.load [0xF3, 0x0A, 0x12, 0x00])).machine
    let r := n.run [.step]
    let s := r.latchBoth 5
    let later : List Operation := [.tick 100, .pressKey 2, .tick 8]
    r.processor.awaiting = some 3 ∧ r.apply (.tick 5) = ⟨.flow .idle, s, []⟩ ∧
      true ∉ s.atTimes isDue later ∧ (s.run later).processor.pc = 0x202 ∧
      ((s.run later).apply (.tick 9)).answer = .flow .jump ∧
      ((s.run later).apply (.tick 9)).machine.processor.pc = 0x200 ∧
      ((s.run later).apply (.tick 9)).machine.clock.since = some 9 := by
  intro n r s later
  have starts : n.Starts := .again ⟨.standard, 0, [], rfl⟩ (by decide)
  have waits : r.processor.awaiting = some 3 := by decide +kernel
  have unstopped : r.fault = none := by decide +kernel
  have goesOn : ∀ operation ∈ [Operation.step], ¬operation.Restarts := by decide
  obtain ⟨-, -, ticked, after, timers, -⟩ := first_tick starts goesOn (by decide) unstopped 5
  obtain ⟨never, next⟩ := after later (by decide) (by decide +kernel)
  have due : (s.run later).isDue 9 = true := by decide +kernel
  have jump : ((s.run later).dispatch (s.run later).processor.fetch).answer = .ok .jump := by
    decide +kernel
  obtain ⟨-, executed, -⟩ := next 9
  obtain ⟨answered, -, -, done⟩ := executed due
  rw [jump] at answered
  rw [done .jump jump, timers]
  exact ⟨waits, ticked, never, by decide +kernel, answered, by decide +kernel, by decide +kernel⟩

end Machine

end Chip8
