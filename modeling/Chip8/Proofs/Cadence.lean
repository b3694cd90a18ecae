import Chip8.Proofs.Pace

/-!
# The cadence of the timers

When the timers are counted down depends on the times that a machine is told, and on nothing
else about it. The main statement is `Chip8.Machine.cadence_by_times`, which compares two
machines that have nothing in common but the times: whatever their programs are, and whatever
else is done to them in between, they count down at the same of these times, until a fault stops
one of them.

There is no need to compare the machines with each other. Each of them counts down as a gate
would that hears of these times and of nothing else (`Chip8.Machine.Paces.atTimes_eq_polls`);
what remains is to cut the runs at the operation that stops a machine
(`Chip8.Machine.running`), and to see that what comes after the cut has no bearing on what
comes before it.
-/

namespace Chip8

/-! ### Beginnings of runs -/

namespace Gate

theorem length_polls (g : Gate) (times : List Nat) : (g.polls times).length = times.length := by
  induction times generalizing g with
  | nil => rfl
  | cons now times ih => exact congrArg (· + 1) (ih (g.poll now).2)

/-- What a gate answers does not depend on times that are still to come. -/
theorem polls_append (g : Gate) (times later : List Nat) :
    g.polls (times ++ later) =
      g.polls times ++ (times.foldl (fun g now => (g.poll now).2) g).polls later := by
  induction times generalizing g with
  | nil => rfl
  | cons now times ih => exact congrArg ((g.poll now).1 :: ·) (ih (g.poll now).2)

end Gate

namespace Machine

variable {m n : Machine} {operations events others : List Operation}

/-- What is answered at the times of a run does not depend on operations that are still to
come. -/
theorem atTimes_append (ask : Machine → Nat → Bool) (m : Machine)
    (operations later : List Operation) :
    m.atTimes ask (operations ++ later) =
      m.atTimes ask operations ++ (m.run operations).atTimes ask later := by
  induction operations generalizing m with
  | nil => rfl
  | cons operation operations ih =>
    rw [List.cons_append, atTimes, atTimes, ih, List.append_assoc]
    rfl

/-- The operations of a run before the one that stops the machine. -/
def running : Machine → List Operation → List Operation
  | _, [] => []
  | m, operation :: operations =>
    if (m.apply operation).machine.fault = none then
      operation :: running (m.apply operation).machine operations
    else []

theorem isPrefix_running (m : Machine) (operations : List Operation) :
    m.running operations <+: operations := by
  induction operations generalizing m with
  | nil => exact List.nil_prefix
  | cons operation operations ih =>
    rw [running]
    split
    · exact List.cons_prefix_cons.mpr ⟨rfl, ih _⟩
    · exact List.nil_prefix

/-- They do not stop the machine. -/
theorem fault_run_running (begun : m.fault = none) (operations : List Operation) :
    (m.run (m.running operations)).fault = none := by
  induction operations generalizing m with
  | nil => exact begun
  | cons operation operations ih =>
    rw [running]
    split
    case isTrue unstopped => exact ih unstopped
    case isFalse stopped => exact begun

/-! ### The cadence -/

/-- **Before a machine is stopped, it counts down as a gate does** that hears of the times
alone. -/
theorem Starts.take_atTimes_countsDown (starts : n.Starts)
    (goesOn : ∀ operation ∈ operations, ¬operation.Restarts) {count : Nat}
    (before : count ≤ (Operation.times (n.running operations)).length) :
    (n.atTimes countsDown operations).take count =
      ((Gate.ofInterval 16).polls (Operation.times operations)).take count := by
  obtain ⟨later, split⟩ := n.isPrefix_running operations
  have goesOn' : ∀ operation ∈ n.running operations, ¬operation.Restarts :=
    fun operation member => goesOn operation ((n.isPrefix_running operations).subset member)
  have unstopped := fault_run_running starts.isReady.unstopped operations
  have heard : n.atTimes countsDown (n.running operations) =
      (Gate.ofInterval 16).polls (Operation.times (n.running operations)) := by
    rw [paces_timer.atTimes_eq_polls goesOn' (polls_timer goesOn' unstopped), starts.gates.2]
    rfl
  have times : Operation.times operations =
      Operation.times (n.running operations) ++ Operation.times later := by
    rw [Operation.times, Operation.times, Operation.times, ← List.filterMap_append, split]
  have answers : n.atTimes countsDown operations =
      (Gate.ofInterval 16).polls (Operation.times (n.running operations)) ++
        (n.run (n.running operations)).atTimes countsDown later := by
    rw [← heard, ← atTimes_append, split]
  -- Both lists begin with the answers of the gate up to the stop, which reach far enough.
  rw [← (Gate.ofInterval 16).length_polls] at before
  rw [answers, times, Gate.polls_append, List.take_append_of_le_length before,
    List.take_append_of_le_length before]

/-- **The timers keep to the times.** Take two machines at their start, with whatever settings
and programs, and do to each of them anything that does not start it over, but tell both the
same times, in whatever order. At the times before the first operation that stops one of them,
the timers are counted down on both or on neither, namely when a gate with an interval of
sixteen fires that hears of these times alone. A countdown takes one from the delay timer and
from the sound timer, unless they are at zero, and comes after the word that is due at the same
time. -/
theorem cadence_by_times (hm : m.Starts) (hn : n.Starts)
    (goesOn : ∀ operation ∈ events, ¬operation.Restarts)
    (goesOn' : ∀ operation ∈ others, ¬operation.Restarts)
    (same : Operation.times events = Operation.times others) :
    let count := min (Operation.times (m.running events)).length
      (Operation.times (n.running others)).length
    let fires := (Gate.ofInterval 16).polls (Operation.times events)
    (m.atTimes countsDown events).take count = fires.take count ∧
      (n.atTimes countsDown others).take count = fires.take count ∧
      (∀ (k : Machine) now, (k.tick now).machine.processor =
        if k.countsDown now then (k.afterDue now).countDown else k.afterDue now) ∧
      ∀ p : Processor, p.countDown.delay.toNat = p.delay.toNat - 1 ∧
        p.countDown.sound.toNat = p.sound.toNat - 1 ∧
        p.countDown = { p with delay := p.countDown.delay, sound := p.countDown.sound } := by
  intro count fires
  have first := hm.take_atTimes_countsDown goesOn (Nat.min_le_left _ _ : count ≤ _)
  have second := hn.take_atTimes_countsDown goesOn' (Nat.min_le_right _ _ : count ≤ _)
  rw [← same] at second
  exact ⟨first, second, processor_tick, Processor.countDown_spec⟩

/-- A program that waits for a key press and one that jumps to itself, on machines with other
settings, are told the same times, of which one goes backwards. They count down at the same two
of the first five; then a word stops the first machine. -/
theorem cadence_by_times_wait :
    let m := ((create .standard 0).machine.apply (.load [0xF0, 0x0A, 0x12, 0x02])).machine
    let settings : Settings := ⟨.legacy, 100, some 9⟩
    let n := ((create settings 0).machine.apply (.load [0x12, 0x00])).machine
    let events : List Operation :=
      [.tick 0, .tick 10, .tick 20, .pressKey 3, .tick 5, .tick 37, .execute 0xFFFF, .tick 60]
    let others : List Operation :=
      [.tick 0, .step, .tick 10, .tick 20, .tick 5, .releaseKeys, .tick 37, .tick 60]
    (m.atTimes countsDown events).take 5 = [false, false, true, false, true] ∧
      (n.atTimes countsDown others).take 5 = [false, false, true, false, true] := by
  intro m settings n events others
  have hm : m.Starts := .again ⟨.standard, 0, [], rfl⟩ (by decide)
  have hn : n.Starts := .again ⟨settings, 0, [], rfl⟩ (by decide)
  have goesOn : ∀ operation ∈ events, ¬operation.Restarts := by decide
  have goesOn' : ∀ operation ∈ others, ¬operation.Restarts := by decide
  have first : (Operation.times (m.running events)).length = 5 := by decide +kernel
  have second : (Operation.times (n.running others)).length = 6 := by decide +kernel
  have fires : (Gate.ofInterval 16).polls (Operation.times events) =
      [false, false, true, false, true, true] := by decide
  obtain ⟨counted, counted', -⟩ := cadence_by_times hm hn goesOn goesOn' rfl
  rw [first, second, fires] at counted counted'
  exact ⟨counted, counted'⟩

end Machine

end Chip8
