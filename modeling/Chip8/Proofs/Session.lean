import Chip8.Session
import Chip8.Proofs.Flow
import Chip8.Proofs.Overrides
import Chip8.Proofs.Replay
import Chip8.Proofs.Timeless

/-!
# Sessions come to what steps come to

A session has a machine execute words as time goes by, until the time is up or a fault stops the
machine. The main statement, `Chip8.Session.agrees_with_steps`, is that apart from this it is the
same to load the program and to make one step for each word that the session executes
(`Chip8.Session.dispatched`): the same screen is shown at the end, and the same fault is told of, if
one of these steps fails.

Two machines match (`Chip8.Machine.Matches`) if they are the same apart from time, from whether the
screen has been painted, and from their entropy. None of these has a bearing on what is executed,
as long as the delay timer is not read, so the machine of a session goes on matching one that is
stepped along (`Chip8.Machine.Matches.run_frames`). What there is to tell of a session can be read
off its machine at the end (`Chip8.Session.follow_eq`).
-/

namespace Chip8

/-! ### Machines that match -/

namespace Processor

/-- The processor with its screen painted. -/
def painted (p : Processor) : Processor := { p with repaint := false }

theorem painted_advance (p : Processor) (count : UInt16) :
    (p.advance count).painted = p.painted.advance count := rfl

theorem painted_setResult (p : Processor) (x : Register) (result : UInt8 × Option Bool) :
    (p.setResult x result).painted = p.painted.setResult x result := by
  obtain ⟨value, flag⟩ := result
  cases flag <;> rfl

/-- **No instruction looks at whether the screen has been painted.** -/
theorem execute_painted (p : Processor) (shift : ShiftRule) (noise : UInt8) (i : Instruction) :
    (p.painted.execute shift noise i).1 = (p.execute shift noise i).1 ∧
      (p.painted.execute shift noise i).2.painted = (p.execute shift noise i).2.painted := by
  cases i
  case ret =>
    simp only [execute, painted]
    cases p.stack.pop? <;> exact ⟨rfl, rfl⟩
  case call target =>
    simp only [execute, painted]
    cases p.stack.push? p.pc <;> exact ⟨rfl, rfl⟩
  case combine operation x y =>
    refine ⟨rfl, ?_⟩
    simp only [execute, painted_advance, painted_setResult]
    rfl
  all_goals exact ⟨rfl, rfl⟩

end Processor

namespace Machine

variable {m n : Machine} {fault : Fault}

/-- The machine with its screen painted, and without entropy. -/
def unwatched (m : Machine) : Machine := { m with processor := m.processor.painted, entropy := 0 }

/-- Two machines that are the same apart from time, from painting and from entropy. -/
def Matches (m n : Machine) : Prop := m.unwatched.timeless = n.unwatched.timeless

theorem Alike.matches (h : m.Alike n) : m.Matches n := by
  obtain ⟨settings, entropy, processor, clock, timer, random, fault⟩ := m
  obtain ⟨settings', entropy', processor', clock', timer', random', fault'⟩ := n
  obtain ⟨rfl, rfl, rfl, rfl, rfl, rfl⟩ := h
  rfl

/-- Neither painting nor entropy has a bearing on what is performed, -/
theorem perform_unwatched (m : Machine) (i : Instruction) :
    (m.unwatched.perform i).1 = (m.perform i).1 ∧
      (m.unwatched.perform i).2.Matches (m.perform i).2 := by
  have effect (noise : UInt8) := m.processor.execute_painted m.settings.shift noise i
  refine ⟨(effect _).1, ?_⟩
  simp only [Matches, unwatched, perform, (effect _).2]

/-- nor on what is executed. -/
theorem matches_dispatch_unwatched (m : Machine) (word : UInt16) :
    (m.unwatched.dispatch word).machine.Matches (m.dispatch word).machine := by
  have same : m.unwatched.Matches m := rfl
  refine (dispatch_related_of_pc_eq same rfl ?_ fun i _ => m.perform_unwatched i).machine
  intro k l fault same
  exact congrArg ({ · with fault := some fault }) same

namespace Matches

theorem symm (h : m.Matches n) : n.Matches m := Eq.symm h

theorem trans {k : Machine} (h : m.Matches n) (h' : n.Matches k) : m.Matches k := Eq.trans h h'

theorem fault_eq (h : m.Matches n) : m.fault = n.fault := congrArg (·.fault) h

theorem screen_eq (h : m.Matches n) : m.processor.screen = n.processor.screen :=
  congrArg (·.processor.screen) h

theorem fetch_eq (h : m.Matches n) : m.processor.fetch = n.processor.fetch :=
  congrArg (·.processor.fetch) h

theorem isReady (h : m.Matches n) (ready : m.IsReady) : n.IsReady where
  unstopped := h.fault_eq.symm.trans ready.unstopped
  unblocked := (congrArg (·.processor.awaiting) h).symm.trans ready.unblocked

/-- Machines that match go on matching when they execute a word that does not read the delay
timer. -/
theorem dispatch {word : UInt16} (h : m.Matches n)
    (other : ∀ x, Instruction.decode word ≠ some (.readDelay x)) :
    (m.dispatch word).machine.Matches (n.dispatch word).machine := by
  have executed := dispatch_timeless h other
  have same : (m.unwatched.dispatch word).machine.Matches (n.unwatched.dispatch word).machine :=
    congrArg unwatched executed
  exact (m.matches_dispatch_unwatched word).symm.trans
    (same.trans (n.matches_dispatch_unwatched word))

end Matches

/-! ### Steps that fail -/

/-- The answer to a step tells of a fault if the machine is stopped by it. -/
theorem answer_step_eq_error_iff (unstopped : m.fault = none) :
    m.step.answer = .error fault ↔ m.step.machine.fault = some fault := by
  by_cases ready : m.IsReady
  · rw [step, execute_of_isReady ready]
    exact (tells_dispatch ready _).halted fault
  · obtain ⟨x, waits⟩ : ∃ x, m.processor.awaiting = some x :=
      Option.ne_none_iff_exists'.mp fun unblocked => ready ⟨unstopped, unblocked⟩
    simp [step, execute, unstopped, waits]

/-- So does the answer to a time. -/
theorem answer_tick_eq_error_iff (unstopped : m.fault = none) (now : Nat) :
    (m.tick now).answer = .error fault ↔ (m.tick now).machine.fault = some fault := by
  cases due : m.isDue now with
  | true =>
    obtain ⟨-, answer, same⟩ := tick_of_due due
    rw [answer, same, answer_step_eq_error_iff unstopped]
  | false =>
    have idle := Answer.eq_ok_of_ofExecution (response_tick_of_not_due unstopped due).1
    have frozen : (m.tick now).machine.timeless = m.timeless := by
      rw [timeless_tick, due]
      rfl
    have kept : (m.tick now).machine.fault = m.fault := congrArg (·.fault) frozen
    rw [idle, kept, unstopped]
    exact ⟨nofun, nofun⟩

/-- An answer that tells of faults tells that there is none if it is of success. -/
theorem unstopped_of_ok {r : Response (Except Fault Flow)} {flow : Flow}
    (tells : ∀ fault, r.answer = .error fault ↔ r.machine.fault = some fault)
    (answered : r.answer = .ok flow) : r.machine.fault = none := by
  refine Option.eq_none_iff_forall_ne_some.mpr fun fault stopped => ?_
  rw [(tells fault).mpr stopped] at answered
  contradiction

theorem run_steps_succ (m : Machine) (count : Nat) :
    m.run (steps (count + 1)) = (m.run (steps count)).step.machine := by
  rw [steps, List.replicate_succ', run_append]
  rfl

/-- The step after so many others is the first one to fail. -/
structure FailsAfter (m : Machine) (count : Nat) (fault : Fault) : Prop where
  /-- It fails. -/
  fails : (m.run (steps count)).step.answer = .error fault
  /-- None before it does. -/
  first : ∀ k < count, ∃ flow, (m.run (steps k)).step.answer = .ok flow

/-- There is one such step at most. -/
theorem FailsAfter.unique {k l : Nat} {other : Fault} (h : m.FailsAfter k fault)
    (h' : m.FailsAfter l other) : k = l := by
  rcases Nat.lt_trichotomy k l with before | same | after
  · obtain ⟨flow, succeeds⟩ := h'.first k before
    rw [h.fails] at succeeds
    contradiction
  · exact same
  · obtain ⟨flow, succeeds⟩ := h.first l after
    rw [h'.fails] at succeeds
    contradiction

/-- A machine that is stopped after some steps was stopped by the first of them to fail. -/
theorem exists_failsAfter {count : Nat} (unstopped : m.fault = none)
    (stopped : (m.run (steps count)).fault = some fault) :
    ∃ k < count, m.FailsAfter k fault := by
  induction count generalizing m with
  | zero =>
    rw [steps_zero, run_nil, unstopped] at stopped
    contradiction
  | succ count ih =>
    rw [steps_succ, run_cons] at stopped
    rcases answered : m.step.answer with other | flow
    · -- Steps after one that fails do nothing.
      have failed := (answer_step_eq_error_iff unstopped).mp answered
      have kept := (responses_steps_of_not_isReady (not_isReady_of_fault failed) count).1
      obtain rfl : other = fault := by
        rw [← Option.some.injEq, ← failed, ← stopped]
        exact congrArg (·.fault) kept.symm
      exact ⟨0, Nat.succ_pos _, answered, nofun⟩
    · have goesOn := unstopped_of_ok (fun _ => answer_step_eq_error_iff unstopped) answered
      obtain ⟨k, before, fails, first⟩ := ih goesOn stopped
      refine ⟨k + 1, by omega, fails, fun j earlier => ?_⟩
      cases j with
      | zero => exact ⟨flow, answered⟩
      | succ j => exact first j (by omega)

end Machine

/-! ### Times with a painting after each -/

/-- What a session does at some times: it tells each of them, and notes that the screen has been
painted. -/
def Operation.frames (times : List Nat) : List Operation :=
  times.flatMap fun now => [.tick now, .markPainted]

namespace Machine

open Operation (frames)

variable {m n : Machine}

/-- **A time comes down to a step or to nothing** for a machine that matches. -/
theorem matches_tick (m : Machine) (now : Nat) :
    (m.tick now).machine.Matches (if m.isDue now then m.step.machine else m) := by
  have ticked : (m.tick now).machine.timeless =
      (if m.isDue now then m.step.machine else m).timeless := by
    rw [timeless_tick]
    split <;> rfl
  exact congrArg unwatched ticked

/-- **A machine that is told times goes on matching one that makes a step for each word** that the
first one executes, and each of these steps executes a word as well. -/
theorem Matches.run_frames {times : List Nat} (h : m.Matches n)
    (unread : m.Along IgnoresDelay (frames times)) :
    (m.run (frames times)).Matches (n.run (steps (m.executions (frames times)).length)) ∧
      ∀ k < (m.executions (frames times)).length, (n.run (steps k)).IsReady := by
  induction times generalizing m n with
  | nil => exact ⟨h, fun k before => absurd before (Nat.not_lt_zero k)⟩
  | cons now times ih =>
    obtain ⟨first, -, rest⟩ := unread
    have ticked := m.matches_tick now
    let after := (m.tick now).machine.markPainted
    rcases dispatched : m.dispatched? (.tick now) with _ | word
    · have counted : m.executions (frames (now :: times)) = after.executions (frames times) :=
        executions_cons_of_none dispatched _
      rw [isDue, dispatched, Option.isSome_none, if_neg Bool.false_ne_true] at ticked
      have same : after.Matches n := ticked.trans h
      rw [counted]
      exact ih same rest
    · have counted : m.executions (frames (now :: times)) =
          ⟨m, word⟩ :: after.executions (frames times) :=
        executions_cons_of_some dispatched _
      have due : m.isDue now = true := by rw [isDue, dispatched, Option.isSome_some]
      have ready := (tick_of_due due).1
      obtain rfl := dispatched?_eq_fetch dispatched (by simp)
      have plain : ∀ x, Instruction.decode m.processor.fetch ≠ some (.readDelay x) := by
        intro x reads
        exact first x (by rw [executed?, dispatched, Option.bind_some, reads])
      have stepped : m.step.machine.Matches n.step.machine := by
        rw [step, step, execute_of_isReady ready, execute_of_isReady (h.isReady ready),
          ← h.fetch_eq]
        exact h.dispatch plain
      rw [due, if_pos rfl] at ticked
      have same : after.Matches n.step.machine := ticked.trans stepped
      obtain ⟨last, goesOn⟩ := ih same rest
      rw [counted]
      refine ⟨last, fun k before => ?_⟩
      cases k with
      | zero => exact h.isReady ready
      | succ k => exact goesOn k (by simpa using before)

/-! ### What a session comes to -/

/-- The end of a session with the machine: its screen is shown, and a fault is told of. -/
def ending (m : Machine) : Ending :=
  match m.fault with
  | none => .done (m.processor.screen.text ++ "\n")
  | some fault => .failed (m.processor.screen.text ++ "\n") (.machine (.halted fault))

theorem ending_of_unstopped (unstopped : m.fault = none) :
    m.ending = .done (m.processor.screen.text ++ "\n") := by
  rw [ending, unstopped]

theorem ending_of_fault {fault : Fault} (stopped : m.fault = some fault) :
    m.ending = .failed (m.processor.screen.text ++ "\n") (.machine (.halted fault)) := by
  rw [ending, stopped]

theorem Matches.ending_eq (h : m.Matches n) : m.ending = n.ending := by
  rw [ending, ending, h.fault_eq, h.screen_eq]

/-- Nothing that is done to a machine that was stopped has a bearing on the end. -/
theorem ending_run_frames {fault : Fault} (stopped : m.fault = some fault) (times : List Nat) :
    (m.run (frames times)).fault = some fault ∧ (m.run (frames times)).ending = m.ending := by
  induction times generalizing m with
  | nil => exact ⟨stopped, rfl⟩
  | cons now times ih =>
    have parts : m.run (frames (now :: times)) =
        (m.tick now).machine.markPainted.run (frames times) := rfl
    rw [parts, tick_of_fault stopped]
    exact ih stopped

end Machine

namespace Session

open Machine Operation

/-- What a session does to its machine at some readings of the clock, if no fault stops it: the
readings are told up to the first one that reaches the limit. -/
def operations (s : Session) (readings : List Nat) : List Operation :=
  frames (readings.takeWhile (· < s.limit))

/-- The number of words that a session executes at some readings of the clock. -/
def dispatched (s : Session) (readings : List Nat) : Nat :=
  (s.machine.executions (s.operations readings)).length

/-- **What comes of a session can be read off its machine.** It goes on as long as the machine is
not stopped and the time is not up. -/
theorem follow_eq (s : Session) (unstopped : s.machine.fault = none) (readings : List Nat) :
    s.follow readings =
      if (s.machine.run (s.operations readings)).fault = none ∧ ∀ now ∈ readings, now < s.limit
      then .running { s with machine := s.machine.run (s.operations readings) }
      else .ended (s.machine.run (s.operations readings)).ending := by
  induction readings generalizing s with
  | nil => exact (if_pos ⟨unstopped, List.forall_mem_nil _⟩).symm
  | cons now readings ih =>
    by_cases up : s.limit ≤ now
    · have nothing : s.operations (now :: readings) = [] := by
        rw [operations, List.takeWhile_cons_of_neg (by simpa using up)]
        rfl
      rw [nothing, run_nil, if_neg fun h => absurd (h.2 now List.mem_cons_self) (Nat.not_lt.mpr up),
        ending_of_unstopped unstopped, follow, advance, if_pos up]
      rfl
    · have told : s.machine.run (s.operations (now :: readings)) =
          (s.machine.tick now).machine.markPainted.run (s.operations readings) := by
        rw [operations, List.takeWhile_cons_of_pos (by simpa using up)]
        rfl
      rw [told, follow, advance, if_neg up]
      rcases answered : (s.machine.tick now).answer with fault | flow
      · have failed := (answer_tick_eq_error_iff unstopped now).mp answered
        have stopped : (s.machine.tick now).machine.markPainted.fault = some fault := failed
        obtain ⟨kept, same⟩ := ending_run_frames stopped (readings.takeWhile (· < s.limit))
        rw [operations, kept, if_neg (by simp), same, ending_of_fault stopped]
        simp only [answered]
        rfl
      · have goesOn := unstopped_of_ok (fun _ => answer_tick_eq_error_iff unstopped now) answered
        simp only [answered, List.forall_mem_cons, Nat.lt_of_not_le up, true_and]
        exact ih { s with machine := (s.machine.tick now).machine.markPainted } goesOn

/-- The machine of a session goes on matching one that makes a step for each word that the session
executes. -/
theorem matches_operations {s : Session} {n : Machine} (h : s.machine.Matches n)
    {readings : List Nat} (unread : s.machine.Along IgnoresDelay (s.operations readings)) :
    (s.machine.run (s.operations readings)).Matches (n.run (steps (s.dispatched readings))) ∧
      ∀ k < s.dispatched readings, (n.run (steps k)).IsReady :=
  h.run_frames unread

section Matching

variable {s : Session} {n : Machine} (h : s.machine.Matches n) (unstopped : s.machine.fault = none)
  {readings : List Nat} (unread : s.machine.Along IgnoresDelay (s.operations readings))

include h unstopped unread

/-- **A session ends like the machine that is stepped along.** -/
theorem ending_of_follow {e : Ending} (ended : s.follow readings = .ended e) :
    e = (n.run (steps (s.dispatched readings))).ending := by
  rw [follow_eq s unstopped] at ended
  split_ifs at ended
  cases ended
  exact (matches_operations h unread).1.ending_eq

/-- A session comes to the first step that fails and no further, if it comes that far. -/
theorem follow_of_failsAfter {k : Nat} {fault : Fault} (fails : n.FailsAfter k fault)
    (reached : k < s.dispatched readings) :
    s.dispatched readings = k + 1 ∧ s.follow readings =
      .ended (.failed ((n.run (steps (k + 1))).processor.screen.text ++ "\n")
        (.machine (.halted fault))) := by
  obtain ⟨last, goesOn⟩ := matches_operations h unread
  have stopped : (n.run (steps (k + 1))).fault = some fault := by
    rw [run_steps_succ, ← answer_step_eq_error_iff (goesOn k reached).unstopped]
    exact fails.fails
  -- The machine would have to be ready for another step.
  have count : s.dispatched readings = k + 1 := by
    by_contra other
    have ready := goesOn (k + 1) (by omega)
    exact not_isReady_of_fault stopped ready
  rw [count] at last
  refine ⟨count, ?_⟩
  rw [follow_eq s unstopped, last.fault_eq, stopped, if_neg (by simp), last.ending_eq,
    ending_of_fault stopped]

/-- A session that comes to no step that fails goes on until its time is up. -/
theorem follow_of_succeeds
    (succeeds : ∀ k fault, n.FailsAfter k fault → s.dispatched readings ≤ k) :
    (∀ now ∈ readings, now < s.limit) ∧ (∃ t, s.follow readings = .running t) ∨
      (∃ now ∈ readings, s.limit ≤ now) ∧ s.follow readings =
        .ended (.done ((n.run (steps (s.dispatched readings))).processor.screen.text ++ "\n")) := by
  obtain ⟨last, -⟩ := matches_operations h unread
  have goesOn : (n.run (steps (s.dispatched readings))).fault = none := by
    refine Option.eq_none_iff_forall_ne_some.mpr fun fault stopped => ?_
    obtain ⟨k, before, fails⟩ := exists_failsAfter (h.fault_eq.symm.trans unstopped) stopped
    exact Nat.not_lt.mpr (succeeds k fault fails) before
  rw [follow_eq s unstopped, last.fault_eq, goesOn]
  by_cases early : ∀ now ∈ readings, now < s.limit
  · rw [if_pos ⟨rfl, early⟩]
    exact Or.inl ⟨early, _, rfl⟩
  · rw [if_neg fun both => early both.2, last.ending_eq, ending_of_unstopped goesOn]
    simp only [not_forall, Nat.not_lt] at early
    obtain ⟨now, member, up⟩ := early
    exact Or.inr ⟨⟨now, member, up⟩, rfl⟩

end Matching

/-- A session of a program that fits begins with the program in the memory of a new machine. -/
theorem begin_eq {files : Files} {c : Configuration} {file : String} {source : ByteSource}
    {program : List UInt8} (opened : files file = .ok source)
    (readable : source.readAll = .ok program) (fits : program.length ≤ Memory.programCapacity)
    (entropy : UInt64) (limit : Nat) :
    Session.begin files entropy c file limit =
      .ok ⟨((create (c.settingsFor file) entropy).machine.load program).machine, limit⟩ := by
  have loaded := ((create (c.settingsFor file) entropy).machine.load_of_fits fits).1
  simp only [Session.begin, Machine.loadFile, opened, Machine.loadFrom, readable, loaded]

/-- **A session comes to what steps come to.** Take a configuration with a seed and a program that
fits, in a file, and compare with a machine that is built with the settings for the file, loads the
program, and makes steps. A command to run the program begins a session, whatever the limit. At any
readings of the clock, as long as the delay timer is not read, the session executes some number of
words. If the first step to fail is among so many, the session comes to this step and no further,
and ends with what the screen of the other machine shows after it and with its fault. If none of
so many steps fails, then the session ends with what the screen shows after all of them, once the
limit is reached. So the end of a session depends on the limit and on the readings by this number
alone. -/
theorem agrees_with_steps {files : Files} {c : Configuration} {file : String}
    {source : ByteSource} {program : List UInt8} {seed : UInt64}
    (seeded : c.machine.seed = some seed) (opened : files file = .ok source)
    (readable : source.readAll = .ok program) (fits : program.length ≤ Memory.programCapacity)
    (entropy : UInt64) :
    let n := ((create (c.settingsFor file) entropy).machine.load program).machine
    (∀ entropy' limit, ∃ s, Session.begin files entropy' c file limit = .ok s ∧
      ∀ config, Configuration.choose files config = .ok c →
        Command.begin files entropy' (.run file config limit) = .running s) ∧
    (∀ entropy' limit s, Session.begin files entropy' c file limit = .ok s → ∀ readings,
      s.machine.Along IgnoresDelay (s.operations readings) →
        (∀ k fault, n.FailsAfter k fault → k < s.dispatched readings →
          s.dispatched readings = k + 1 ∧ s.follow readings =
            .ended (.failed ((n.run (steps (k + 1))).processor.screen.text ++ "\n")
              (.machine (.halted fault)))) ∧
        ((∀ k fault, n.FailsAfter k fault → s.dispatched readings ≤ k) →
          (∃ now ∈ readings, limit ≤ now) → s.follow readings =
            .ended (.done
              ((n.run (steps (s.dispatched readings))).processor.screen.text ++ "\n")))) ∧
    ∃ ending : Nat → Ending, ∀ entropy' limit s readings e,
      Session.begin files entropy' c file limit = .ok s →
      s.machine.Along IgnoresDelay (s.operations readings) → s.follow readings = .ended e →
      e = ending (s.dispatched readings) := by
  intro n
  have settings : (c.settingsFor file).seed.isSome := by
    rw [Configuration.settingsFor_eq, seeded]
    rfl
  -- All sessions have machines that match, as the seed counts and the entropy does not.
  have begun (entropy' : UInt64) (limit : Nat) (s : Session)
      (h : Session.begin files entropy' c file limit = .ok s) :
      s.machine.Matches n ∧ s.machine.fault = none ∧ s.limit = limit := by
    rw [begin_eq opened readable fits] at h
    cases h
    have same := ((create_alike settings entropy' entropy).load settings program).machine
    refine ⟨same.matches, ?_, rfl⟩
    rw [((create (c.settingsFor file) entropy').machine.load_of_fits fits).2]
    rfl
  refine ⟨fun entropy' limit => ?_, fun entropy' limit s h readings unread => ?_, fun count =>
    (n.run (steps count)).ending, fun entropy' limit s readings e h unread ended => ?_⟩
  · refine ⟨_, begin_eq opened readable fits entropy' limit, fun config chosen => ?_⟩
    rw [Command.begin, chosen]
    simp only [begin_eq opened readable fits]
  · obtain ⟨same, unstopped, rfl⟩ := begun entropy' limit s h
    refine ⟨fun k fault => follow_of_failsAfter same unstopped unread, fun succeeds up => ?_⟩
    rcases follow_of_succeeds same unstopped unread succeeds with ⟨early, -⟩ | ⟨-, ended⟩
    · obtain ⟨now, member, up⟩ := up
      exact absurd (early now member) (Nat.not_lt.mpr up)
    · exact ended
  · obtain ⟨same, unstopped, -⟩ := begun entropy' limit s h
    exact ending_of_follow same unstopped unread ended

/-- A program of two instructions, of which the second one is a return from nowhere: it depends on
the limit whether the session comes that far. -/
theorem agrees_with_steps_underflow :
    let c : Configuration := ⟨{ Settings.standard with seed := some 7 }, []⟩
    let program : List UInt8 := [0x60, 0x01, 0x00, 0xEE]
    let files : Files := fun _ => .ok (.ofList program)
    let n := ((create (c.settingsFor "game") 0).machine.load program).machine
    (∃ s, Session.begin files 5 c "game" 9 = .ok s ∧ s.follow [0, 4, 4, 8, 9] =
      .ended (.failed ((n.run (steps 2)).processor.screen.text ++ "\n")
        (.machine (.halted ⟨.stackUnderflow, 0x202, 0x00EE⟩)))) ∧
    ∃ s, Session.begin files 6 c "game" 8 = .ok s ∧ s.follow [0, 4, 7, 8] =
      .ended (.done ((n.run (steps 1)).processor.screen.text ++ "\n")) := by
  intro c program files n
  obtain ⟨-, comes, -⟩ :=
    @agrees_with_steps files c "game" (.ofList program) program 7 rfl rfl rfl (by decide) 0
  have fails : n.FailsAfter 1 ⟨.stackUnderflow, 0x202, 0x00EE⟩ := by
    refine ⟨by decide +kernel, fun k before => ?_⟩
    obtain rfl : k = 0 := by omega
    exact ⟨.next, by decide +kernel⟩
  constructor
  · refine ⟨_, rfl, ?_⟩
    have far := (comes 5 9 _ rfl [0, 4, 4, 8, 9] (by decide +kernel)).1 1 _ fails
    exact (far (by decide +kernel)).2
  · let s : Session := ⟨((create (c.settingsFor "game") 6).machine.load program).machine, 8⟩
    have count : s.dispatched [0, 4, 7, 8] = 1 := by decide +kernel
    have ended := (comes 6 8 s rfl [0, 4, 7, 8] (by decide +kernel)).2
    rw [count] at ended
    exact ⟨s, rfl, ended (fun k fault failed => Nat.le_of_eq (fails.unique failed))
      ⟨8, by decide, Nat.le_refl 8⟩⟩

end Session

end Chip8
