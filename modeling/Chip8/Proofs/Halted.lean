import Chip8.Proofs.Soundness

/-!
# A machine that was stopped

A fault stops a machine for good: nothing but a reset or another program gets it going
again. Until then, events of the keypad are noted and so is that the screen was painted, and
nothing else about the machine is touched by any operation that goes on with it.

The main statement is `Chip8.Machine.stays_halted`. One operation is settled by
`Chip8.Machine.machine_apply_of_halted`, to which a key press is the one threat: it would
resume a machine that waits for one. A machine that was stopped does not
(`Chip8.Machine.IsSound`).
-/

namespace Chip8

namespace Operation

/-! ### What is noted -/

/-- The keypad after an operation that does not start the machine over. -/
def keypadAfter (keypad : Keypad) : Operation → Keypad
  | .pressKey key => keypad.set key.val true
  | .releaseKey key => keypad.set key.val false
  | .releaseKeys => .released
  | _ => keypad

/-- Whether the screen is due to be painted after an operation, if nothing is drawn. -/
def repaintAfter (repaint : Bool) : Operation → Bool
  | .markPainted | .takeRepaint => false
  | _ => repaint

end Operation

namespace Machine

variable {m : Machine} {fault : Fault} {operation : Operation}

/-- The machine with other keys down, and its screen due to be painted or not. -/
def noting (m : Machine) (keypad : Keypad) (repaint : Bool) : Machine :=
  { m with processor := { m.processor with keypad, repaint } }

@[simp] theorem fault_noting (m : Machine) (keypad : Keypad) (repaint : Bool) :
    (m.noting keypad repaint).fault = m.fault := rfl

/-! ### One operation -/

/-- A machine that was stopped refuses to execute anything, with the fault that stopped it,
and that is all it does. -/
theorem apply_of_executes (h : m.fault = some fault) (executes : operation.Executes) :
    m.apply operation = ⟨.failed (.halted fault), m, []⟩ := by
  have refuses (word : UInt16) : m.execute word = ⟨.error fault, m, []⟩ := by
    simp only [execute, h]
  cases executes with
  | step =>
    simp only [apply, step, refuses]
    rfl
  | execute word =>
    simp only [apply, refuses]
    rfl
  | tick now =>
    simp only [apply, tick_of_fault h]
    rfl

/-- **An operation that goes on with a machine that was stopped** is noted, as far as it is
about keys and painting, and changes nothing else. -/
theorem machine_apply_of_halted (h : m.fault = some fault)
    (unblocked : m.processor.awaiting = none) (continues : operation.Continues) :
    (m.apply operation).machine =
      m.noting (operation.keypadAfter m.processor.keypad)
        (operation.repaintAfter m.processor.repaint) := by
  cases continues with
  | drives drives =>
    cases drives with
    | step =>
      rw [apply_of_executes h .step]
      rfl
    | execute word =>
      rw [apply_of_executes h (.execute word)]
      rfl
    | tick now =>
      rw [apply_of_executes h (.tick now)]
      rfl
    | pressKey key =>
      rw [machine_pressKey_of_not_awaiting unblocked]
      rfl
    | releaseKey key => rfl
    | releaseKeys => rfl
  | markPainted => rfl
  | takeRepaint => rfl
  | loadsNothing loads =>
    rw [machine_apply_of_loadsNothing loads]
    cases operation with
    | load _ | loadFrom _ | loadFile _ _ => rfl
    | _ => contradiction

/-! ### Whole runs -/

/-- A machine that was stopped has, after a run that goes on with it, noted the events one
after the other. -/
theorem run_of_halted (h : m.fault = some fault) (unblocked : m.processor.awaiting = none)
    (operations : List Operation)
    (continues : ∀ operation ∈ operations, operation.Continues) :
    m.run operations =
      m.noting (operations.foldl Operation.keypadAfter m.processor.keypad)
        (operations.foldl Operation.repaintAfter m.processor.repaint) := by
  induction operations generalizing m with
  | nil => rfl
  | cons operation operations ih =>
    rw [List.forall_mem_cons] at continues
    rw [run_cons, machine_apply_of_halted h unblocked continues.1]
    exact ih h unblocked continues.2

/-- An operation that loads a program gets any machine going again, or it fails and leaves
the machine as it was. -/
theorem recovers_or_continues {outcome : Except LoadError (List UInt8)}
    (h : operation.loading? = some outcome) (m : Machine) :
    ((m.apply operation).answer = .done ∧ (m.apply operation).machine.fault = none) ∨
      (operation.Continues ∧ (∃ cause, (m.apply operation).answer = .failed (.load cause)) ∧
        (m.apply operation).machine = m) := by
  have effect := m.apply_of_loading h
  cases outcome with
  | ok program =>
    obtain ⟨answer, machine⟩ := effect.of_ok
    rw [machine]
    exact Or.inl ⟨answer, rfl⟩
  | error cause =>
    obtain ⟨answer, machine⟩ := effect.of_error
    exact Or.inr ⟨.loadsNothing h, ⟨cause, answer⟩, machine⟩

/-- **A machine that was stopped stays as it is until it is started over.** After any
operations that go on with it, the same fault is stored and nothing is different but the
keys that are down and whether the screen is due to be painted, and on that the operations
about keys and painting alone have a say. Whatever is to be executed next fails with the
fault, changes nothing and emits nothing. A reset gets the machine going again, and so does
loading a program, unless it fails and leaves the machine as it was. -/
theorem stays_halted (reachable : m.Reachable) (stopped : m.fault = some fault)
    (operations : List Operation) (continues : ∀ operation ∈ operations, operation.Continues) :
    m.run operations =
        m.noting (operations.foldl Operation.keypadAfter m.processor.keypad)
          (operations.foldl Operation.repaintAfter m.processor.repaint) ∧
      (m.run operations).fault = some fault ∧
      (∀ operation : Operation, operation.Executes →
        (m.run operations).apply operation =
          ⟨.failed (.halted fault), m.run operations, []⟩) ∧
      ((m.run operations).apply .reset).machine.fault = none ∧
      ∀ operation : Operation, operation.loading?.isSome →
        (((m.run operations).apply operation).answer = .done ∧
          ((m.run operations).apply operation).machine.fault = none) ∨
        (operation.Continues ∧
          (∃ cause, ((m.run operations).apply operation).answer = .failed (.load cause)) ∧
          ((m.run operations).apply operation).machine = m.run operations) := by
  -- A register that waited would be resumed by a key press; after a fault there is none.
  have unblocked : m.processor.awaiting = none := by
    rcases reachable.isSound.exclusive with unstopped | unblocked
    · rw [unstopped] at stopped
      contradiction
    · exact unblocked
  have noted := run_of_halted stopped unblocked operations continues
  have same : (m.run operations).fault = some fault := by rw [noted, fault_noting, stopped]
  refine ⟨noted, same, fun _ executes => apply_of_executes same executes, rfl, ?_⟩
  intro operation loads
  obtain ⟨outcome, loads⟩ := Option.isSome_iff_exists.mp loads
  exact recovers_or_continues loads _

/-- A machine that was stopped by a word that is no instruction is not impressed by a key,
by time or by a file that is not there. -/
theorem stays_halted_unknown :
    let m := (create .standard 0).machine.run [.execute 0xFFFF]
    let fault : Fault := ⟨.unknownInstruction, 0x200, 0xFFFF⟩
    let events : List Operation :=
      [.pressKey 5, .tick 100, .loadFile "game" (.error .notFound), .tick 200, .takeRepaint]
    m.run events = m.noting (Keypad.released.set 5 true) false ∧
      (m.run events).apply .step = ⟨.failed (.halted fault), m.run events, []⟩ := by
  intro m fault events
  have reachable : m.Reachable := ⟨.standard, 0, [.execute 0xFFFF], rfl⟩
  have continues : ∀ operation ∈ events, operation.Continues := by
    simp only [events, List.forall_mem_cons]
    exact ⟨.drives (.pressKey 5), .drives (.tick 100), .loadsNothing rfl, .drives (.tick 200),
      .takeRepaint, List.forall_mem_nil _⟩
  have stopped : m.fault = some fault := rfl
  obtain ⟨noted, -, refuses, -, -⟩ := stays_halted reachable stopped events continues
  exact ⟨noted, refuses .step .step⟩

end Machine

end Chip8
