import Chip8.Proofs.Effects
import Chip8.Proofs.Soundness

/-!
# Waiting for a key press

An instruction can have a register wait for a key press. The machine then stays where it is,
whatever it is told to execute and however much time goes by, until a key is pressed: the
register receives the key, and the machine goes on after the instruction that waits.

The main statement, `Chip8.Machine.waits_for_key`, follows such a wait from its beginning
to its end and beyond. While it lasts, the machine is the one from before up to the timers,
the gates, the keys that are down and whether the screen is due to be painted
(`Chip8.Machine.WaitsAs`). Once it is over, a key press does nothing but move the key down,
for as long as no instruction has a register wait again
(`Chip8.Machine.awaiting_apply`).
-/

namespace Chip8

/-- Neither time nor the keypad has a register wait. -/
theorem Processor.isSteady_unblocked : Processor.IsSteady (·.awaiting = none) where
  countDown _ h := h
  pressKey p key _ := Machine.awaiting_pressKey p key
  releaseKey _ _ h := h
  releaseKeys _ h := h

namespace Machine

variable {m n : Machine} {operation : Operation} {word : UInt16} {x : Register}

/-! ### How a wait begins -/

/-- The instruction that waits does nothing but have its register wait. -/
theorem dispatch_of_awaitKey (decoded : Instruction.decode word = some (.awaitKey x)) :
    m.dispatch word =
      ⟨.ok .awaitKey, { m with processor := { m.processor with awaiting := some x } },
        [m.traceOf (.awaitKey x)]⟩ :=
  dispatch_of_decode decoded rfl rfl

/-- What drives a machine has no register wait, unless it executes the instruction that
does. -/
theorem awaiting_apply_of_drives (unblocked : m.processor.awaiting = none)
    (drives : operation.Drives) (other : ∀ x, m.executed? operation ≠ some (.awaitKey x)) :
    (m.apply operation).machine.processor.awaiting = none := by
  refine apply_of_isSteady Processor.isSteady_unblocked drives ?_ unblocked
  intro i noise flow q found executed
  have kept := Processor.awaiting_execute executed (by
    rintro x rfl
    exact other x found)
  exact kept.trans unblocked

/-- Loading a program ends a wait. -/
theorem awaiting_of_loadEffect (unblocked : m.processor.awaiting = none)
    {outcome : Except LoadError (List UInt8)} {answer : Answer}
    (effect : m.LoadEffect outcome answer n) : n.processor.awaiting = none := by
  cases effect with
  | failed cause => exact unblocked
  | loaded program fits => rfl

/-- **No operation has a register wait but by the instruction that does.** -/
theorem awaiting_apply (unblocked : m.processor.awaiting = none)
    (other : ∀ x, m.executed? operation ≠ some (.awaitKey x)) :
    (m.apply operation).machine.processor.awaiting = none := by
  cases operation with
  | reset => rfl
  | load program => exact awaiting_of_loadEffect unblocked (m.loadEffect_load program)
  | loadFrom source => exact awaiting_of_loadEffect unblocked (m.loadEffect_loadFrom source)
  | loadFile path opened =>
    exact awaiting_of_loadEffect unblocked (m.loadEffect_loadFile path opened)
  | step => exact awaiting_apply_of_drives unblocked .step other
  | execute word => exact awaiting_apply_of_drives unblocked (.execute word) other
  | tick now => exact awaiting_apply_of_drives unblocked (.tick now) other
  | pressKey key => exact awaiting_apply_of_drives unblocked (.pressKey key) other
  | releaseKey _ | releaseKeys | markPainted | takeRepaint => exact unblocked
  | edit change =>
    rcases awaiting_edit m.processor change with released | same
    · exact released
    · exact same.trans unblocked

/-! ### While a register waits -/

/-- A machine that is another one, except that a register waits, and except for the timers,
the gates, the keys that are down and whether the screen is due to be painted. -/
def WaitsAs (m : Machine) (x : Register) (n : Machine) : Prop :=
  ∃ delay sound keypad repaint clock timer,
    n = { m with
      processor := { m.processor with awaiting := some x, delay, sound, keypad, repaint }
      clock
      timer }

namespace WaitsAs

variable (h : m.WaitsAs x n)

include h

theorem awaiting : n.processor.awaiting = some x := by
  obtain ⟨delay, sound, keypad, repaint, clock, timer, rfl⟩ := h
  rfl

theorem fault : n.fault = m.fault := by
  obtain ⟨delay, sound, keypad, repaint, clock, timer, rfl⟩ := h
  rfl

theorem tickTimers (now : Nat) : m.WaitsAs x (n.tickTimers now) := by
  obtain ⟨delay, sound, keypad, repaint, clock, timer, rfl⟩ := h
  simp only [Machine.tickTimers]
  split
  · exact ⟨_, _, _, _, _, _, rfl⟩
  · exact ⟨_, _, _, _, _, _, rfl⟩

theorem arm (now : Nat) : m.WaitsAs x { n with clock := n.clock.arm now } := by
  obtain ⟨delay, sound, keypad, repaint, clock, timer, rfl⟩ := h
  exact ⟨_, _, _, _, _, _, rfl⟩

variable (unstopped : m.fault = none)

include unstopped

/-- Nothing is executed while a register waits. -/
theorem execute (word : UInt16) : n.execute word = ⟨.ok .awaitKey, n, []⟩ := by
  simp only [Machine.execute, h.fault, unstopped, h.awaiting]

/-- Time goes by for the gates and the timers only. -/
theorem tick (now : Nat) :
    n.tick now = ⟨.ok .idle, { n with clock := n.clock.arm now }.tickTimers now, []⟩ := by
  rw [tick_of_unstopped (h.fault.trans unstopped), tickClock_of_awaiting h.awaiting]

/-- **A wait goes on until a key is pressed**, under all operations that go on with the
machine. -/
theorem apply (continues : operation.Continues) (notKey : ∀ key, operation ≠ .pressKey key) :
    m.WaitsAs x (n.apply operation).machine := by
  cases continues with
  | drives drives =>
    cases drives with
    | step =>
      simp only [Machine.apply, Response.map, step, h.execute unstopped]
      exact h
    | execute word =>
      simp only [Machine.apply, Response.map, h.execute unstopped]
      exact h
    | tick now =>
      simp only [Machine.apply, Response.map, h.tick unstopped]
      exact (h.arm now).tickTimers now
    | pressKey key => exact absurd rfl (notKey key)
    | releaseKey key =>
      obtain ⟨delay, sound, keypad, repaint, clock, timer, rfl⟩ := h
      exact ⟨_, _, _, _, _, _, rfl⟩
    | releaseKeys =>
      obtain ⟨delay, sound, keypad, repaint, clock, timer, rfl⟩ := h
      exact ⟨_, _, _, _, _, _, rfl⟩
  | markPainted =>
    obtain ⟨delay, sound, keypad, repaint, clock, timer, rfl⟩ := h
    exact ⟨_, _, _, _, _, _, rfl⟩
  | takeRepaint =>
    obtain ⟨delay, sound, keypad, repaint, clock, timer, rfl⟩ := h
    exact ⟨_, _, _, _, _, _, rfl⟩
  | loadsNothing loads =>
    rw [machine_apply_of_loadsNothing loads]
    exact h

theorem run (operations : List Operation)
    (continues : ∀ operation ∈ operations,
      operation.Continues ∧ ∀ key, operation ≠ .pressKey key) :
    m.WaitsAs x (n.run operations) :=
  run_induction (fun _ _ proceeds waits => waits.apply unstopped proceeds.1 proceeds.2)
    operations continues h

omit unstopped in
/-- The first key press ends the wait: the register receives the key, and the machine goes
on after the instruction that waits. -/
theorem pressKey (key : Key) :
    (n.apply (.pressKey key)).machine =
      { n with
        processor := { n.processor with
          registers := (m.processor.setRegister x (UInt8.ofNat key.val)).registers
          pc := m.processor.pc + 2
          awaiting := none
          keypad := n.processor.keypad.set key.val true } } := by
  have pressed := Processor.pressKey_of_awaiting h.awaiting key
  obtain ⟨delay, sound, keypad, repaint, clock, timer, rfl⟩ := h
  simp only [Machine.apply, Response.map, Machine.pressKey, pressed]
  rfl

end WaitsAs

/-- The operation that executes the instruction that waits begins a wait. -/
theorem waitsAs_apply (waits : m.executed? operation = some (.awaitKey x)) :
    m.IsReady ∧ (m.apply operation).answer = .flow .awaitKey ∧
      m.WaitsAs x (m.apply operation).machine := by
  obtain ⟨word, dispatched, decoded⟩ := Option.bind_eq_some_iff.mp waits
  obtain ⟨ready, clock, answer, -, machine⟩ := response_of_dispatched dispatched
  have begun : m.WaitsAs x (({ m with clock } : Machine).dispatch word).machine := by
    rw [dispatch_of_awaitKey decoded]
    exact ⟨_, _, _, _, _, _, rfl⟩
  refine ⟨ready, ?_, ?_⟩
  · rw [answer, dispatch_of_awaitKey decoded]
    rfl
  · rcases machine with same | ⟨now, ticked⟩
    · rw [same]
      exact begun
    · rw [ticked]
      exact begun.tickTimers now

/-! ### A wait from beginning to end -/

/-- **A wait for a key press goes on until there is one, and no longer.** Take a machine and
an operation that executes the instruction by which a register waits, and any operations
that go on with the machine without pressing a key. There is no fault then, and the machine
is the one from before up to its timers, its gates, the keys that are down and whether the
screen is due to be painted. Executing something does nothing, and no instruction is due at
any time. The first key press puts the key into the register and goes on after the
instruction that waits; and whatever is done after that, the next ones only move keys down,
until an instruction has a register wait again. -/
theorem waits_for_key {wait : Operation} (waits : m.executed? wait = some (.awaitKey x))
    (operations : List Operation)
    (continues : ∀ operation ∈ operations,
      operation.Continues ∧ ∀ key, operation ≠ .pressKey key) :
    let n := (m.apply wait).machine.run operations
    (m.apply wait).answer = .flow .awaitKey ∧ n.fault = none ∧ m.WaitsAs x n ∧
      n.apply .step = ⟨.flow .awaitKey, n, []⟩ ∧
      (∀ word, n.apply (.execute word) = ⟨.flow .awaitKey, n, []⟩) ∧
      (∀ now, (n.apply (.tick now)).answer = .flow .idle ∧ (n.apply (.tick now)).emitted = []) ∧
      ∀ key,
        (n.apply (.pressKey key)).machine =
          { n with
            processor := { n.processor with
              registers := (m.processor.setRegister x (UInt8.ofNat key.val)).registers
              pc := m.processor.pc + 2
              awaiting := none
              keypad := n.processor.keypad.set key.val true } } ∧
        ∀ later, (n.apply (.pressKey key)).machine.Along
            (fun m operation => ∀ y, m.executed? operation ≠ some (.awaitKey y)) later →
          let r := (n.apply (.pressKey key)).machine.run later
          ∀ other, (r.apply (.pressKey other)).machine =
            { r with
              processor := { r.processor with
                keypad := r.processor.keypad.set other.val true } } := by
  intro n
  obtain ⟨ready, answer, begun⟩ := waitsAs_apply waits
  have unstopped := ready.unstopped
  have lasts : m.WaitsAs x n := begun.run unstopped operations continues
  have blocks (word : UInt16) : n.execute word = ⟨.ok .awaitKey, n, []⟩ :=
    lasts.execute unstopped word
  refine ⟨answer, lasts.fault.trans unstopped, lasts, ?_, ?_, ?_, ?_⟩
  · simp only [apply, step, blocks]
    rfl
  · intro word
    simp only [apply, blocks]
    rfl
  · intro now
    simp only [apply, Response.map, lasts.tick unstopped, and_true]
    rfl
  · intro key
    refine ⟨lasts.pressKey key, ?_⟩
    intro later along r other
    -- After the key press no register waits, and none begins to along the later operations.
    have resumed : (n.apply (.pressKey key)).machine.processor.awaiting = none :=
      awaiting_pressKey n.processor key
    exact machine_pressKey_of_not_awaiting
      (along.run_induction (fun _ _ calm unblocked => awaiting_apply unblocked calm) resumed) other

/-- On a new machine, `V3` waits for a key, whatever is done in between; it receives the
first one that is pressed, and not the second. -/
theorem waits_for_key_new :
    let m := (create .standard 0).machine
    let n := (m.apply (.execute 0xF30A)).machine.run
      [.tick 0, .execute 0x00EE, .releaseKey 3, .tick 100, .loadFile "game" (.error .notFound)]
    let r := (n.apply (.pressKey 7)).machine
    n.apply .step = ⟨.flow .awaitKey, n, []⟩ ∧
      r.processor.registers = (m.processor.setRegister 3 7).registers ∧ r.processor.pc = 0x202 ∧
      (r.apply (.pressKey 8)).machine.processor.registers =
        (m.processor.setRegister 3 7).registers := by
  intro m n r
  have continues : ∀ operation ∈ ([.tick 0, .execute 0x00EE, .releaseKey 3, .tick 100,
      .loadFile "game" (.error .notFound)] : List Operation),
      operation.Continues ∧ ∀ key, operation ≠ .pressKey key := by
    simp only [List.forall_mem_cons]
    exact ⟨⟨.drives (.tick 0), nofun⟩, ⟨.drives (.execute 0x00EE), nofun⟩,
      ⟨.drives (.releaseKey 3), nofun⟩, ⟨.drives (.tick 100), nofun⟩, ⟨.loadsNothing rfl, nofun⟩,
      List.forall_mem_nil _⟩
  have waits : m.executed? (.execute 0xF30A) = some (.awaitKey 3) := rfl
  obtain ⟨-, -, -, blocks, -, -, ends⟩ := waits_for_key waits _ continues
  obtain ⟨resumed, after⟩ := ends 7
  have next := after [] trivial 8
  refine ⟨blocks, ?_, ?_, ?_⟩
  · exact congrArg (·.processor.registers) resumed
  · exact congrArg (·.processor.pc) resumed
  · exact (congrArg (·.processor.registers) next).trans
      (congrArg (·.processor.registers) resumed)

end Machine

end Chip8
