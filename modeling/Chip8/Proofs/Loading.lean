import Chip8.Proofs.Restart

/-!
# What loading comes to

A program comes as bytes, from a source of bytes or from a file, and there may be a reason
why it cannot be loaded. `Chip8.Operation.loading?` is the program that an operation is to
load, or that reason; and this is all that counts: `Chip8.Machine.apply_of_loading` says
that the machine is left as it was in the one case, and starts over with the program in the
other. What is emitted does not depend on the machine at all, so two machines respond to an
attempt to load alike (`Chip8.Machine.related_of_loading`).

Operations that neither start a machine over nor reach into it go on with what it is doing
(`Chip8.Operation.Continues`). Attempts to load that fail are among them.
-/

namespace Chip8

/-! ### Programs to be loaded -/

/-- A program if it fits into memory. -/
def Memory.accept (program : List UInt8) : Except LoadError (List UInt8) :=
  if programCapacity < program.length then .error (.tooLarge program.length) else .ok program

/-- The program in a source of bytes. -/
def ByteSource.program (source : ByteSource) : Except LoadError (List UInt8) :=
  match source.readAll with
  | .ok program => Memory.accept program
  | .error cause => .error (.unreadable cause)

/-- The program in a file, given by what comes of opening it. -/
def ByteSource.programOf (opened : Except FileError ByteSource) :
    Except LoadError (List UInt8) :=
  match opened with
  | .ok source => source.program
  | .error cause => .error (.unreadable cause)

namespace Operation

/-- The program that an operation is to load, or the reason why it cannot be loaded. -/
def loading? : Operation → Option (Except LoadError (List UInt8))
  | .load program => some (Memory.accept program)
  | .loadFrom source => some source.program
  | .loadFile _ opened => some (ByteSource.programOf opened)
  | _ => none

/-- The operations that neither start a machine over nor reach into it. -/
inductive Continues : Operation → Prop
  /-- What drives a machine goes on with it. -/
  | drives {operation : Operation} (h : operation.Drives) : Continues operation
  /-- So does noting that the screen has been painted, -/
  | markPainted : Continues .markPainted
  /-- or asking for it. -/
  | takeRepaint : Continues .takeRepaint
  /-- An attempt to load that fails is over. -/
  | loadsNothing {operation : Operation} {cause : LoadError}
      (h : operation.loading? = some (.error cause)) : Continues operation

end Operation

namespace Machine

variable {m : Machine} {operation : Operation}

/-! ### Loading -/

/-- What comes of an attempt to load: the machine as it was, for a reason, or the machine
started over with the program in memory. -/
inductive LoadEffect (m : Machine) :
    Except LoadError (List UInt8) → Answer → Machine → Prop where
  /-- Nothing is loaded. -/
  | failed (cause : LoadError) : LoadEffect m (.error cause) (.failed (.load cause)) m
  /-- A program is loaded. -/
  | loaded (program : List UInt8) (fits : program.length ≤ Memory.programCapacity) :
    LoadEffect m (.ok program) .done (m.reset.machine.withProgram program)

/-- A program that is too large is not loaded. -/
theorem load_of_large (m : Machine) {program : List UInt8}
    (large : Memory.programCapacity < program.length) :
    (m.load program).answer = .error (.tooLarge program.length) ∧
      (m.load program).machine = m := by
  simp only [load, large, if_true, and_self]

theorem loadEffect_load (m : Machine) (program : List UInt8) :
    m.LoadEffect (Memory.accept program) (.ofLoading (m.load program).answer)
      (m.load program).machine := by
  by_cases large : Memory.programCapacity < program.length
  · obtain ⟨answer, machine⟩ := m.load_of_large large
    rw [Memory.accept, if_pos large, answer, machine]
    exact .failed _
  · have fits := Nat.not_lt.mp large
    obtain ⟨answer, machine⟩ := m.load_of_fits fits
    rw [Memory.accept, if_neg large, answer, machine]
    exact .loaded program fits

theorem loadEffect_loadFrom (m : Machine) (source : ByteSource) :
    m.LoadEffect source.program (.ofLoading (m.loadFrom source).answer)
      (m.loadFrom source).machine := by
  unfold ByteSource.program loadFrom
  cases source.readAll with
  | ok program => exact m.loadEffect_load program
  | error cause => exact .failed _

theorem loadEffect_loadFile (m : Machine) (path : String)
    (opened : Except FileError ByteSource) :
    m.LoadEffect (ByteSource.programOf opened) (.ofLoading (m.loadFile path opened).answer)
      (m.loadFile path opened).machine := by
  cases opened with
  | ok source => exact m.loadEffect_loadFrom source
  | error cause => exact .failed _

/-- **What an operation that loads a program comes to** depends on the program alone, or on
the reason why there is none, not on where it is loaded from. -/
theorem apply_of_loading {outcome : Except LoadError (List UInt8)}
    (h : operation.loading? = some outcome) :
    m.LoadEffect outcome (m.apply operation).answer (m.apply operation).machine := by
  cases operation with
  | load program =>
    obtain rfl := Option.some.inj h
    exact m.loadEffect_load program
  | loadFrom source =>
    obtain rfl := Option.some.inj h
    exact m.loadEffect_loadFrom source
  | loadFile path opened =>
    obtain rfl := Option.some.inj h
    exact m.loadEffect_loadFile path opened
  | _ => contradiction

theorem LoadEffect.of_error {cause : LoadError} {answer : Answer} {n : Machine}
    (h : m.LoadEffect (.error cause) answer n) : answer = .failed (.load cause) ∧ n = m := by
  cases h
  exact ⟨rfl, rfl⟩

theorem LoadEffect.of_ok {program : List UInt8} {answer : Answer} {n : Machine}
    (h : m.LoadEffect (.ok program) answer n) :
    answer = .done ∧ n = m.reset.machine.withProgram program := by
  cases h
  exact ⟨rfl, rfl⟩

/-- After an operation that loads a program, memory holds the font and the program. -/
theorem isLoaded_of_loading {program : List UInt8}
    (loads : operation.loading? = some (.ok program)) :
    (m.apply operation).machine.processor.memory.IsLoaded program := by
  have effect := m.apply_of_loading loads
  generalize (m.apply operation).answer = answer at effect
  generalize (m.apply operation).machine = n at effect ⊢
  cases effect with
  | loaded _ fits => exact Memory.isLoaded_loadProgram fits

/-- A program that an operation loads fits into memory. -/
theorem fits_of_loading {program : List UInt8} (loads : operation.loading? = some (.ok program)) :
    program.length ≤ Memory.programCapacity := by
  have effect := (create .standard 0).machine.apply_of_loading loads
  generalize Machine.apply _ operation = r at effect
  generalize r.answer = answer, r.machine = n at effect
  cases effect with
  | loaded _ fits => exact fits

/-- What is emitted when a program is loaded does not depend on the machine. -/
theorem emitted_apply_of_loading {outcome : Except LoadError (List UInt8)}
    (h : operation.loading? = some outcome) (m n : Machine) :
    (m.apply operation).emitted = (n.apply operation).emitted := by
  have load (program : List UInt8) : (m.load program).emitted = (n.load program).emitted := by
    simp only [Machine.load]
    split <;> rfl
  have loadFrom (source : ByteSource) :
      (m.loadFrom source).emitted = (n.loadFrom source).emitted := by
    unfold Machine.loadFrom
    split
    · exact load _
    · rfl
  cases operation with
  | load program => exact load program
  | loadFrom source => exact loadFrom source
  | loadFile path opened =>
    cases opened with
    | ok source => exact loadFrom source
    | error cause => rfl
  | _ => contradiction

/-- **Loading a program respects a relation** if starting over with a program does. -/
theorem related_of_loading {S : Machine → Machine → Prop} {n : Machine}
    {outcome : Except LoadError (List UInt8)} (loads : operation.loading? = some outcome)
    (h : S m n)
    (anew : ∀ program,
      S (m.reset.machine.withProgram program) (n.reset.machine.withProgram program)) :
    Response.Related Eq S Eq (m.apply operation) (n.apply operation) := by
  have left := m.apply_of_loading loads
  have right := n.apply_of_loading loads
  have emitted := emitted_apply_of_loading loads m n
  cases outcome with
  | error cause =>
    obtain ⟨answer, machine⟩ := left.of_error
    obtain ⟨answer', machine'⟩ := right.of_error
    refine ⟨answer.trans answer'.symm, ?_, emitted⟩
    rw [machine, machine']
    exact h
  | ok program =>
    obtain ⟨answer, machine⟩ := left.of_ok
    obtain ⟨answer', machine'⟩ := right.of_ok
    refine ⟨answer.trans answer'.symm, ?_, emitted⟩
    rw [machine, machine']
    exact anew program

/-- An attempt to load that fails leaves the machine as it was. -/
theorem machine_apply_of_loadsNothing {cause : LoadError}
    (h : operation.loading? = some (.error cause)) : (m.apply operation).machine = m :=
  (m.apply_of_loading h).of_error.2

end Machine

end Chip8
