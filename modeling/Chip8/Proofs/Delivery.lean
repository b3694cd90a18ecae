import Chip8.Proofs.Loading

/-!
# How a program is delivered

A source delivers a program in pieces, `Chip8.ByteSource.pieces`, and in the end there are no
more or a read fails (`Chip8.ByteSource.ending`). How the bytes are divided has no bearing on
what is read (`Chip8.ByteSource.readAll_eq`), and a failure to read comes before any question
of size.

The main statement is `Chip8.Machine.load_all_or_nothing`: a program is loaded unless it is
too large, a source or a file is as good as the bytes that it delivers, and an attempt that
fails, for whatever reason, leaves the machine as it was.
-/

namespace Chip8

/-! ### What a source delivers -/

namespace ByteSource

/-- The pieces that a source delivers before it ends. -/
def pieces : ByteSource → List (List UInt8)
  | done | broken _ => []
  | piece first others next => (first :: others) :: next.pieces

/-- The failure in which a source ends, if it ends in one. -/
def ending : ByteSource → Option FileError
  | done => none
  | broken cause => some cause
  | piece _ _ next => next.ending

/-- **What is read from a source** are its pieces in their order, however long they are, or
the failure in which it ends, however much it delivered before. -/
theorem readAll_eq (source : ByteSource) :
    source.readAll = source.ending.elim (.ok source.pieces.flatten) .error := by
  induction source with
  | done => rfl
  | broken cause => rfl
  | piece first others next ih =>
    rw [readAll, ih, ending, pieces, List.flatten_cons]
    cases next.ending with
    | none => rfl
    | some cause => rfl

end ByteSource

namespace Machine

variable {m : Machine} {program : List UInt8} {cause : LoadError}

/-! ### Programs that are too large -/

/-- There is one reason not to load a program that was read, which names its size. -/
theorem load_eq_error_iff :
    (m.load program).answer = .error cause ↔
      Memory.programCapacity < program.length ∧ cause = .tooLarge program.length := by
  rcases Nat.lt_or_ge Memory.programCapacity program.length with large | fits
  · obtain ⟨answer, -⟩ := m.load_of_large large
    rw [answer]
    constructor
    · rintro ⟨⟩
      exact ⟨large, rfl⟩
    · rintro ⟨-, rfl⟩
      rfl
  · obtain ⟨answer, -⟩ := m.load_of_fits fits
    rw [answer]
    constructor
    · rintro ⟨⟩
    · rintro ⟨large, -⟩
      exact absurd large (Nat.not_lt.mpr fits)

/-! ### Programs from elsewhere -/

/-- A source that ends in no failure is as good as all its bytes at once. -/
theorem loadFrom_of_delivered {source : ByteSource} (delivered : source.ending = none) :
    m.loadFrom source = m.load source.pieces.flatten := by
  rw [loadFrom, source.readAll_eq, delivered]
  rfl

/-- From a source that ends in a failure nothing is loaded. -/
theorem loadFrom_of_broken {source : ByteSource} {cause : FileError}
    (broken : source.ending = some cause) :
    (m.loadFrom source).answer = .error (.unreadable cause) ∧
      (m.loadFrom source).machine = m := by
  rw [loadFrom, source.readAll_eq, broken]
  exact ⟨rfl, rfl⟩

/-- **Loading is all or nothing.** On any machine, an attempt to load bytes fails if there are
more of them than fit, and then the failure names their number; otherwise the machine starts
over with them in memory. A source that ends in no failure gives the same outcome as the
concatenation of its pieces; one that ends in a failure gives this failure, also if it delivered
more than fits before. A file that cannot be opened gives the failure to open it, and one that
can is a source. After every failure the machine is as it was. -/
theorem load_all_or_nothing (m : Machine) :
    (∀ program cause, (m.load program).answer = .error cause ↔
      3584 < program.length ∧ cause = .tooLarge program.length) ∧
    (∀ program, 3584 < program.length → (m.load program).machine = m) ∧
    (∀ program, program.length ≤ 3584 → (m.load program).answer = .ok () ∧
      (m.load program).machine = m.reset.machine.withProgram program) ∧
    (∀ source, source.ending = none →
      m.loadFrom source = m.load source.pieces.flatten) ∧
    (∀ source cause, source.ending = some cause →
      (m.loadFrom source).answer = .error (.unreadable cause) ∧
        (m.loadFrom source).machine = m) ∧
    (∀ path cause, (m.loadFile path (.error cause)).answer = .error (.unreadable cause) ∧
      (m.loadFile path (.error cause)).machine = m) ∧
    ∀ path source, m.loadFile path (.ok source) = m.loadFrom source := by
  refine ⟨?_, ?_, ?_, ?_, ?_, ?_, ?_⟩
  · intro program cause
    exact load_eq_error_iff
  · intro program large
    exact (m.load_of_large large).2
  · intro program fits
    exact m.load_of_fits fits
  · intro source delivered
    exact loadFrom_of_delivered delivered
  · intro source cause broken
    exact loadFrom_of_broken broken
  · intro path cause
    exact ⟨rfl, rfl⟩
  · intro path source
    rfl

/-- A machine that was stopped while a program is loaded from a source that delivers more than
fits in two pieces and then breaks: it is told of the break and not of the size, and stays
stopped. Had the source not broken, it would have been told of the size. -/
theorem load_all_or_nothing_broken :
    let m := (create .standard 0).machine.run [.execute 0x00EE]
    let deliver (next : ByteSource) : ByteSource :=
      .piece 0x12 [0x00] (.piece 0 (List.replicate 3582 0) next)
    m.fault.isSome ∧ (deliver .done).pieces.flatten.length = 3585 ∧
      (m.loadFrom (deliver (.broken .isDirectory))).answer =
        .error (.unreadable .isDirectory) ∧
      (m.loadFrom (deliver (.broken .isDirectory))).machine = m ∧
      (m.loadFrom (deliver .done)).answer = .error (.tooLarge 3585) ∧
      (m.loadFrom (deliver .done)).machine = m ∧
      (m.loadFrom (.piece 0x12 [0x00] .done)).answer = .ok () := by
  intro m deliver
  obtain ⟨fails, unchanged, loads, delivered, broken, -, -⟩ := load_all_or_nothing m
  have size : (deliver .done).pieces.flatten.length = 3585 := by decide +kernel
  obtain ⟨answer, machine⟩ := broken (deliver (.broken .isDirectory)) .isDirectory rfl
  refine ⟨by decide +kernel, size, answer, machine, ?_, ?_, ?_⟩
  · rw [delivered _ rfl, fails, size]
    exact ⟨by decide, rfl⟩
  · rw [delivered _ rfl]
    exact unchanged _ (by rw [size]; decide)
  · rw [delivered _ rfl]
    exact (loads _ (by decide)).1

end Machine

end Chip8
