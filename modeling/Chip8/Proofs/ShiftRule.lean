import Chip8.Proofs.Loading

/-!
# What the shift rule has a bearing on

Historical machines disagree on which register a shift instruction shifts. The main statement is
`Chip8.Machine.shift_rule_confined`: two machines that are the same but for the rule that they
follow cannot be told apart as long as the two registers of every shift that they execute hold
the same byte; and a shift of different bytes sets them apart in the register that receives the
result and in the flag register, and nowhere else.

Both parts come from a single relation, `Chip8.Machine.AgreesBut`, which leaves the rule and some
registers open. It is respected by all words that do no more to the open registers than to set
them (`Chip8.Machine.AgreesBut.lockstep`): those are all words if no register is open and no
bytes differ, and the shifts themselves if theirs are.
-/

namespace Chip8

/-! ### Shifts -/

/-- The registers of a shift, of which the first one receives the result. -/
def Instruction.shifted? : Instruction → Option (Register × Register)
  | .combine .shiftRight x y => some (x, y)
  | .combine .shiftLeft x y => some (x, y)
  | _ => none

/-- The rules do not differ on a byte and itself. -/
theorem ShiftRule.operand_self (rule : ShiftRule) (byte : UInt8) :
    rule.operand byte byte = byte := by
  cases rule <;> rfl

namespace Processor

variable {strays : List Register} {p q : Processor} {rule rule' : ShiftRule} {noise : UInt8}
  {i : Instruction}

/-- **The rule matters to a shift of different bytes only.** -/
theorem execute_of_equal (equal : ∀ r ∈ i.shifted?, p.register r.1 = p.register r.2) :
    p.execute rule noise i = p.execute rule' noise i := by
  cases i with
  | combine operation x y =>
    cases operation with
    | shiftRight | shiftLeft =>
      have same : p.register x = p.register y := equal (x, y) rfl
      simp only [execute, Arithmetic.apply, same, ShiftRule.operand_self]
    | _ => rfl
  | _ => rfl

/-! ### Processors that agree but for some registers -/

/-- Two processors that agree on everything but some registers. -/
structure AgreesBut (strays : List Register) (p q : Processor) : Prop where
  /-- The other registers are the same. -/
  register : ∀ x ∉ strays, p.register x = q.register x
  /-- The rest is the same. -/
  others : { p with registers := q.registers } = q

/-- If no register is left out, the processors are the same. -/
theorem agreesBut_nil_iff : p.AgreesBut [] q ↔ p = q := by
  constructor
  · intro h
    have registers : p.registers = q.registers :=
      Vector.ext fun k small => h.register ⟨k, small⟩ List.not_mem_nil
    rw [← h.others, ← registers]
  · rintro rfl
    exact ⟨fun _ _ => rfl, rfl⟩

namespace AgreesBut

variable (h : p.AgreesBut strays q)

include h

theorem mono {wider : List Register} (more : strays ⊆ wider) : p.AgreesBut wider q :=
  ⟨fun x spared => h.register x (fun stray => spared (more stray)), h.others⟩

theorem pc : p.pc = q.pc := by rw [← h.others]

theorem awaiting : p.awaiting = q.awaiting := by rw [← h.others]

theorem fetch : p.fetch = q.fetch := by
  rw [← h.others]
  rfl

theorem countDown : p.countDown.AgreesBut strays q.countDown :=
  ⟨h.register, congrArg Processor.countDown h.others⟩

theorem advance (count : UInt16) : (p.advance count).AgreesBut strays (q.advance count) :=
  ⟨h.register, congrArg (Processor.advance · count) h.others⟩

/-- What is left out can be set to anything. -/
theorem setRegister {x : Register} (stray : x ∈ strays) (a b : UInt8) :
    (p.setRegister x a).AgreesBut strays (q.setRegister x b) := by
  refine ⟨fun y spared => ?_, congrArg (Processor.setRegister · x b) h.others⟩
  have apart : x.val ≠ y.val := fun same => spared (Fin.ext same ▸ stray)
  simpa [Processor.register, Processor.setRegister, Vector.getElem_set_ne _ _ apart] using
    h.register y spared

/-- **A shift confines what it does by its rule** to the register that receives the result and to
the flag register. -/
theorem execute_shift {x y : Register} (shift : i.shifted? = some (x, y))
    (result : x ∈ strays) (flag : flagRegister ∈ strays) :
    (p.execute rule noise i).1 = (q.execute rule' noise i).1 ∧
      (p.execute rule noise i).2.AgreesBut strays (q.execute rule' noise i).2 := by
  cases i with
  | combine operation x' y' =>
    cases operation with
    | shiftRight | shiftLeft =>
      obtain ⟨rfl, rfl⟩ := Prod.mk.inj (Option.some.inj shift)
      exact ⟨rfl, ((h.setRegister flag _ _).setRegister result _ _).advance 2⟩
    | _ => contradiction
  | _ => contradiction

end AgreesBut

end Processor

/-! ### Machines that agree but for the rule and some registers -/

namespace Machine

variable {strays : List Register} {m n : Machine} {operation : Operation}

/-- Two machines that agree on everything but some registers, the shift rule that they follow
and the entropy that they were built with. -/
structure AgreesBut (strays : List Register) (m n : Machine) : Prop where
  /-- The intervals between instructions are chosen to be the same. -/
  interval : m.settings.interval = n.settings.interval
  /-- The seeds are chosen to be the same. -/
  seed : m.settings.seed = n.settings.seed
  /-- The processors agree. -/
  processor : m.processor.AgreesBut strays n.processor
  /-- The gates of the instructions are the same. -/
  clock : m.clock = n.clock
  /-- The gates of the timers are the same. -/
  timer : m.timer = n.timer
  /-- The generators of random bytes are the same. -/
  random : m.random = n.random
  /-- The faults are the same. -/
  fault : m.fault = n.fault

/-- The registers of the shift that an operation has the machine execute, if it does. -/
def shifts? (m : Machine) (operation : Operation) : Option (Register × Register) :=
  (m.executed? operation).bind Instruction.shifted?

/-- An operation that does not have the machine execute a shift of different bytes. -/
def ShiftsEqual (m : Machine) (operation : Operation) : Prop :=
  ∀ r ∈ m.shifts? operation, m.processor.register r.1 = m.processor.register r.2

instance (m : Machine) (operation : Operation) : Decidable (m.ShiftsEqual operation) :=
  inferInstanceAs (Decidable (∀ r ∈ m.shifts? operation, _))

namespace AgreesBut

theorem setProcessor (h : m.AgreesBut strays n) {wider : List Register} {p q : Processor}
    (agree : p.AgreesBut wider q) :
    AgreesBut wider { m with processor := p } { n with processor := q } :=
  ⟨h.interval, h.seed, agree, h.clock, h.timer, h.random, h.fault⟩

/-- **Machines that agree are driven in lockstep** by words whose execution keeps the difference
within the registers that are left out. -/
theorem lockstep {C : Processor → Instruction → Prop}
    (confined : ∀ {p q rule rule' noise i}, p.AgreesBut strays q → C p i →
      (p.execute rule noise i).1 = (q.execute rule' noise i).1 ∧
        (p.execute rule noise i).2.AgreesBut strays (q.execute rule' noise i).2) :
    Lockstep (AgreesBut strays) Eq Eq fun p word => ∀ i ∈ Instruction.decode word, C p i where
  fault h := rel_fault_of_eq h.fault
  awaiting h := h.processor.awaiting
  fetch h := h.processor.fetch
  clock h := h.clock
  timer h := h.timer
  setClock _ h := ⟨h.interval, h.seed, h.processor, rfl, h.timer, h.random, h.fault⟩
  setTimer _ h := ⟨h.interval, h.seed, h.processor, h.clock, rfl, h.random, h.fault⟩
  countDown h := h.setProcessor h.processor.countDown
  silent := rfl
  dispatch {m n} word h calm := by
    refine dispatch_related_of_pc_eq h h.processor.pc ?_ fun i decoded => ?_
    · intro _ _ _ next
      exact ⟨next.interval, next.seed, next.processor, next.clock, next.timer, next.random, rfl⟩
    · obtain ⟨result, left⟩ := confined h.processor (calm i decoded)
      simp only [perform, h.random]
      exact ⟨result, h.interval, h.seed, left, h.clock, h.timer, rfl, h.fault⟩

/-- A reset does not look at the rule, and prefers a seed to the entropy. -/
theorem reset (h : m.AgreesBut strays n) (seeded : m.settings.seed.isSome) :
    m.reset.machine.AgreesBut [] n.reset.machine := by
  obtain ⟨seed, chosen⟩ := Option.isSome_iff_exists.mp seeded
  have other : n.settings.seed = some seed := h.seed.symm.trans chosen
  refine ⟨h.interval, h.seed, Processor.agreesBut_nil_iff.mpr rfl, ?_, ?_, ?_, rfl⟩
  · simp only [Machine.reset, h.clock]
  · simp only [Machine.reset, h.timer]
  · simp only [Machine.reset, Machine.seed, chosen, other, Option.getD_some]

/-- **An operation does the same under all rules**, unless it has the machine execute a shift of
different bytes. -/
theorem apply (h : m.AgreesBut [] n) (seeded : m.settings.seed.isSome)
    (equal : m.ShiftsEqual operation) :
    Response.Related Eq (AgreesBut []) Eq (m.apply operation) (n.apply operation) := by
  have same : m.processor = n.processor := Processor.agreesBut_nil_iff.mp h.processor
  have changed (f : Processor → Processor) :
      AgreesBut [] { m with processor := f m.processor } { n with processor := f n.processor } :=
    h.setProcessor (Processor.agreesBut_nil_iff.mpr (congrArg f same))
  have executed (executes : operation.Executes) :
      Response.Related Eq (AgreesBut []) Eq (m.apply operation) (n.apply operation) := by
    refine (lockstep (C := fun p i => ∀ r ∈ i.shifted?, p.register r.1 = p.register r.2)
      ?_).apply_of_executed h executes fun i executed r shift => ?_
    · intro p q rule rule' noise i agree equal
      obtain rfl := Processor.agreesBut_nil_iff.mp agree
      rw [Processor.execute_of_equal equal]
      exact ⟨rfl, Processor.agreesBut_nil_iff.mpr rfl⟩
    · exact equal r (Option.bind_eq_some_iff.mpr ⟨i, executed, shift⟩)
  have loaded {outcome : Except LoadError (List UInt8)}
      (loads : operation.loading? = some outcome) :
      Response.Related Eq (AgreesBut []) Eq (m.apply operation) (n.apply operation) :=
    related_of_loading loads h fun _ =>
      (h.reset seeded).setProcessor (Processor.agreesBut_nil_iff.mpr rfl)
  cases operation with
  | reset => exact ⟨rfl, h.reset seeded, rfl⟩
  | load _ | loadFrom _ | loadFile _ _ => exact loaded rfl
  | step => exact executed .step
  | execute word => exact executed (.execute word)
  | tick now => exact executed (.tick now)
  | pressKey key =>
    refine ⟨rfl, changed (·.pressKey key), ?_⟩
    simp only [Machine.apply, Response.map, pressKey, same]
  | releaseKey key => exact ⟨rfl, changed (·.releaseKey key), rfl⟩
  | releaseKeys => exact ⟨rfl, changed (·.releaseKeys), rfl⟩
  | markPainted => exact ⟨rfl, changed ({ · with repaint := false }), rfl⟩
  | takeRepaint =>
    refine ⟨?_, changed ({ · with repaint := false }), rfl⟩
    simp only [Machine.apply, takeRepaint, same]
  | edit change => exact ⟨rfl, changed (·.edit change), rfl⟩

/-- **A shift sets machines apart** in the register that receives the result and in the flag
register at most. -/
theorem apply_shift (h : m.AgreesBut [] n) {x y : Register}
    (shift : m.shifts? operation = some (x, y)) :
    Response.Related Eq (AgreesBut [x, flagRegister]) Eq (m.apply operation)
      (n.apply operation) := by
  obtain ⟨i, executed, shifted⟩ := Option.bind_eq_some_iff.mp shift
  obtain ⟨word, dispatched, -⟩ := Option.bind_eq_some_iff.mp executed
  have agree : m.AgreesBut [x, flagRegister] n :=
    h.setProcessor (h.processor.mono (List.nil_subset _))
  refine (lockstep (C := fun _ i => i.shifted? = some (x, y)) ?_).apply_of_executed agree
    (executes_of_dispatched dispatched) fun j executed' => ?_
  · intro p q rule rule' noise i agree shifted
    exact agree.execute_shift shifted (by simp) (by simp)
  · obtain rfl := Option.some.inj (executed.symm.trans executed')
    exact shifted

end AgreesBut

/-- **The shift rule is confined to shifts.** Let two machines with a seed of their own be the
same but for the rule that they follow, and do the same to both. As long as the two registers of
every shift that is executed hold the same byte, as they do if they are one register, both give
the same answers, emit the same diagnostics and are the same after each operation, but for the
rule. When a shift is executed after that, whatever the bytes, they are still the same but for
the register that receives its result and the flag register. -/
theorem shift_rule_confined {operations : List Operation} (same : m.AgreesBut [] n)
    (seeded : m.settings.seed.isSome) (equal : m.Along ShiftsEqual operations) :
    List.Forall₂ (Response.Related Eq (AgreesBut []) Eq) (m.responses operations)
      (n.responses operations) ∧
    ∀ operation x y, (m.run operations).shifts? operation = some (x, y) →
      Response.Related Eq (AgreesBut [x, flagRegister]) Eq
        ((m.run operations).apply operation) ((n.run operations).apply operation) := by
  obtain ⟨runs, agree⟩ :=
    equal.related_of_seeded (fun _ _ _ equal seeded h => h.apply seeded equal) seeded same
  exact ⟨runs, fun _ _ _ shift => agree.apply_shift shift⟩

/-- Under either rule, a shift does the same as long as both of its registers hold five. As soon
as the second one holds six, the register that receives the result tells the machines apart. -/
theorem shift_rule_confined_differing :
    let m := (create ⟨.legacy, 3, some 7⟩ 0).machine
    let n := (create ⟨.modern, 3, some 7⟩ 1).machine
    let operations : List Operation :=
      [.execute 0x6105, .execute 0x6205, .execute 0x8126, .execute 0x6105, .execute 0x6206]
    List.Forall₂ (Response.Related Eq (AgreesBut []) Eq) (m.responses operations)
        (n.responses operations) ∧
      ((m.run operations).apply (.execute 0x8126)).machine.AgreesBut [1, flagRegister]
        ((n.run operations).apply (.execute 0x8126)).machine ∧
      ((m.run operations).apply (.execute 0x8126)).machine.processor.register 1 ≠
        ((n.run operations).apply (.execute 0x8126)).machine.processor.register 1 := by
  intro m n operations
  have same : m.AgreesBut [] n :=
    ⟨rfl, rfl, Processor.agreesBut_nil_iff.mpr rfl, rfl, rfl, rfl, rfl⟩
  have equal : m.Along ShiftsEqual operations := by decide +kernel
  obtain ⟨runs, shifts⟩ := shift_rule_confined same rfl equal
  exact ⟨runs, (shifts (.execute 0x8126) 1 2 (by decide +kernel)).machine, by decide +kernel⟩

end Machine

end Chip8
