import Chip8.Proofs.KeyWait

/-!
# What keys have a bearing on

A machine knows of keys by its keypad. Three instructions ask for keys, and as long as none of
them is executed, keys can be pressed and released at will: the main statement is
`Chip8.Machine.keys_leave_no_trace`, in which two runs differ in what is done to the keypad between
the other operations, and those have the same outcome in both.

Machines that are the same apart from keys (`Chip8.Machine.AlikeButKeys`) do the same otherwise. But
a key press ends a wait for one, and then it does more than move a key. So it is part of what the
two machines have in common that no register waits (`Chip8.Machine.Undisturbed`), and this makes a
key event nothing to speak of (`Chip8.Machine.Undisturbed.apply_key`). A run can then be compared to
the run without its key events (`Chip8.Machine.Undisturbed.responses_withoutKeys`), and two runs by
what they have in common.
-/

namespace Chip8

/-- Whether an instruction asks for keys. -/
def Instruction.readsKeys : Instruction → Bool
  | .skip (.keyDown _) => true
  | .skip (.keyUp _) => true
  | .awaitKey _ => true
  | _ => false

namespace Operation

/-- Whether an operation is an event of the keypad. -/
def isKeyEvent : Operation → Bool
  | .pressKey _ => true
  | .releaseKey _ => true
  | .releaseKeys => true
  | _ => false

/-- What is done besides the events of the keypad. -/
def withoutKeys (operations : List Operation) : List Operation :=
  operations.filter fun operation => !operation.isKeyEvent

theorem withoutKeys_cons_of_key {operation : Operation} (key : operation.isKeyEvent = true)
    (operations : List Operation) :
    withoutKeys (operation :: operations) = withoutKeys operations :=
  List.filter_cons_of_neg (by simp [key])

theorem withoutKeys_cons_of_common {operation : Operation} (common : operation.isKeyEvent = false)
    (operations : List Operation) :
    withoutKeys (operation :: operations) = operation :: withoutKeys operations :=
  List.filter_cons_of_pos (by simp [common])

end Operation

/-! ### Processors apart from keys -/

namespace Processor

variable {p q : Processor} {shift : ShiftRule} {noise : UInt8} {i : Instruction}

/-- The processor with all keys up. -/
def keyless (p : Processor) : Processor := { p with keypad := .released }

theorem keyless_advance (p : Processor) (count : UInt16) :
    (p.advance count).keyless = p.keyless.advance count := rfl

theorem keyless_setResult (p : Processor) (x : Register) (result : UInt8 × Option Bool) :
    (p.setResult x result).keyless = p.keyless.setResult x result := by
  obtain ⟨value, flag⟩ := result
  cases flag <;> rfl

/-- Processors that are the same apart from keys differ in their keypads at most. -/
theorem exists_of_keyless_eq (same : p.keyless = q.keyless) :
    ∃ keypad, q = { p with keypad } := by
  obtain ⟨⟩ := p
  obtain ⟨⟩ := q
  cases same
  exact ⟨_, rfl⟩

/-- **An instruction that does not ask for keys does the same**, whatever keys are down. -/
theorem execute_keyless (same : p.keyless = q.keyless) (unread : i.readsKeys = false) :
    (p.execute shift noise i).1 = (q.execute shift noise i).1 ∧
      (p.execute shift noise i).2.keyless = (q.execute shift noise i).2.keyless := by
  obtain ⟨keypad, rfl⟩ := exists_of_keyless_eq same
  cases i
  case ret =>
    simp only [execute]
    cases p.stack.pop? <;> exact ⟨rfl, rfl⟩
  case call target =>
    simp only [execute]
    cases p.stack.push? p.pc <;> exact ⟨rfl, rfl⟩
  case skip condition =>
    cases condition
    case keyDown x | keyUp x => contradiction
    all_goals exact ⟨rfl, rfl⟩
  case combine operation x y =>
    refine ⟨rfl, ?_⟩
    simp only [execute, keyless_advance, keyless_setResult]
    rfl
  all_goals exact ⟨rfl, rfl⟩

/-- A change from outside does the same, whatever keys are down. -/
theorem edit_keyless (same : p.keyless = q.keyless) (change : Edit) :
    (p.edit change).keyless = (q.edit change).keyless := by
  obtain ⟨keypad, rfl⟩ := exists_of_keyless_eq same
  cases change <;> rfl

end Processor

/-! ### Machines apart from keys -/

namespace Machine

variable {m n k : Machine} {operation : Operation} {operations others : List Operation}

/-- An operation that does not have the machine execute an instruction that asks for keys. -/
def IgnoresKeys (m : Machine) (operation : Operation) : Prop :=
  ∀ i ∈ m.executed? operation, i.readsKeys = false

instance (m : Machine) (operation : Operation) : Decidable (m.IgnoresKeys operation) :=
  inferInstanceAs (Decidable (∀ i ∈ m.executed? operation, _))

/-- The responses to what is done besides the events of the keypad. -/
def responsesWithoutKeys (m : Machine) (operations : List Operation) : List (Response Answer) :=
  m.collect (fun m operation => if operation.isKeyEvent then none else some (m.apply operation))
    operations

/-- Two machines that are the same apart from keys and from the entropy that they were built
with. -/
structure AlikeButKeys (m n : Machine) : Prop where
  /-- The settings are the same. -/
  settings : m.settings = n.settings
  /-- The processors are the same apart from keys. -/
  processor : m.processor.keyless = n.processor.keyless
  /-- The gates of the instructions are the same. -/
  clock : m.clock = n.clock
  /-- The gates of the timers are the same. -/
  timer : m.timer = n.timer
  /-- The generators of random bytes are the same. -/
  random : m.random = n.random
  /-- The faults are the same. -/
  fault : m.fault = n.fault

theorem Alike.butKeys (h : m.Alike n) : m.AlikeButKeys n :=
  ⟨h.settings, congrArg Processor.keyless h.processor, h.clock, h.timer, h.random, h.fault⟩

namespace AlikeButKeys

theorem symm (h : m.AlikeButKeys n) : n.AlikeButKeys m :=
  ⟨h.settings.symm, h.processor.symm, h.clock.symm, h.timer.symm, h.random.symm, h.fault.symm⟩

theorem trans (h : m.AlikeButKeys n) (h' : n.AlikeButKeys k) : m.AlikeButKeys k :=
  ⟨h.settings.trans h'.settings, h.processor.trans h'.processor, h.clock.trans h'.clock,
    h.timer.trans h'.timer, h.random.trans h'.random, h.fault.trans h'.fault⟩

theorem setProcessor (h : m.AlikeButKeys n) {p q : Processor} (same : p.keyless = q.keyless) :
    AlikeButKeys { m with processor := p } { n with processor := q } :=
  ⟨h.settings, same, h.clock, h.timer, h.random, h.fault⟩

theorem exists_keypad (h : m.AlikeButKeys n) :
    ∃ keypad, n.processor = { m.processor with keypad } :=
  Processor.exists_of_keyless_eq h.processor

theorem perform (h : m.AlikeButKeys n) {i : Instruction} (unread : i.readsKeys = false) :
    (m.perform i).1 = (n.perform i).1 ∧ (m.perform i).2.AlikeButKeys (n.perform i).2 := by
  have effect {noise : UInt8} :
      (m.processor.execute n.settings.shift noise i).1 =
          (n.processor.execute n.settings.shift noise i).1 ∧
        (m.processor.execute n.settings.shift noise i).2.keyless =
          (n.processor.execute n.settings.shift noise i).2.keyless :=
    Processor.execute_keyless h.processor unread
  simp only [Machine.perform, h.settings, h.random]
  exact ⟨effect.1, rfl, effect.2, h.clock, h.timer, rfl, h.fault⟩

/-- **Machines that are the same apart from keys are driven in lockstep** by words that do not ask
for keys. -/
theorem lockstep :
    Lockstep AlikeButKeys Eq Eq
      fun _ word => ∀ i ∈ Instruction.decode word, i.readsKeys = false where
  fault h := rel_fault_of_eq h.fault
  awaiting h := by
    obtain ⟨keypad, processor⟩ := h.exists_keypad
    rw [processor]
  fetch h := by
    obtain ⟨keypad, processor⟩ := h.exists_keypad
    rw [processor]
    rfl
  clock h := h.clock
  timer h := h.timer
  setClock _ h := ⟨h.settings, h.processor, rfl, h.timer, h.random, h.fault⟩
  setTimer _ h := ⟨h.settings, h.processor, h.clock, rfl, h.random, h.fault⟩
  countDown h := h.setProcessor (congrArg Processor.countDown h.processor)
  silent := rfl
  dispatch {m n} word h unread := by
    have pc : m.processor.pc = n.processor.pc := by
      obtain ⟨keypad, processor⟩ := h.exists_keypad
      rw [processor]
    refine dispatch_related_of_pc_eq h pc ?_ fun i decoded => h.perform (unread i decoded)
    intro _ _ _ next
    exact ⟨next.settings, next.processor, next.clock, next.timer, next.random, rfl⟩

/-- Such machines execute the same, and so they ask for keys at the same time. -/
theorem ignoresKeys_iff (h : m.AlikeButKeys n) :
    m.IgnoresKeys operation ↔ n.IgnoresKeys operation := by
  rw [IgnoresKeys, IgnoresKeys, executed?, executed?, lockstep.dispatched?_eq h]

theorem reset (h : m.AlikeButKeys n) (seeded : m.settings.seed.isSome) :
    m.reset.machine.AlikeButKeys n.reset.machine := by
  -- A reset does not look at the processor.
  have moved : Alike { m with processor := n.processor } n :=
    ⟨h.settings, rfl, h.clock, h.timer, h.random, h.fault⟩
  exact (moved.reset seeded).butKeys

/-- **What is done besides key events does the same**, unless it asks for keys. -/
theorem apply (h : m.AlikeButKeys n) (seeded : m.settings.seed.isSome)
    (common : operation.isKeyEvent = false) (unread : m.IgnoresKeys operation) :
    Response.Related Eq AlikeButKeys Eq (m.apply operation) (n.apply operation) := by
  have executed (executes : operation.Executes) :
      Response.Related Eq AlikeButKeys Eq (m.apply operation) (n.apply operation) :=
    lockstep.apply_of_executed (C := fun _ i => i.readsKeys = false) h executes unread
  have loaded {outcome : Except LoadError (List UInt8)}
      (loads : operation.loading? = some outcome) :
      Response.Related Eq AlikeButKeys Eq (m.apply operation) (n.apply operation) :=
    related_of_loading loads h fun _ => (h.reset seeded).setProcessor rfl
  have painted :
      AlikeButKeys { m with processor := { m.processor with repaint := false } }
        { n with processor := { n.processor with repaint := false } } := by
    obtain ⟨keypad, processor⟩ := h.exists_keypad
    rw [processor]
    exact h.setProcessor rfl
  cases operation with
  | reset => exact ⟨rfl, h.reset seeded, rfl⟩
  | load _ | loadFrom _ | loadFile _ _ => exact loaded rfl
  | step => exact executed .step
  | execute word => exact executed (.execute word)
  | tick now => exact executed (.tick now)
  | pressKey _ | releaseKey _ | releaseKeys => contradiction
  | markPainted => exact ⟨rfl, painted, rfl⟩
  | takeRepaint =>
    obtain ⟨keypad, processor⟩ := h.exists_keypad
    refine ⟨?_, painted, rfl⟩
    simp only [Machine.apply, takeRepaint, processor]
  | edit change =>
    exact ⟨rfl, h.setProcessor (Processor.edit_keyless h.processor change), rfl⟩

end AlikeButKeys

/-- Two machines that are the same apart from keys, and on which no register waits for a key
press. -/
structure Undisturbed (m n : Machine) : Prop where
  /-- The machines are the same apart from keys. -/
  alike : m.AlikeButKeys n
  /-- No register waits. -/
  unblocked : m.processor.awaiting = none

namespace Undisturbed

theorem symm (h : m.Undisturbed n) : n.Undisturbed m :=
  ⟨h.alike.symm, (AlikeButKeys.lockstep.awaiting h.alike).symm.trans h.unblocked⟩

theorem trans (h : m.Undisturbed n) (h' : n.Undisturbed k) : m.Undisturbed k :=
  ⟨h.alike.trans h'.alike, h.unblocked⟩

/-- **A key event does not disturb.** -/
theorem apply_key (h : m.Undisturbed n) (key : operation.isKeyEvent = true) :
    (m.apply operation).machine.Undisturbed n := by
  cases operation with
  | pressKey key =>
    rw [machine_pressKey_of_not_awaiting h.unblocked]
    exact ⟨h.alike.setProcessor h.alike.processor, h.unblocked⟩
  | releaseKey _ | releaseKeys =>
    exact ⟨h.alike.setProcessor h.alike.processor, h.unblocked⟩
  | _ => contradiction

/-- Nor does anything that is done to both machines, unless it asks for keys. -/
theorem apply_common (h : m.Undisturbed n) (seeded : m.settings.seed.isSome)
    (common : operation.isKeyEvent = false) (unread : m.IgnoresKeys operation) :
    Response.Related Eq Undisturbed Eq (m.apply operation) (n.apply operation) := by
  obtain ⟨answer, machine, emitted⟩ := h.alike.apply seeded common unread
  refine ⟨answer, ⟨machine, awaiting_apply h.unblocked fun x executed => ?_⟩, emitted⟩
  have reads := unread _ executed
  contradiction

end Undisturbed

/-! ### Runs without their key events -/

theorem ignoresKeys_of_key (key : operation.isKeyEvent = true) : m.IgnoresKeys operation := by
  cases operation with
  | pressKey _ | releaseKey _ | releaseKeys => exact fun _ executed => nomatch executed
  | _ => contradiction

theorem responsesWithoutKeys_cons_of_key (key : operation.isKeyEvent = true) :
    m.responsesWithoutKeys (operation :: operations) =
      (m.apply operation).machine.responsesWithoutKeys operations :=
  collect_cons_of_none (if_pos key) operations

theorem responsesWithoutKeys_cons_of_common (common : operation.isKeyEvent = false) :
    m.responsesWithoutKeys (operation :: operations) =
      m.apply operation :: (m.apply operation).machine.responsesWithoutKeys operations :=
  collect_cons_of_some (if_neg (by simp [common])) operations

namespace Undisturbed

variable (h : m.Undisturbed n) (seeded : m.settings.seed.isSome)

include h seeded

/-- A run asks for keys if it does so without its key events. -/
theorem along_withoutKeys :
    m.Along IgnoresKeys operations ↔ n.Along IgnoresKeys (Operation.withoutKeys operations) := by
  induction operations generalizing m n with
  | nil => exact Iff.rfl
  | cons operation operations ih =>
    have carried := seeded_apply seeded operation
    cases key : operation.isKeyEvent with
    | true =>
      rw [Operation.withoutKeys_cons_of_key key]
      exact (and_iff_right (ignoresKeys_of_key key)).trans (ih (h.apply_key key) carried)
    | false =>
      rw [Operation.withoutKeys_cons_of_common key]
      -- The machines are known to stay alike only if the operation does not ask for keys.
      have rest (unread : m.IgnoresKeys operation) :=
        ih (h.apply_common seeded key unread).machine carried
      exact (and_congr_right rest).trans (and_congr_left' h.alike.ignoresKeys_iff)

/-- **A run that does not ask for keys does the same without its key events.** -/
theorem responses_withoutKeys (unread : m.Along IgnoresKeys operations) :
    List.Forall₂ (Response.Related Eq Undisturbed Eq) (m.responsesWithoutKeys operations)
        (n.responses (Operation.withoutKeys operations)) ∧
      (m.run operations).Undisturbed (n.run (Operation.withoutKeys operations)) := by
  induction operations generalizing m n with
  | nil => exact ⟨.nil, h⟩
  | cons operation operations ih =>
    have carried := seeded_apply seeded operation
    cases key : operation.isKeyEvent with
    | true =>
      rw [Operation.withoutKeys_cons_of_key key, responsesWithoutKeys_cons_of_key key]
      exact ih (h.apply_key key) carried unread.2
    | false =>
      rw [Operation.withoutKeys_cons_of_common key, responsesWithoutKeys_cons_of_common key]
      have first := h.apply_common seeded key unread.1
      obtain ⟨rest, last⟩ := ih first.machine carried unread.2
      exact ⟨.cons first rest, last⟩

end Undisturbed

/-- Lists that are related to the same list are related to each other if their elements are. -/
theorem forall₂_of_common {α : Type} {R : α → α → Prop} {xs ys zs : List α}
    (meet : ∀ {a b c}, R a c → R b c → R a b) (left : List.Forall₂ R xs zs)
    (right : List.Forall₂ R ys zs) : List.Forall₂ R xs ys := by
  induction left generalizing ys with
  | nil =>
    cases right
    exact .nil
  | cons first _ ih =>
    cases right with
    | cons first' rest' => exact .cons (meet first first') (ih rest')

/-- **Keys leave no trace in a run that does not ask for them.** Let two machines with a seed of
their own be the same apart from keys, with no register that waits for a key press, and do the
same to both, except that the events of the keypad on the way are different ones. If no
instruction that asks for keys is executed in the one run, then none is executed in the other.
What is done besides the events of the keypad has the same answers in both, emits the same
diagnostics, and leaves the machines the same apart from keys each time. -/
theorem keys_leave_no_trace (same : m.Undisturbed n) (seeded : m.settings.seed.isSome)
    (common : Operation.withoutKeys operations = Operation.withoutKeys others)
    (unread : m.Along IgnoresKeys operations) :
    n.Along IgnoresKeys others ∧
      List.Forall₂ (Response.Related Eq Undisturbed Eq) (m.responsesWithoutKeys operations)
        (n.responsesWithoutKeys others) ∧
      (m.run operations).Undisturbed (n.run others) := by
  have seeded' : n.settings.seed.isSome := same.alike.settings ▸ seeded
  have itself : n.Undisturbed n := same.symm.trans same
  -- Both runs are compared to the one without key events, which they have in common.
  obtain ⟨left, last⟩ := same.responses_withoutKeys seeded unread
  have plain := (same.along_withoutKeys seeded).mp unread
  rw [common] at left last plain
  have unread' : n.Along IgnoresKeys others := (itself.along_withoutKeys seeded').mpr plain
  obtain ⟨right, last'⟩ := itself.responses_withoutKeys seeded' unread'
  refine ⟨unread', forall₂_of_common ?_ left right, last.trans last'.symm⟩
  intro r s t h h'
  exact ⟨h.answer.trans h'.answer.symm, h.machine.trans h'.machine.symm,
    h.emitted.trans h'.emitted.symm⟩

/-- A program that draws a random byte, counts, and draws on the screen, and other keys that are
pressed and released while it runs: all that differs in the end is which keys are down. -/
theorem keys_leave_no_trace_drawing :
    let program := [0xC1, 0xFF, 0x72, 0x01, 0xD1, 0x25, 0x12, 0x00]
    let m := (create ⟨.modern, 3, some 7⟩ 0).machine
    let n := ((create ⟨.modern, 3, some 7⟩ 1).machine.apply (.pressKey 4)).machine
    let operations : List Operation :=
      [.load program, .pressKey 1, .step, .releaseKey 1, .tick 10, .pressKey 2, .tick 20, .reset,
        .execute 0xC1FF]
    let others : List Operation :=
      [.pressKey 5, .load program, .step, .tick 10, .releaseKeys, .tick 20, .reset, .pressKey 9,
        .execute 0xC1FF]
    (m.run operations).Undisturbed (n.run others) ∧
      List.Forall₂ (Response.Related Eq Undisturbed Eq) (m.responsesWithoutKeys operations)
        (n.responsesWithoutKeys others) ∧
      (m.run operations).processor.keypad ≠ (n.run others).processor.keypad := by
  intro program m n operations others
  have same : m.Undisturbed n := ⟨⟨rfl, rfl, rfl, rfl, rfl, rfl⟩, rfl⟩
  have common : Operation.withoutKeys operations = Operation.withoutKeys others := by decide
  have unread : m.Along IgnoresKeys operations := by decide +kernel
  obtain ⟨-, responses, last⟩ := keys_leave_no_trace same rfl common unread
  exact ⟨last, responses, by decide +kernel⟩

end Machine

end Chip8
