import Chip8.Proofs.Flow
import Mathlib.Algebra.Group.Nat.Even

/-!
# Even addresses

Words have two bytes, programs start at an even address, and a machine that does not jump moves
on by two bytes or by four. So a program that jumps to even addresses only has all its words at
even addresses. The main statement, `Chip8.Machine.stays_aligned`, is that this holds along every
run: the program counter is even, and a word is never taken from the last byte of memory and the
first.

The program counter alone does not carry this, for a return goes on after an address from the
stack. The invariant is that the open calls are at even addresses as well
(`Chip8.Processor.IsAligned`). No instruction breaks it but those that jump to an address of
their own, which `Chip8.Processor.destination?` tells beforehand; and that the program counter
wraps at the end of its range makes no difference, since the range is even.
-/

namespace Chip8

/-- Even numbers have an even sum, also where it wraps. -/
theorem even_toNat_add {a b : UInt16} (ha : Even a.toNat) (hb : Even b.toNat) :
    Even (a + b).toNat := by
  rw [Nat.even_iff] at ha hb ⊢
  rw [UInt16.toNat_add]
  omega

/-- The program counter has room for every target. -/
theorem toNat_ofNat_target (target : Target) : (UInt16.ofNat target.val).toNat = target.val :=
  UInt16.toNat_ofNat_of_lt' (Nat.lt_trans target.isLt (by decide))

namespace Processor

/-! ### Where instructions jump to -/

/-- The address that an instruction sets the program counter to, if it jumps to one of its own
choice. A return does not, and a call without room on the stack does not jump at all. -/
def destination? (p : Processor) : Instruction → Option Nat
  | .jump target => some target.val
  | .call target => if p.stack.depth = CallStack.capacity then none else some target.val
  | .jumpOffset target => some (target.val + (p.register offsetRegister).toNat)
  | _ => none

/-- The program counter and all open calls are at even addresses. -/
structure IsAligned (p : Processor) : Prop where
  /-- The program counter is. -/
  pc : Even p.pc.toNat
  /-- The open calls are. -/
  calls : ∀ site ∈ p.stack.toList, Even site.toNat

variable {p q : Processor} {shift : ShiftRule} {noise : UInt8} {i : Instruction} {flow : Flow}

/-- An instruction that jumps goes where it has been said to, unless it is a return. -/
theorem destination?_eq (h : p.execute shift noise i = (.ok flow, q)) (jumps : i.jumps = true)
    (other : i ≠ .ret) : p.destination? i = some q.pc.toNat := by
  cases i
  case ret => contradiction
  case jump target =>
    cases h
    exact congrArg some (toNat_ofNat_target target).symm
  case call target =>
    obtain ⟨-, stack, pushed, rfl⟩ := execute_call h
    rw [destination?, if_neg (CallStack.depth_ne_of_push? pushed)]
    exact congrArg some (toNat_ofNat_target target).symm
  case jumpOffset target =>
    cases h
    -- The sum of an address and a byte does not wrap.
    have small := (p.register offsetRegister).toNat_lt
    rw [destination?, UInt16.toNat_add, toNat_ofNat_target, UInt8.toNat_toUInt16, Nat.mod_eq_of_lt]
    omega
  all_goals contradiction

/-! ### One instruction -/

/-- **An instruction keeps a processor aligned**, if it does not jump to an odd address. -/
theorem IsAligned.execute (h : p.IsAligned) (executed : p.execute shift noise i = (.ok flow, q))
    (evenly : ∀ target ∈ p.destination? i, Even target) : q.IsAligned where
  pc := by
    by_cases jumps : i.jumps = true
    · rcases execute_stack_cases executed with
        ⟨-, -, site, calls, pc⟩ | ⟨⟨target, rfl⟩, -⟩ | ⟨other, -, -⟩
      · -- The return goes on after a call that was open.
        have wasOpen : site ∈ p.stack.toList := by simp [calls]
        rw [pc]
        exact even_toNat_add (h.calls site wasOpen) (by decide)
      · exact evenly _ (destination?_eq executed jumps nofun)
      · exact evenly _ (destination?_eq executed jumps other)
    · by_cases wait : ∃ x, i = .awaitKey x
      · obtain ⟨x, rfl⟩ := wait
        rw [(execute_awaitKey executed).1]
        exact h.pc
      · rw [pc_execute executed (Bool.eq_false_iff.mpr jumps) (not_exists.mp wait)]
        refine even_toNat_add h.pc ?_
        split <;> decide
  calls := by
    intro site opened
    rcases execute_stack_cases executed with ⟨-, -, top, calls, -⟩ | ⟨-, calls⟩ | ⟨-, -, stack⟩
    · refine h.calls site ?_
      rw [calls]
      exact List.mem_append_left _ opened
    · rw [calls, List.mem_append, List.mem_singleton] at opened
      rcases opened with before | rfl
      · exact h.calls site before
      · exact h.pc
    · rw [stack] at opened
      exact h.calls site opened

/-- A key press can move the program counter by one instruction. -/
theorem isSteady_isAligned : IsSteady IsAligned where
  countDown _ h := ⟨h.pc, h.calls⟩
  pressKey p key h := by
    refine ⟨?_, ?_⟩
    · cases waits : p.awaiting with
      | none =>
        rw [pressKey_of_not_awaiting waits]
        exact h.pc
      | some x =>
        rw [pressKey_of_awaiting waits]
        exact even_toNat_add h.pc (by decide)
    · rw [stack_pressKey]
      exact h.calls
  releaseKey _ _ h := ⟨h.pc, h.calls⟩
  releaseKeys _ h := ⟨h.pc, h.calls⟩

/-- **An aligned processor takes a word from two bytes next to each other**, the first of which is
at an even address. -/
theorem IsAligned.fetch_eq (h : p.IsAligned) :
    ∃ address, ∃ inside : address + 1 < 4096, Even address ∧ address = p.pc.toNat % 4096 ∧
      p.fetch = Word.ofBytes p.memory.cells[address] p.memory.cells[address + 1] := by
  have even := h.pc
  rw [Nat.even_iff] at even
  have inside : p.pc.toNat % 4096 + 1 < 4096 := by omega
  have next : (p.pc.toNat + 1) % 4096 = p.pc.toNat % 4096 + 1 := by omega
  refine ⟨p.pc.toNat % 4096, inside, ?_, rfl, ?_⟩
  · rw [Nat.even_iff]
    omega
  · simp only [fetch, Memory.readWord, Memory.read, next]

end Processor

namespace Machine

variable {m n : Machine} {operation : Operation} {operations : List Operation}

/-! ### Faults -/

/-- A fault that stops a machine names the program counter. -/
theorem fault_apply_cases (drives : operation.Drives) :
    (m.apply operation).machine.fault = m.fault ∨
      ∃ fault, (m.apply operation).machine.fault = some fault ∧ fault.pc = m.processor.pc := by
  cases dispatched : m.dispatched? operation with
  | none =>
    refine Or.inl ?_
    cases drives
    case pressKey | releaseKey | releaseKeys => rfl
    all_goals
      rcases machine_apply_of_not_dispatched (by constructor) dispatched with
        same | ⟨clock, now, ticked⟩
      · rw [same]
      · rw [ticked, tickTimers_eq]
  | some word =>
    obtain ⟨-, clock, -, -, machine⟩ := response_of_dispatched dispatched
    have fault : (m.apply operation).machine.fault =
        (({ m with clock } : Machine).dispatch word).machine.fault := by
      rcases machine with same | ⟨now, ticked⟩
      · rw [same]
      · rw [ticked, tickTimers_eq]
    rw [fault]
    rcases dispatch_cases { m with clock } word with
      ⟨kind, emitted, -, halted⟩ | ⟨i, flow, n, -, performed, done⟩
    · rw [halted]
      exact Or.inr ⟨_, rfl, rfl⟩
    · rw [done, perform_frame performed]
      exact Or.inl rfl

/-! ### One operation -/

/-- If an operation has a machine jump to an address, the address is even. -/
def JumpsEvenly (m : Machine) (operation : Operation) : Prop :=
  ∀ target ∈ (m.executed? operation).bind m.processor.destination?, Even target

instance (m : Machine) (operation : Operation) : Decidable (m.JumpsEvenly operation) :=
  inferInstanceAs (Decidable (∀ target ∈ (m.executed? operation).bind _, Even target))

/-- The processor is aligned, and if there is a fault, it is at an even address. -/
structure IsAligned (m : Machine) : Prop where
  /-- The processor is aligned. -/
  processor : m.processor.IsAligned
  /-- A fault is at an even address. -/
  fault : ∀ fault, m.fault = some fault → Even fault.pc.toNat

/-- A machine is aligned at its start, -/
theorem Starts.isAligned (starts : n.Starts) : n.IsAligned := by
  obtain ⟨memory, same⟩ := starts.exists_memory
  have start : n.processor = { Processor.powerOn with memory } := congrArg processor same
  have unstopped : n.fault = none := starts.isReady.unstopped
  refine ⟨⟨?_, ?_⟩, ?_⟩
  · rw [start]
    exact ⟨0x100, rfl⟩
  · rw [start]
    exact nofun
  · rw [unstopped]
    exact nofun

/-- **and it stays aligned when it is driven**, if it does not jump to an odd address. -/
theorem IsAligned.apply (h : m.IsAligned) (drives : operation.Drives)
    (evenly : m.JumpsEvenly operation) : (m.apply operation).machine.IsAligned where
  processor := by
    refine apply_of_isSteady Processor.isSteady_isAligned drives ?_ h.processor
    intro i noise flow q found executed
    refine h.processor.execute executed fun target destination => evenly target ?_
    rw [found]
    exact destination
  fault := by
    intro fault stopped
    rcases fault_apply_cases (m := m) drives with same | ⟨other, stops, pc⟩
    · rw [same] at stopped
      exact h.fault fault stopped
    · obtain rfl := Option.some.inj (stopped.symm.trans stops)
      rw [pc]
      exact h.processor.pc

/-! ### Whole runs -/

/-- **A machine that jumps to even addresses only is always at one.** From a start of the machine
on, for as long as it is only driven and nothing that it executes has it jump to an odd address,
the program counter and the addresses of all open calls are even, and so is the address of a fault
that stops it. So the word that it would execute next is always made of two bytes at an even address
and the one after it, and does not go round the end of memory. -/
theorem stays_aligned (starts : n.Starts)
    (along : n.Along (fun m operation => operation.Drives ∧ m.JumpsEvenly operation) operations)
    {first : List Operation} (reached : first <+: operations) :
    let m := n.run first
    Even m.processor.pc.toNat ∧ (∀ site ∈ m.calls, Even site.toNat) ∧
      (∀ fault, m.fault = some fault → Even fault.pc.toNat) ∧
      ∃ address, ∃ inside : address + 1 < 4096, Even address ∧
        address = m.processor.pc.toNat % 4096 ∧
        m.processor.fetch =
          Word.ofBytes m.processor.memory.cells[address] m.processor.memory.cells[address + 1] := by
  intro m
  have aligned : m.IsAligned :=
    (along.beginning reached).run_induction (fun _ _ evenly h => h.apply evenly.1 evenly.2)
      starts.isAligned
  exact ⟨aligned.processor.pc, aligned.processor.calls, aligned.fault, aligned.processor.fetch_eq⟩

/-- A program calls a subroutine, which passes over an instruction and returns, waits for a key
press, and comes to a word that is no instruction. -/
theorem stays_aligned_round :
    let program : List UInt8 :=
      [0x22, 0x08, 0xF3, 0x0A, 0xFF, 0xFF, 0, 0, 0x30, 0x00, 0, 0, 0x00, 0xEE]
    let n := ((create .standard 0).machine.apply (.load program)).machine
    let operations : List Operation :=
      [.tick 0, .tick 20, .step, .step, .step, .pressKey 5, .step]
    (n.run (operations.take 3)).calls = [0x200] ∧
      (∀ site ∈ (n.run (operations.take 3)).calls, Even site.toNat) ∧
      (n.run operations).fault = some ⟨.unknownInstruction, 0x204, 0xFFFF⟩ ∧
      Even (n.run operations).processor.pc.toNat ∧
      ∃ address, ∃ inside : address + 1 < 4096, Even address ∧
        address = (n.run operations).processor.pc.toNat % 4096 ∧
        (n.run operations).processor.fetch =
          Word.ofBytes (n.run operations).processor.memory.cells[address]
            (n.run operations).processor.memory.cells[address + 1] := by
  intro program n operations
  have starts : n.Starts := .again ⟨.standard, 0, [], rfl⟩ (.loads rfl)
  have drives : ∀ operation ∈ operations, operation.Drives := by
    simp only [operations, List.forall_mem_cons]
    exact ⟨.tick 0, .tick 20, .step, .step, .step, .pressKey 5, .step, List.forall_mem_nil _⟩
  obtain ⟨evenly, called, stopped⟩ : n.Along JumpsEvenly operations ∧
      (n.run (operations.take 3)).calls = [0x200] ∧
      (n.run operations).fault = some ⟨.unknownInstruction, 0x204, 0xFFFF⟩ := by
    decide +kernel
  have along := (along_of_forall drives n).and evenly
  obtain ⟨-, calls, -, -⟩ := stays_aligned starts along (List.take_prefix 3 operations)
  obtain ⟨pc, -, -, fetch⟩ := stays_aligned starts along List.prefix_rfl
  exact ⟨called, calls, stopped, pc, fetch⟩

end Machine

end Chip8
