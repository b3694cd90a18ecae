import Chip8.Proofs.Effects
import Chip8.Proofs.RandomBytes

/-!
# What instructions leave alone

Every part of a machine is changed by few instructions, and `Chip8.Machine.Frame` says of each
part by which: whatever else an instruction is, it leaves the part alone. For memory this goes
down to single bytes (`Chip8.Processor.Stores`), for registers to single registers
(`Chip8.Instruction.Writes`).

The main statement is `Chip8.Machine.instructions_stay_local`. Besides this law it has what
follows from it for runs: a byte of memory that is not as it was loaded has been stored by some
instruction that was executed, and so the font is there for as long as a program does not store
anything where it lies.
-/

namespace Chip8

/-! ### Instructions by what they change -/

/-- The operations that set the flag register. -/
def Arithmetic.hasFlag : Arithmetic → Bool
  | copy | or | and | xor => false
  | add | subtract | shiftRight | subtractFrom | shiftLeft => true

namespace Instruction

/-- The instructions that paint on the screen. -/
def paints : Instruction → Bool
  | clearScreen | draw _ _ _ => true
  | _ => false

/-- The instructions that open or close a call. -/
def links : Instruction → Bool
  | ret | call _ => true
  | _ => false

/-- The instructions that set the index register. -/
def pointsIndex : Instruction → Bool
  | setIndex _ | addIndex _ | pointGlyph _ => true
  | _ => false

/-- The number of bytes that an instruction stores. -/
def storeCount : Instruction → Nat
  | storeDigits _ => 3
  | store x => x.val + 1
  | _ => 0

/-- The registers that an instruction sets. -/
def Writes : Instruction → Register → Prop
  | loadByte x _, r | addByte x _, r | random x _, r | readDelay x, r => r = x
  | combine operation x _, r => r = x ∨ operation.hasFlag ∧ r = flagRegister
  | draw _ _ _, r => r = flagRegister
  | load x, r => r ≤ x
  | _, _ => False

end Instruction

namespace Processor

/-- An instruction stores a byte at an address, which is to say, at one of so many addresses from
the index register on. -/
def Stores (p : Processor) (i : Instruction) (address : Nat) : Prop :=
  ∃ k < i.storeCount, (p.index.toNat + k) % 4096 = address % 4096

instance (p : Processor) (i : Instruction) (address : Nat) : Decidable (p.Stores i address) :=
  inferInstanceAs (Decidable (∃ k < i.storeCount, _))

/-- What an instruction leaves alone: every part of a processor, unless the instruction is one of
those that change it. -/
structure Frame (p : Processor) (i : Instruction) (q : Processor) : Prop where
  /-- Memory, where no byte is stored. -/
  memory : ∀ address, ¬p.Stores i address → q.memory.read address = p.memory.read address
  /-- The screen, and whether it is due to be painted. -/
  screen : i.paints = false → q.screen = p.screen ∧ q.repaint = p.repaint
  /-- The open calls. -/
  stack : i.links = false → q.stack = p.stack
  /-- The index register. -/
  index : i.pointsIndex = false → q.index = p.index
  /-- The delay timer. -/
  delay : (∀ x, i ≠ .setDelay x) → q.delay = p.delay
  /-- The sound timer. -/
  sound : (∀ x, i ≠ .setSound x) → q.sound = p.sound
  /-- The register that waits for a key press. -/
  awaiting : (∀ x, i ≠ .awaitKey x) → q.awaiting = p.awaiting
  /-- The registers that are not set. -/
  register : ∀ r, ¬i.Writes r → q.register r = p.register r
  /-- The keys. -/
  keypad : q.keypad = p.keypad

variable {p q : Processor} {shift : ShiftRule} {noise : UInt8} {i : Instruction} {flow : Flow}

/-! ### Registers -/

theorem register_setRegister (p : Processor) (x r : Register) (value : UInt8) :
    (p.setRegister x value).register r = if r = x then value else p.register r := by
  simp only [register, setRegister, Fin.getElem_fin, Vector.getElem_set, Fin.ext_iff, eq_comm]

theorem register_setRegister_of_ne {x r : Register} (apart : r ≠ x) (value : UInt8) :
    (p.setRegister x value).register r = p.register r := by
  rw [register_setRegister, if_neg apart]

theorem isSome_flag (operation : Arithmetic) (a b : UInt8) :
    (operation.apply shift a b).2.isSome = operation.hasFlag := by
  cases operation <;> rfl

/-- A result goes to its register, and its flag, if it has one, to the flag register. -/
theorem register_setResult_of_ne {x r : Register} {result : UInt8 × Option Bool} (apart : r ≠ x)
    (unflagged : result.2.isSome → r ≠ flagRegister) :
    (p.setResult x result).register r = p.register r := by
  obtain ⟨value, flag⟩ := result
  cases flag with
  | none => exact register_setRegister_of_ne apart value
  | some flag =>
    rw [setResult, register_setRegister_of_ne apart, setFlag,
      register_setRegister_of_ne (unflagged rfl)]

/-- Registers are loaded from where the index register points, each from its place. -/
theorem register_loadRegisters (p : Processor) (x r : Register) :
    (p.loadRegisters x).register r =
      if r ≤ x then p.memory.read (p.index.toNat + r.val) else p.register r := by
  simp only [loadRegisters, register, Fin.getElem_fin, Vector.getElem_ofFn, Fin.eta]

/-- Registers beyond the last one to be loaded are left alone. -/
theorem register_loadRegisters_of_not_le {x r : Register} (beyond : ¬r ≤ x) :
    (p.loadRegisters x).register r = p.register r := by
  rw [register_loadRegisters, if_neg beyond]

/-- **An instruction sets no registers but its own.** -/
theorem register_execute (h : p.execute shift noise i = (.ok flow, q)) {r : Register}
    (other : ¬i.Writes r) : q.register r = p.register r := by
  cases i
  case ret =>
    obtain ⟨-, site, stack, -, rfl⟩ := execute_ret h
    rfl
  case call target =>
    obtain ⟨-, stack, -, rfl⟩ := execute_call h
    rfl
  case combine operation x y =>
    cases h
    obtain ⟨apart, unflagged⟩ := not_or.mp other
    refine register_setResult_of_ne apart fun flagged => ?_
    rw [isSome_flag] at flagged
    exact fun flag => unflagged ⟨flagged, flag⟩
  case load x =>
    cases h
    exact register_loadRegisters_of_not_le other
  case loadByte | addByte | random | readDelay | draw =>
    cases h
    exact register_setRegister_of_ne other _
  all_goals
    cases h
    rfl

/-! ### The frame of an instruction -/

theorem length_stored_eq (p : Processor) (i : Instruction) :
    (p.stored i).length = i.storeCount := by
  cases i with
  | store x =>
    rw [stored, List.length_take, Vector.length_toList]
    exact Nat.min_eq_left x.isLt
  | _ => rfl

/-- **An instruction stores no bytes but its own.** -/
theorem read_execute (h : p.execute shift noise i = (.ok flow, q)) {address : Nat}
    (other : ¬p.Stores i address) : q.memory.read address = p.memory.read address := by
  have few := p.length_stored i
  rw [memory_execute h, Memory.read_writeBytes_of_disjoint (by omega)]
  intro k stored here
  rw [length_stored_eq] at stored
  exact other ⟨k, stored, here⟩

/-- What is to be said of the screen, the index register and the timers. -/
theorem rest_execute (h : p.execute shift noise i = (.ok flow, q)) :
    (i.paints = false → q.screen = p.screen ∧ q.repaint = p.repaint) ∧
      (i.pointsIndex = false → q.index = p.index) ∧
      ((∀ x, i ≠ .setDelay x) → q.delay = p.delay) ∧
      ((∀ x, i ≠ .setSound x) → q.sound = p.sound) := by
  cases i
  case ret =>
    obtain ⟨-, site, stack, -, rfl⟩ := execute_ret h
    simp
  case call target =>
    obtain ⟨-, stack, -, rfl⟩ := execute_call h
    simp
  case combine operation x y =>
    cases h
    rw [setResult_eq]
    simp [advance]
  all_goals
    cases h
    simp [Instruction.paints, Instruction.pointsIndex, advance, clearScreen, setRegister,
      drawSprite, setFlag, storeBytes, loadRegisters]

theorem stack_execute (h : p.execute shift noise i = (.ok flow, q)) (other : i.links = false) :
    q.stack = p.stack := by
  rcases execute_stack_cases h with ⟨rfl, -⟩ | ⟨⟨target, rfl⟩, -⟩ | ⟨-, -, kept⟩
  · contradiction
  · contradiction
  · exact kept

/-- **What the execution of an instruction leaves alone.** -/
theorem frame_execute (h : p.execute shift noise i = (.ok flow, q)) : p.Frame i q := by
  obtain ⟨screen, index, delay, sound⟩ := rest_execute h
  exact {
    memory := fun _ other => read_execute h other
    screen
    stack := stack_execute h
    index
    delay
    sound
    awaiting := awaiting_execute h
    register := fun _ other => register_execute h other
    keypad := keypad_execute h }

end Processor

/-- The word that is executed is one that stores a byte at an address. -/
def Execution.Stores (e : Execution) (address : Nat) : Prop :=
  ∃ i, Instruction.decode e.word = some i ∧ e.machine.processor.Stores i address

instance (e : Execution) (address : Nat) : Decidable (e.Stores address) :=
  inferInstanceAs (Decidable (∃ i, Instruction.decode e.word = some i ∧ _))

namespace Machine

variable {m n : Machine} {operation : Operation} {operations : List Operation}

/-! ### Single instructions -/

/-- What an instruction leaves alone on a machine. -/
structure Frame (m : Machine) (i : Instruction) (n : Machine) : Prop where
  /-- The parts of the processor that it does not change. -/
  processor : m.processor.Frame i n.processor
  /-- The random bytes, unless it draws one. -/
  random : i.drawsRandom = false → n.random = m.random
  /-- Everything else: the gates, the fault, and the choices made for the machine. -/
  rest : n = { m with processor := n.processor, random := n.random }

theorem frame_perform {i : Instruction} {flow : Flow} (h : m.perform i = (.ok flow, n)) :
    m.Frame i n where
  processor := by
    obtain ⟨noise, executed⟩ := execute_of_perform h
    exact Processor.frame_execute executed
  random quiet := by
    have drawn := m.random_perform i
    rwa [h, quiet, if_neg Bool.false_ne_true] at drawn
  rest := perform_frame h

/-- What a word leaves alone on a machine that executes it, if it can be executed. -/
theorem frame_execute (ready : m.IsReady) {word : UInt16} {flow : Flow}
    (succeeds : (m.execute word).answer = .ok flow) :
    ∃ i, Instruction.decode word = some i ∧ m.Frame i (m.execute word).machine := by
  rw [execute_of_isReady ready] at succeeds ⊢
  rcases dispatch_cases m word with
    ⟨kind, emitted, -, halted⟩ | ⟨i, _, n, decoded, performed, done⟩
  · rw [halted] at succeeds
    contradiction
  · rw [done]
    exact ⟨i, decoded, frame_perform performed⟩

/-! ### Memory along a run -/

variable {address : Nat}

/-- An operation that drives a machine changes a byte of memory only by an instruction that stores
one there, -/
theorem read_apply (drives : operation.Drives)
    (other : ∀ i, m.executed? operation = some i → ¬m.processor.Stores i address) :
    (m.apply operation).machine.processor.memory.read address =
      m.processor.memory.read address :=
  apply_of_isSteady (I := fun p => p.memory.read address = m.processor.memory.read address)
    (Processor.isSteady_memory (·.read address = m.processor.memory.read address)) drives
    (fun found executed => Processor.read_execute executed (other _ found)) rfl

/-- and so does a run. -/
theorem read_run (drives : ∀ operation ∈ operations, operation.Drives)
    (other : ∀ e ∈ m.executions operations, ¬e.Stores address) :
    (m.run operations).processor.memory.read address = m.processor.memory.read address := by
  induction operations generalizing m with
  | nil => rfl
  | cons operation operations ih =>
    rw [List.forall_mem_cons] at drives
    have first : (m.apply operation).machine.processor.memory.read address =
        m.processor.memory.read address := by
      refine read_apply drives.1 fun i executed stores => ?_
      obtain ⟨word, dispatched, decoded⟩ := Option.bind_eq_some_iff.mp executed
      rw [executions_cons_of_some dispatched] at other
      exact other _ List.mem_cons_self ⟨i, decoded, stores⟩
    refine (ih drives.2 fun e member => other e ?_).trans first
    exact List.mem_append_right _ member

/-- **Instructions change nothing but what they are there to change.** A word that a machine
executes with success leaves alone all that its instruction does not change. So after a program is
loaded, and for as long as the machine is only driven, a byte of memory that is not as it was
loaded has been stored by an instruction that was executed; and if none stores a byte below the
end of the font, the font is still there. -/
theorem instructions_stay_local (m : Machine) :
    (∀ word flow, m.IsReady → (m.execute word).answer = .ok flow →
      ∃ i, Instruction.decode word = some i ∧ m.Frame i (m.execute word).machine) ∧
    ∀ load program operations, load.loading? = some (.ok program) →
      (∀ operation ∈ operations, operation.Drives) →
      let n := (m.apply load).machine
      (∀ address, (n.run operations).processor.memory.read address ≠
          n.processor.memory.read address →
        ∃ e ∈ n.executions operations, e.Stores address) ∧
      ((∀ e ∈ n.executions operations, ∀ address < 80, ¬e.Stores address) →
        ∀ address < 80,
          Font.bytes[address]? = some ((n.run operations).processor.memory.read address)) := by
  refine ⟨fun word flow ready succeeds => frame_execute ready succeeds, ?_⟩
  intro load program operations loads drives n
  refine ⟨fun address differs => ?_, fun spared address low => ?_⟩
  · by_contra never
    exact differs (read_run drives fun e member stores => never ⟨e, member, stores⟩)
  · rw [read_run drives fun e member => spared e member address low]
    exact (isLoaded_of_loading loads).font address low

/-- A program stores two registers at the last address, the second of which goes to the first
glyph of the font. Another one stores the first register alone, and spares the font. The sum that
overflows leaves all registers but its own and the flag register as they were. -/
theorem instructions_stay_local_round :
    let m := (create .standard 0).machine
    let n := (m.apply (.load [0xAF, 0xFF, 0xF1, 0x55])).machine
    let k := (m.apply (.load [0xAF, 0xFF, 0xF0, 0x55])).machine
    (∃ e ∈ n.executions [.step, .step], e.Stores 0) ∧
      (∀ address < 80, Font.bytes[address]? =
        some ((k.run [.step, .step]).processor.memory.read address)) ∧
      ∀ r : Register, r ≠ 3 → r ≠ flagRegister →
        (m.execute 0x8344).machine.processor.register r = m.processor.register r := by
  intro m n k
  have drives : ∀ operation ∈ [Operation.step, .step], operation.Drives :=
    List.forall_mem_cons.mpr ⟨.step, List.forall_mem_singleton.mpr .step⟩
  obtain ⟨single, runs⟩ := instructions_stay_local m
  obtain ⟨stored, -⟩ := runs (.load [0xAF, 0xFF, 0xF1, 0x55]) _ _ rfl drives
  obtain ⟨-, spared⟩ := runs (.load [0xAF, 0xFF, 0xF0, 0x55]) _ _ rfl drives
  refine ⟨stored 0 (by decide +kernel), spared (by decide +kernel), fun r apart unflagged => ?_⟩
  obtain ⟨i, decoded, frame⟩ := single 0x8344 .next ⟨rfl, rfl⟩ (by decide +kernel)
  have sum : Instruction.decode 0x8344 = some (.combine .add 3 4) := by decide +kernel
  obtain rfl := Option.some.inj (decoded.symm.trans sum)
  refine frame.processor.register r fun written => ?_
  rcases written with here | ⟨-, flag⟩
  · exact apart here
  · exact unflagged flag

end Machine

end Chip8
