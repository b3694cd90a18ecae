import Chip8.Proofs.Effects
import Chip8.Proofs.Loading
import Chip8.Proofs.Text

/-!
# A listing shows what is executed

A listing is made from the bytes of a program, two at a time, while the machine reads words
from its memory wherever its program counter points. As long as the program does not write
over itself, the two agree, which is `Chip8.Machine.listing_agrees`: the line for an address
shows the word that is executed there and the mnemonic that stands in the trace, or question
marks if the machine knows no such instruction.

The invariant is that memory holds the program (`Chip8.Memory.Holds`). Loading establishes
it, and every operation that goes on with the machine keeps it, unless it executes an
instruction that stores bytes where the program lies
(`Chip8.Machine.SparesProgram`).
-/

namespace Chip8

/-! ### Lines and places -/

namespace Listing

/-- The lines of a listing are for two bytes each. -/
theorem getElem?_linesAt {address i : Nat} {program : List UInt8} {high low : UInt8}
    (hh : program[2 * i]? = some high) (hl : program[2 * i + 1]? = some low) :
    (linesAt address program)[i]? = some (.word (address + 2 * i) (Word.ofBytes high low)) := by
  induction i generalizing address program with
  | zero =>
    rcases program with _ | ⟨a, _ | ⟨b, rest⟩⟩
    · contradiction
    · contradiction
    · cases hh
      cases hl
      rfl
  | succ i ih =>
    rcases program with _ | ⟨a, _ | ⟨b, rest⟩⟩
    · contradiction
    · contradiction
    · have next : (linesAt (address + 2) rest)[i]? = some _ := ih hh hl
      rw [linesAt, List.getElem?_cons_succ, next]
      congr 2
      omega

/-- A last byte that has no partner has the last line. -/
theorem getElem?_linesAt_last {address i : Nat} {program : List UInt8} {last : UInt8}
    (odd : program.length = 2 * i + 1) (found : program[2 * i]? = some last) :
    (linesAt address program)[i]? = some (.byte (address + 2 * i) last) := by
  induction i generalizing address program with
  | zero =>
    obtain ⟨only, rfl⟩ := List.length_eq_one_iff.mp odd
    cases found
    rfl
  | succ i ih =>
    rcases program with _ | ⟨a, _ | ⟨b, rest⟩⟩
    · contradiction
    · contradiction
    · have shorter : rest.length = 2 * i + 1 := by
        rw [List.length_cons, List.length_cons] at odd
        omega
      have next : (linesAt (address + 2) rest)[i]? = some _ := ih shorter found
      rw [linesAt, List.getElem?_cons_succ, next]
      congr 2
      omega

/-- The text of a line that a listing has for two bytes. -/
theorem getElem?_linesOf_ofProgram {i : Nat} {program : List UInt8} {high low : UInt8}
    (hh : program[2 * i]? = some high) (hl : program[2 * i + 1]? = some low) :
    (linesOf (ofProgram program))[i]? =
      some (ListingLine.word (0x200 + 2 * i) (Word.ofBytes high low)).text := by
  have line : (lines program)[i]? = some _ := getElem?_linesAt hh hl
  have inside : i < (lines program).length := (List.getElem?_eq_some_iff.mp line).1
  rw [ofProgram, linesOf_text, List.getElem?_append_left (by simpa using inside),
    List.getElem?_map, line]
  rfl

end Listing

/-! ### Memory that holds a program -/

/-- Memory that holds a program where programs start. -/
def Memory.Holds (m : Memory) (program : List UInt8) : Prop :=
  ∀ place < program.length, program[place]? = some (m.read (0x200 + place))

namespace Processor

/-- An instruction that stores no byte where a program lies. -/
def SparesProgram (p : Processor) (size : Nat) (i : Instruction) : Prop :=
  ∀ k < (p.stored i).length,
    ¬(0x200 ≤ (p.index.toNat + k) % 4096 ∧ (p.index.toNat + k) % 4096 < 0x200 + size)

instance (p : Processor) (size : Nat) (i : Instruction) : Decidable (p.SparesProgram size i) :=
  inferInstanceAs (Decidable (∀ k < (p.stored i).length, _))

variable {p q : Processor} {shift : ShiftRule} {noise : UInt8} {i : Instruction} {flow : Flow}

/-- An instruction that stores no byte where a program lies leaves it in memory. -/
theorem holds_execute {program : List UInt8} (fits : program.length ≤ Memory.programCapacity)
    (held : p.memory.Holds program) (h : p.execute shift noise i = (.ok flow, q))
    (spares : p.SparesProgram program.length i) : q.memory.Holds program := by
  have size : program.length ≤ 3584 := fits
  have few := p.length_stored i
  intro place inside
  rw [held place inside, memory_execute h, Memory.read_writeBytes_of_disjoint (by omega)]
  intro k stored same
  have apart := spares k stored
  rw [same] at apart
  omega

end Processor

namespace Machine

variable {m : Machine} {operation : Operation} {word : UInt16} {program : List UInt8}

/-- An operation that executes no instruction by which bytes are stored where a program
lies. -/
def SparesProgram (size : Nat) (m : Machine) (operation : Operation) : Prop :=
  ∀ i, m.executed? operation = some i → m.processor.SparesProgram size i

/-- **A program stays in memory** under an operation that goes on with the machine, unless
an instruction writes over it. -/
theorem holds_apply (fits : program.length ≤ Memory.programCapacity)
    (continues : operation.Continues) (spares : m.SparesProgram program.length operation)
    (held : m.processor.memory.Holds program) :
    (m.apply operation).machine.processor.memory.Holds program := by
  cases continues with
  | drives drives =>
    exact apply_of_isSteady (Processor.isSteady_memory (·.Holds program)) drives
      (fun found executed => Processor.holds_execute fits held executed (spares _ found)) held
  | markPainted => exact held
  | takeRepaint => exact held
  | loadsNothing loads =>
    rw [machine_apply_of_loadsNothing loads]
    exact held

/-- A program that was loaded is in memory. -/
theorem holds_load (fits : program.length ≤ Memory.programCapacity) (m : Machine) :
    (m.load program).machine.processor.memory.Holds program := by
  rw [(m.load_of_fits fits).2]
  exact (Memory.isLoaded_loadProgram fits).stored

/-! ### Words that are fetched -/

/-- What the machine reads at a place within a program that memory holds. -/
theorem fetch_of_holds (held : m.processor.memory.Holds program) {i : Nat}
    (place : m.processor.pc.toNat = 0x200 + 2 * i) (inside : 2 * i + 1 < program.length) :
    ∃ high low, program[2 * i]? = some high ∧ program[2 * i + 1]? = some low ∧
      m.processor.fetch = Word.ofBytes high low := by
  refine ⟨_, _, held (2 * i) (by omega), held (2 * i + 1) inside, ?_⟩
  rw [Processor.fetch, Memory.readWord, place, Nat.add_assoc]

/-! ### What is shown of a word -/

/-- A machine traces the words that decode, and no others. -/
theorem trace_dispatch (m : Machine) (word : UInt16) :
    (m.dispatch word).emitted.filter (fun d => d.level = .trace) =
      ((Instruction.decode word).map m.traceOf).toList := by
  cases decoded : Instruction.decode word with
  | none =>
    simp only [dispatch, decoded]
    rfl
  | some i =>
    simp only [dispatch, decoded]
    rcases m.perform i with ⟨kind | flow, n⟩
    · rfl
    · rfl

/-- A machine finds an instruction unknown if its word does not decode. -/
theorem answer_dispatch_of_unknown (m : Machine) (unknown : Instruction.decode word = none) :
    (m.dispatch word).answer = .error ⟨.unknownInstruction, m.processor.pc, word⟩ := by
  simp only [dispatch, unknown]
  rfl

/-- Only words that do not decode are found to be unknown. -/
theorem decode_eq_none_of_unknown {fault : Fault}
    (failed : (m.dispatch word).answer = .error fault)
    (unknown : fault.kind = .unknownInstruction) : Instruction.decode word = none := by
  rcases dispatch_cases m word with
    ⟨kind, emitted, refused, halted⟩ | ⟨i, flow, n, -, -, done⟩
  · rw [halted] at failed
    cases failed
    obtain rfl : kind = .unknownInstruction := unknown
    exact refused
  · rw [done] at failed
    cases failed

/-- The trace of a word has what a listing shows of it. -/
theorem trace_dispatch_shown (m : Machine) (word : UInt16) :
    (m.dispatch word).emitted.filter (fun d => d.level = .trace) =
      if Instruction.shown word = "??" then []
      else [⟨.trace, upperHex 4 m.processor.pc.toNat ++ ": " ++ Instruction.shown word⟩] := by
  rw [trace_dispatch]
  unfold Instruction.shown
  cases Instruction.decode word with
  | none => rfl
  | some i => simp [i.mnemonic_ne_unknown, traceOf]

/-! ### Listing and machine -/

/-- **A listing shows what the machine executes.** Take a program that fits, any machine
that loaded it, and any operations that go on with the machine, none of which executes an
instruction that stores bytes where the program lies. If an operation then executes the word
at the program counter, and this is the place of two bytes of the program, the listing of
the program has a line for it, with the address, the word and a text. The text is question
marks when the machine finds the instruction unknown, and otherwise stands in the trace. -/
theorem listing_agrees (fits : program.length ≤ Memory.programCapacity) (m : Machine)
    {operations : List Operation}
    (along : (m.load program).machine.Along
      (fun n operation => operation.Continues ∧ n.SparesProgram program.length operation)
      operations)
    (dispatched : ((m.load program).machine.run operations).dispatched? operation = some word)
    (fetches : ∀ given, operation ≠ .execute given) {i : Nat}
    (place : ((m.load program).machine.run operations).processor.pc.toNat = 0x200 + 2 * i)
    (inside : 2 * i + 1 < program.length) :
    let r := (m.load program).machine.run operations
    word = r.processor.fetch ∧ ∃ text,
      (linesOf (Listing.ofProgram program))[i]? =
        some ("0x" ++ upperHex 4 r.processor.pc.toNat ++ " " ++ upperHex 4 word.toNat ++ " " ++
          text) ∧
      (text = "??" → (r.apply operation).answer =
        .failed (.halted ⟨.unknownInstruction, r.processor.pc, word⟩)) ∧
      (∀ fault, (r.apply operation).answer = .failed (.halted fault) →
        fault.kind = .unknownInstruction → text = "??") ∧
      (r.apply operation).emitted.filter (fun d => d.level = .trace) =
        if text = "??" then []
        else [⟨.trace, upperHex 4 r.processor.pc.toNat ++ ": " ++ text⟩] := by
  intro r
  have held : r.processor.memory.Holds program :=
    along.run_induction (I := fun n => n.processor.memory.Holds program)
      (fun _ _ calm held => holds_apply fits calm.1 calm.2 held) (holds_load fits m)
  have fetched : word = r.processor.fetch := dispatched?_eq_fetch dispatched fetches
  obtain ⟨high, low, hh, hl, read⟩ := fetch_of_holds held place inside
  -- Whether the gate of the instructions moved makes no difference to what is said.
  obtain ⟨-, clock, answer, emitted, -⟩ := response_of_dispatched dispatched
  refine ⟨fetched, Instruction.shown word, ?_, ?_, ?_, ?_⟩
  · rw [Listing.getElem?_linesOf_ofProgram hh hl, ← read, ← fetched, ← place]
    rfl
  · intro unknown
    rw [answer, answer_dispatch_of_unknown _ (Instruction.shown_eq_unknown_iff.mp unknown)]
    rfl
  · intro fault failed unknown
    rw [answer] at failed
    have refused := Answer.eq_error_of_ofExecution failed
    exact Instruction.shown_eq_unknown_iff.mpr (decode_eq_none_of_unknown refused unknown)
  · rw [emitted, trace_dispatch_shown]

/-- A program stores a register behind itself, and runs into bytes that are no instruction. -/
theorem listing_agrees_unknown :
    let program : List UInt8 := [0xA3, 0x00, 0xF0, 0x55, 0xFF, 0xFF]
    let r := ((create .standard 0).machine.load program).machine.run [.step, .step]
    r.dispatched? .step = some 0xFFFF ∧
      (linesOf (Listing.ofProgram program))[2]? = some "0x0204 FFFF ??" ∧
      (r.apply .step).answer = .failed (.halted ⟨.unknownInstruction, 0x204, 0xFFFF⟩) := by
  intro program r
  let m := ((create .standard 0).machine.load program).machine
  have first : m.executed? .step = some (.setIndex 0x300) := by decide +kernel
  have second : (m.apply .step).machine.executed? .step = some (.store 0) := by decide +kernel
  have along : m.Along
      (fun n operation => operation.Continues ∧ n.SparesProgram program.length operation)
      [.step, .step] := by
    refine ⟨⟨.drives .step, ?_⟩, ⟨.drives .step, ?_⟩, trivial⟩
    · intro i executed
      obtain rfl := Option.some.inj (first.symm.trans executed)
      decide +kernel
    · intro i executed
      obtain rfl := Option.some.inj (second.symm.trans executed)
      decide +kernel
  have dispatched : r.dispatched? .step = some 0xFFFF := by decide +kernel
  have place : r.processor.pc.toNat = 0x200 + 2 * 2 := by decide +kernel
  have answer : (r.apply .step).answer =
      .failed (.halted ⟨.unknownInstruction, 0x204, 0xFFFF⟩) := by decide +kernel
  obtain ⟨-, text, line, -, unknown, -⟩ :=
    listing_agrees (by decide) _ along dispatched nofun place (by decide)
  obtain rfl := unknown _ answer rfl
  refine ⟨dispatched, ?_, answer⟩
  rw [line, place]
  decide +kernel

end Machine

end Chip8
