import Chip8.Proofs.Mnemonic
import Chip8.Proofs.Ticking

/-!
# The trace of a machine can be replayed

A machine that is stepped gives an account of itself: a line for each word that decodes, with
the program counter and the mnemonic, and a line for a fault. The main statement is
`Chip8.Machine.trace_replays`. The lines are the accounts of the words that are executed, one
after the other (`Chip8.Execution.account`), and nothing else; every word can be read off its
account (`Chip8.Diagnostic.word?`); and a machine in the same state that is given these words
responds as the first one did.

Once a machine is not ready, stepping it does nothing (`Chip8.Machine.Stalls`), so the words
are executed by the first steps of a run, and the other steps do nothing
(`Chip8.Machine.responses_steps`).
-/

namespace Chip8

/-! ### Reading the lines of a trace -/

namespace Diagnostic

/-- The word that a line of a trace tells of. Lines of executed words are told by the mnemonic
after the program counter; a fault adds a word only where there is no such line, because the
word was no instruction. -/
def word? (line : Diagnostic) : Option UInt16 :=
  match line.level, tokensOf line.message with
  | .trace, _ :: tokens => (Instruction.ofTokens? tokens).map Instruction.encode
  | .error, ["unsupported", "opcode", digits, _, _] =>
    (ofDigits? 16 digits.toList).map UInt16.ofNat
  | _, _ => none

/-- The words that the lines of a trace tell of. -/
def words (lines : List Diagnostic) : List UInt16 := lines.filterMap word?

end Diagnostic

/-- The tokens of what is said of a fault are those of the reason, and four more. -/
theorem Fault.tokensOf_message (fault : Fault) :
    tokensOf fault.message =
      tokensOf fault.kind.text ++
        [upperHex 4 fault.word.toNat, "at", "0x" ++ upperHex 4 fault.pc.toNat] := by
  have place : IsToken ("0x" ++ upperHex 4 fault.pc.toNat) :=
    IsToken.append (by decide) (isToken_upperHex 4 _)
  have preposition : IsToken "at" := by decide
  have blanks : fault.message = fault.kind.text ++ " " ++ upperHex 4 fault.word.toNat ++ " " ++
      "at" ++ " " ++ ("0x" ++ upperHex 4 fault.pc.toNat) := by
    have split : " at 0x" = " " ++ "at" ++ " " ++ "0x" := rfl
    simp only [message, split, String.append_assoc]
  rw [blanks, tokensOf_blank, tokensOf_blank, tokensOf_blank, tokensOf_of_isToken place,
    tokensOf_of_isToken preposition, tokensOf_of_isToken (isToken_upperHex 4 _)]
  simp only [List.append_assoc, List.cons_append, List.nil_append]

namespace Diagnostic

/-- What is said of a word that is no instruction tells the word. -/
theorem word?_of_unknown (pc word : UInt16) :
    word? ⟨.error, (Fault.mk .unknownInstruction pc word).message⟩ = some word := by
  have reason : tokensOf FaultKind.unknownInstruction.text = ["unsupported", "opcode"] := by
    decide +kernel
  have small : word.toNat < UInt64.size := Nat.lt_trans word.toNat_lt (by decide)
  simp only [word?, Fault.tokensOf_message, reason, List.cons_append, List.nil_append,
    ofDigits?_upperHex 4 small, Option.map_some, UInt16.ofNat_toNat]

/-- What is said of another fault tells no word. -/
theorem word?_of_known {fault : Fault} (known : fault.kind ≠ .unknownInstruction) :
    word? ⟨.error, fault.message⟩ = none := by
  have reason : tokensOf fault.kind.text = ["call", "stack", "overflow"] ∨
      tokensOf fault.kind.text = ["call", "stack", "underflow"] := by
    rcases h : fault.kind with _ | _ | _
    · exact absurd h known
    · exact Or.inl (by decide +kernel)
    · exact Or.inr (by decide +kernel)
  rcases reason with reason | reason
  · simp [word?, Fault.tokensOf_message, reason]
  · simp [word?, Fault.tokensOf_message, reason]

end Diagnostic

namespace Machine

/-- **The line that precedes an instruction tells the word of the instruction.** -/
theorem word?_traceOf (m : Machine) (i : Instruction) :
    (m.traceOf i).word? = some i.encode := by
  have place : IsToken (upperHex 4 m.processor.pc.toNat ++ ":") :=
    (isToken_upperHex 4 _).append (by decide)
  have blank : (m.traceOf i).message =
      upperHex 4 m.processor.pc.toNat ++ ":" ++ " " ++ i.mnemonic := by
    have split : ": " = ":" ++ " " := rfl
    simp only [traceOf, split, String.append_assoc]
  have tokens : tokensOf (m.traceOf i).message =
      (upperHex 4 m.processor.pc.toNat ++ ":") :: tokensOf i.mnemonic := by
    rw [blank, tokensOf_blank, tokensOf_of_isToken place]
    rfl
  have level : (m.traceOf i).level = .trace := rfl
  simp only [Diagnostic.word?, level, tokens, Instruction.ofTokens?_mnemonic, Option.map_some]

end Machine

/-! ### The account of a word -/

namespace Execution

/-- The account that a machine gives of a word it executes: the mnemonic, if the word is an
instruction, and then the fault, if there is one. -/
def account (e : Execution) : List Diagnostic :=
  ((Instruction.decode e.word).map e.machine.traceOf).toList ++
    match (e.machine.dispatch e.word).answer with
    | .ok _ => []
    | .error fault => [⟨.error, fault.message⟩]

/-- The account of a word is all that is emitted when it is executed. -/
theorem emitted_dispatch (e : Execution) : (e.machine.dispatch e.word).emitted = e.account := by
  unfold account Machine.dispatch
  cases Instruction.decode e.word with
  | none => rfl
  | some i =>
    rcases performed : e.machine.perform i with ⟨kind | flow, n⟩
    · simp only [performed]
      rfl
    · simp only [performed]
      rfl

/-- **The account of a word tells this word, and only once.** -/
theorem words_account (e : Execution) : Diagnostic.words e.account = [e.word] := by
  obtain ⟨m, word⟩ := e
  unfold account Diagnostic.words
  rcases m.dispatch_cases word with
    ⟨kind, emitted, refused, halted⟩ | ⟨i, flow, n, decoded, -, done⟩
  · have answer : (m.dispatch word).answer = .error ⟨kind, m.processor.pc, word⟩ := by
      rw [halted]
      rfl
    have justified := refused.isJustified m.processor.pc
    simp only [answer]
    cases decoded : Instruction.decode word with
    | none =>
      obtain rfl : kind = .unknownInstruction := justified.unknown.mpr decoded
      simp [Diagnostic.word?_of_unknown]
    | some i =>
      -- The line of the mnemonic tells the word, so the one of the fault must not.
      have known : (Fault.mk kind m.processor.pc word).kind ≠ .unknownInstruction := by
        intro unknown
        have undecoded := justified.unknown.mp unknown
        simp [decoded] at undecoded
      have silent := Diagnostic.word?_of_known known
      simp [m.word?_traceOf, Instruction.encode_of_decode decoded, silent]
  · simp only [done, decoded]
    simp [m.word?_traceOf, Instruction.encode_of_decode decoded]

/-- The account of a word has a line for the fault, if the word stops the machine. -/
theorem count_errors_account (e : Execution) (unstopped : e.machine.fault = none) :
    e.account.countP (fun line => line.level = .error) =
      if (e.machine.dispatch e.word).machine.fault = none then 0 else 1 := by
  obtain ⟨m, word⟩ := e
  have mnemonic : ((Instruction.decode word).map m.traceOf).toList.countP
      (fun line => line.level = .error) = 0 := by
    cases Instruction.decode word with
    | none => rfl
    | some i => rfl
  rw [account, List.countP_append, mnemonic, Nat.zero_add]
  rcases m.dispatch_cases word with ⟨kind, emitted, -, halted⟩ | ⟨i, flow, n, -, performed, done⟩
  · simp only [halted, Machine.halt]
    rfl
  · have kept := m.fault_perform i
    rw [performed] at kept
    simp only [done]
    rw [if_pos (kept.trans unstopped)]
    rfl

end Execution

namespace Machine

variable {m n : Machine}

/-! ### Stepping -/

/-- As many steps. -/
def steps (count : Nat) : List Operation := List.replicate count .step

/-- The lines that are emitted along a run. -/
def transcript (m : Machine) (operations : List Operation) : List Diagnostic :=
  (m.responses operations).flatMap Response.emitted

/-- The response to a step that does nothing. -/
inductive Stalls (m : Machine) : Response Answer → Prop where
  /-- A machine that was stopped says so. -/
  | halted {fault : Fault} (stopped : m.fault = some fault) :
    Stalls m ⟨.failed (.halted fault), m, []⟩
  /-- A machine on which a register waits for a key press says so. -/
  | blocked {x : Register} (unstopped : m.fault = none)
      (waits : m.processor.awaiting = some x) :
    Stalls m ⟨.flow .awaitKey, m, []⟩

/-- A machine that is ready executes the word at its program counter in a step. -/
theorem apply_step_of_isReady (ready : m.IsReady) :
    m.apply .step = (m.dispatch m.processor.fetch).map .ofExecution := by
  simp only [apply, step, execute_of_isReady ready]

/-- A machine that is not ready does nothing in a step. -/
theorem stalls_of_not_isReady (blocked : ¬m.IsReady) : m.Stalls (m.apply .step) := by
  rcases Option.eq_none_or_eq_some m.fault with hf | ⟨fault, hf⟩
  · rcases Option.eq_none_or_eq_some m.processor.awaiting with hw | ⟨x, hw⟩
    · exact absurd ⟨hf, hw⟩ blocked
    · have answered : m.apply .step = ⟨.flow .awaitKey, m, []⟩ := by
        simp only [apply, step, execute, hf, hw]
        rfl
      rw [answered]
      exact .blocked hf hw
  · rw [apply_of_executes hf .step]
    exact .halted hf

theorem Stalls.machine_eq {r : Response Answer} (h : m.Stalls r) : r.machine = m := by
  cases h with
  | halted stopped => rfl
  | blocked unstopped waits => rfl

theorem Stalls.emitted_eq {r : Response Answer} (h : m.Stalls r) : r.emitted = [] := by
  cases h with
  | halted stopped => rfl
  | blocked unstopped waits => rfl

theorem steps_zero : steps 0 = [] := rfl

theorem steps_succ (count : Nat) : steps (count + 1) = .step :: steps count := rfl

/-- Once a machine is not ready, no further step does anything. -/
theorem responses_steps_of_not_isReady (blocked : ¬m.IsReady) (count : Nat) :
    m.run (steps count) = m ∧ m.executions (steps count) = [] ∧
      ∀ r ∈ m.responses (steps count), m.Stalls r := by
  have stalls := stalls_of_not_isReady blocked
  have silent := dispatched?_step_eq_none_iff.mpr blocked
  induction count with
  | zero =>
    rw [steps_zero]
    exact ⟨rfl, rfl, List.forall_mem_nil _⟩
  | succ count ih =>
    obtain ⟨run, executions, idle⟩ := ih
    rw [steps_succ, run_cons, responses, executions_cons_of_none silent, stalls.machine_eq,
      List.forall_mem_cons]
    exact ⟨run, executions, stalls, idle⟩

/-- The operations that execute the words of a run again. -/
def replay (m : Machine) (operations : List Operation) : List Operation :=
  (m.executions operations).map fun e => .execute e.word

/-- **The words are executed by the first steps of a run**, and the other steps do nothing. -/
theorem responses_steps (m : Machine) (count : Nat) :
    m.run (steps count) = m.run (m.replay (steps count)) ∧
      ∃ idle, m.responses (steps count) = m.responses (m.replay (steps count)) ++ idle ∧
        ∀ r ∈ idle, (m.run (steps count)).Stalls r := by
  induction count generalizing m with
  | zero =>
    rw [steps_zero]
    exact ⟨rfl, [], rfl, List.forall_mem_nil _⟩
  | succ count ih =>
    by_cases ready : m.IsReady
    · obtain ⟨run, idle, responses, stalls⟩ := ih (m.apply .step).machine
      have dispatched : m.dispatched? .step = some m.processor.fetch := if_pos ready
      have replayed : m.replay (steps (count + 1)) =
          .execute m.processor.fetch :: (m.apply .step).machine.replay (steps count) := by
        rw [replay, steps_succ, executions_cons_of_some dispatched]
        rfl
      -- A step is the execution of the word at the program counter.
      have same : m.apply (.execute m.processor.fetch) = m.apply .step := rfl
      rw [replayed, steps_succ, run_cons, run_cons, Machine.responses, Machine.responses, same]
      exact ⟨run, idle, congrArg (m.apply .step :: ·) responses, stalls⟩
    · obtain ⟨run, executions, idle⟩ := responses_steps_of_not_isReady ready (count + 1)
      rw [replay, executions, run]
      exact ⟨rfl, _, rfl, idle⟩

theorem transcript_steps_of_not_isReady (blocked : ¬m.IsReady) (count : Nat) :
    m.transcript (steps count) = [] := by
  obtain ⟨-, -, idle⟩ := responses_steps_of_not_isReady blocked count
  rw [transcript, List.flatMap_eq_nil_iff]
  exact fun r stalls => (idle r stalls).emitted_eq

theorem transcript_steps_succ (ready : m.IsReady) (count : Nat) :
    m.transcript (steps (count + 1)) =
      (Execution.mk m m.processor.fetch).account ++
        (m.apply .step).machine.transcript (steps count) := by
  have emitted : (m.apply .step).emitted = (Execution.mk m m.processor.fetch).account := by
    rw [apply_step_of_isReady ready]
    exact (Execution.mk m m.processor.fetch).emitted_dispatch
  rw [← emitted]
  rfl

/-- **The lines of a run are the accounts of the words that it executes.** -/
theorem transcript_steps (m : Machine) (count : Nat) :
    m.transcript (steps count) =
      (m.executions (steps count)).flatMap Execution.account := by
  induction count generalizing m with
  | zero => rfl
  | succ count ih =>
    by_cases ready : m.IsReady
    · have dispatched : m.dispatched? .step = some m.processor.fetch := if_pos ready
      rw [transcript_steps_succ ready, ih, steps_succ, executions_cons_of_some dispatched,
        List.flatMap_cons]
    · obtain ⟨-, executions, -⟩ := responses_steps_of_not_isReady ready (count + 1)
      rw [transcript_steps_of_not_isReady ready, executions, List.flatMap_nil]

/-- **There is a line for a fault when the machine is stopped**, and no other one. -/
theorem count_errors_transcript (m : Machine) (count : Nat) :
    (m.transcript (steps count)).countP (fun line => line.level = .error) =
      if (m.run (steps count)).fault = m.fault then 0 else 1 := by
  induction count generalizing m with
  | zero =>
    rw [steps_zero, run_nil, if_pos rfl]
    rfl
  | succ count ih =>
    by_cases ready : m.IsReady
    · have errors := (Execution.mk m m.processor.fetch).count_errors_account ready.unstopped
      have next : (m.apply .step).machine = (m.dispatch m.processor.fetch).machine := by
        rw [apply_step_of_isReady ready]
        rfl
      rw [← next] at errors
      rw [transcript_steps_succ ready, List.countP_append, errors, ih, steps_succ, run_cons,
        ready.unstopped]
      rcases Option.eq_none_or_eq_some (m.apply .step).machine.fault with hf | ⟨fault, hf⟩
      · rw [hf, if_pos rfl, Nat.zero_add]
      · -- After a fault, the steps that are left do nothing.
        obtain ⟨run, -, -⟩ := responses_steps_of_not_isReady (not_isReady_of_fault hf) count
        rw [run, hf, if_pos rfl]
        rfl
    · obtain ⟨run, -, -⟩ := responses_steps_of_not_isReady ready (count + 1)
      rw [transcript_steps_of_not_isReady ready, run, if_pos rfl]
      rfl

/-- **The words of a run can be read off its lines.** -/
theorem words_transcript (m : Machine) (count : Nat) :
    Diagnostic.words (m.transcript (steps count)) =
      (m.executions (steps count)).map Execution.word := by
  rw [transcript_steps, Diagnostic.words, List.filterMap_flatMap]
  induction m.executions (steps count) with
  | nil => rfl
  | cons first others ih =>
    rw [List.flatMap_cons, List.map_cons, ih]
    exact congrArg (· ++ _) first.words_account

/-- Machines that are alike execute words alike. -/
theorem Alike.responses_execute (same : m.Alike n) (words : List UInt16) :
    List.Forall₂ (Response.Related Eq Alike Eq) (m.responses (words.map .execute))
      (n.responses (words.map .execute)) := by
  have step (m n : Machine) (operation : Operation) (executes : ∃ word, .execute word = operation)
      (same : m.Alike n) :
      Response.Related Eq Alike Eq (m.apply operation) (n.apply operation) := by
    obtain ⟨word, rfl⟩ := executes
    exact lockstep.apply_of_executes same (.execute word) fun _ _ => trivial
  have executes : ∀ operation ∈ words.map Operation.execute, ∃ word, .execute word = operation := by
    intro operation member
    obtain ⟨word, -, same⟩ := List.mem_map.mp member
    exact ⟨word, same⟩
  exact (forall₂_responses step (fun _ _ related => related.machine) _ executes same).1

/-- **The trace of a machine is complete, and can be replayed.** Step a machine as often as
you like. The lines that are emitted are the accounts of the words that are executed, in their
order: a line for every word that decodes, with the program counter in four digits and the
mnemonic, and after it a line for the fault, if there is one, which is the only such line of the
run. No two words have the same mnemonic, and the words can be read off the lines. Executing
these words one by one on the machine gives the same responses as stepping it, as long as it
executes anything: the same answers, the same machines and the same lines. All further steps
leave the machine as it is, emit nothing, and say why. On another machine that is the same but
for the entropy it was built with, the words do the same. -/
theorem trace_replays (m : Machine) (count : Nat) :
    let lines := m.transcript (steps count)
    let words := Diagnostic.words lines
    lines = (m.executions (steps count)).flatMap Execution.account ∧
    (∀ pc : UInt16, (upperHex 4 pc.toNat).length = 4) ∧
    lines.countP (fun line => line.level = .error) =
      (if (m.run (steps count)).fault = m.fault then 0 else 1) ∧
    words = (m.executions (steps count)).map Execution.word ∧
    (∀ w v i j, Instruction.decode w = some i → Instruction.decode v = some j →
      i.mnemonic = j.mnemonic → w = v) ∧
    m.run (steps count) = m.run (words.map .execute) ∧
    (∃ idle, m.responses (steps count) = m.responses (words.map .execute) ++ idle ∧
      ∀ r ∈ idle, (m.run (steps count)).Stalls r) ∧
    ∀ n, m.Alike n →
      List.Forall₂ (Response.Related Eq Alike Eq) (m.responses (words.map .execute))
        (n.responses (words.map .execute)) := by
  intro lines words
  have read : words = (m.executions (steps count)).map Execution.word := m.words_transcript count
  have replayed : m.replay (steps count) = words.map .execute := by
    rw [read, List.map_map]
    rfl
  obtain ⟨run, responses⟩ := m.responses_steps count
  rw [replayed] at run responses
  exact ⟨m.transcript_steps count, length_upperHex_word, m.count_errors_transcript count, read,
    fun _ _ _ _ hi hj same => Instruction.eq_of_mnemonic_eq hi hj same, run, responses,
    fun _ same => same.responses_execute words⟩

/-- A program that sets a register, draws a random byte and runs into a word that is no
instruction, stepped five times: two of its words are told by their mnemonics and the third by
the fault, and the machine fails to execute anything after them. -/
theorem trace_replays_unknown :
    let settings : Settings := { Settings.standard with seed := some 7 }
    let m := (create settings 0).machine.run [.load [0x60, 0x05, 0xC1, 0x0F]]
    let lines : List Diagnostic :=
      [⟨.trace, "0200: LD v0, 5"⟩, ⟨.trace, "0202: RND v1, 15"⟩,
        ⟨.error, "unsupported opcode 0000 at 0x0204"⟩]
    m.transcript (steps 5) = lines ∧ Diagnostic.words lines = [0x6005, 0xC10F, 0x0000] ∧
      m.run (steps 5) = m.run [.execute 0x6005, .execute 0xC10F, .execute 0x0000] := by
  intro settings m lines
  have emitted : m.transcript (steps 5) = lines := by decide +kernel
  have executed : (m.executions (steps 5)).map Execution.word = [0x6005, 0xC10F, 0x0000] := by
    decide +kernel
  obtain ⟨-, -, -, read, -, run, -, -⟩ := m.trace_replays 5
  rw [executed] at read
  rw [read] at run
  rw [emitted] at read
  exact ⟨emitted, read, run⟩

end Machine

end Chip8
