import Chip8.Proofs.Ticking

/-!
# Random bytes

The random bytes that a machine uses are those of the stream of its seed, one after the
other. The generator works a block ahead, which makes no difference
(`Chip8.RandomStream.draw_after`): what it draws is the byte at its position, and then it is
at the next one.

A machine draws a byte for each random instruction that it executes, and for nothing else
(`Chip8.Machine.random_apply`). So its position in the stream is the number of random
instructions executed since it was started over, whatever else happened, and the main
statement, `Chip8.Machine.random_law`, gives the result of each of them in closed form.
-/

namespace Chip8

/-! ### The position of a generator -/

namespace RandomStream

/-- The generator for a key from which some bytes were drawn. -/
def after (key : ChaCha.Key) (drawn : Nat) : RandomStream :=
  if drawn % 16 = 0 then ⟨key, UInt64.ofNat (drawn / 16), []⟩
  else
    ⟨key, UInt64.ofNat (drawn / 16 + 1),
      (ChaCha.block key (UInt64.ofNat (drawn / 16))).toList.drop (drawn % 16)⟩

theorem ofSeed_eq_after (seed : UInt64) : ofSeed seed = after (Seed.key seed) 0 := rfl

/-- At the beginning of a block, there is nothing left of the one before, -/
theorem after_of_mod_eq_zero {drawn : Nat} (key : ChaCha.Key) (h : drawn % 16 = 0) :
    after key drawn = ⟨key, UInt64.ofNat (drawn / 16), []⟩ :=
  if_pos h

/-- and within a block, there is the rest of it. -/
theorem after_of_mod_ne_zero {drawn : Nat} (key : ChaCha.Key) (h : drawn % 16 ≠ 0) :
    after key drawn =
      ⟨key, UInt64.ofNat (drawn / 16 + 1),
        (ChaCha.block key (UInt64.ofNat (drawn / 16))).toList.drop (drawn % 16)⟩ :=
  if_neg h

/-- A byte that is not the last one of its block leaves the rest of the block. -/
theorem after_succ_of_lt {drawn : Nat} (key : ChaCha.Key) (h : drawn % 16 + 1 < 16) :
    after key (drawn + 1) =
      ⟨key, UInt64.ofNat (drawn / 16 + 1),
        (ChaCha.block key (UInt64.ofNat (drawn / 16))).toList.drop (drawn % 16 + 1)⟩ := by
  have block : (drawn + 1) / 16 = drawn / 16 := by omega
  have place : (drawn + 1) % 16 = drawn % 16 + 1 := by omega
  rw [after_of_mod_ne_zero key (by omega), block, place]

/-- **What a generator draws is the byte at its position**, and then it is at the next one. -/
theorem draw_after (key : ChaCha.Key) (drawn : Nat) :
    (after key drawn).draw = (ChaCha.byteAt key drawn, after key (drawn + 1)) := by
  have small : drawn % 16 < 16 := Nat.mod_lt _ (by decide)
  by_cases first : drawn % 16 = 0
  · -- A new block is generated, of which the first word is drawn at once.
    have counter : UInt64.ofNat (drawn / 16) + 1 = UInt64.ofNat (drawn / 16 + 1) :=
      (UInt64.ofNat_add (drawn / 16) 1).symm
    rw [after_of_mod_eq_zero key first, after_succ_of_lt key (by omega), first]
    simp only [draw, ChaCha.byteAt, first, counter, Nat.zero_add, List.drop_one]
  · have inside : drawn % 16 <
        (ChaCha.block key (UInt64.ofNat (drawn / 16))).toList.length := by
      rw [Vector.length_toList]
      exact small
    have word := List.drop_eq_getElem_cons inside
    rw [Vector.getElem_toList] at word
    rw [after_of_mod_ne_zero key first, word]
    simp only [draw, ChaCha.byteAt]
    congr 1
    by_cases last : drawn % 16 = 15
    · have none_left :
          (ChaCha.block key (UInt64.ofNat (drawn / 16))).toList.drop (drawn % 16 + 1) = [] := by
        rw [last]
        exact List.drop_of_length_le (Nat.le_of_eq Vector.length_toList)
      have block : (drawn + 1) / 16 = drawn / 16 + 1 := by omega
      rw [none_left, after_of_mod_eq_zero key (by omega), block]
    · rw [after_succ_of_lt key (by omega)]

end RandomStream

namespace Machine

variable {m n : Machine} {operation : Operation}

/-! ### Who draws -/

/-- An instruction draws a byte or leaves the generator alone. -/
theorem random_perform (m : Machine) (i : Instruction) :
    (m.perform i).2.random = if i.drawsRandom then m.random.draw.2 else m.random := by
  simp only [perform]
  split <;> rfl

/-- A word draws a byte if its instruction does. -/
theorem random_dispatch (m : Machine) (word : UInt16) :
    (m.dispatch word).machine.random =
      if (Instruction.decode word).any Instruction.drawsRandom then m.random.draw.2
      else m.random := by
  unfold dispatch
  cases Instruction.decode word with
  | none => rfl
  | some i =>
    rw [Option.any_some, ← random_perform]
    rcases performed : m.perform i with ⟨kind | flow, n⟩
    · simp only [performed]
      rfl
    · simp only [performed]

theorem random_tickTimers (m : Machine) (now : Nat) : (m.tickTimers now).random = m.random := by
  rw [tickTimers_eq]

/-- **Bytes are drawn by random instructions and by nothing else**, until the machine is
started over. -/
theorem random_apply (goesOn : ¬operation.Restarts) :
    (m.apply operation).machine.random =
      if (m.executed? operation).any Instruction.drawsRandom then m.random.draw.2
      else m.random := by
  rcases dispatched : m.dispatched? operation with _ | word
  · have idle : m.executed? operation = none := by rw [executed?, dispatched]; rfl
    rw [idle]
    have frozen (executes : operation.Executes) :
        (m.apply operation).machine.random = m.random := by
      rcases machine_apply_of_not_dispatched executes dispatched with same | ⟨clock, now, ticked⟩
      · rw [same]
      · rw [ticked, random_tickTimers]
    cases operation with
    | reset => exact absurd .reset goesOn
    | load _ | loadFrom _ | loadFile _ _ => rw [machine_apply_of_loading rfl goesOn]; rfl
    | step => exact frozen .step
    | execute word => exact frozen (.execute word)
    | tick now => exact frozen (.tick now)
    | _ => rfl
  · have executed : m.executed? operation = Instruction.decode word := by
      rw [executed?, dispatched]
      rfl
    obtain ⟨-, clock, -, -, machine⟩ := response_of_dispatched dispatched
    rw [executed]
    rcases machine with same | ⟨now, ticked⟩
    · rw [same]
      exact random_dispatch _ word
    · rw [ticked, random_tickTimers]
      exact random_dispatch _ word

/-- **After a run, the generator is as many bytes further** as random instructions were
executed. -/
theorem random_run {key : ChaCha.Key} {drawn : Nat} {operations : List Operation}
    (goesOn : ∀ operation ∈ operations, ¬operation.Restarts)
    (stands : m.random = .after key drawn) :
    (m.run operations).random =
      .after key (drawn + (m.instructions operations).countP Instruction.drawsRandom) := by
  induction operations generalizing m drawn with
  | nil => exact stands
  | cons operation operations ih =>
    rw [List.forall_mem_cons] at goesOn
    have moved := m.random_apply goesOn.1
    have instructions : m.instructions (operation :: operations) =
        (m.executed? operation).toList ++ (m.apply operation).machine.instructions operations := rfl
    rw [run_cons, instructions, List.countP_append]
    cases draws : (m.executed? operation).any Instruction.drawsRandom with
    | true =>
      have next : (m.apply operation).machine.random = .after key (drawn + 1) := by
        rw [moved, draws, if_pos rfl, stands, RandomStream.draw_after]
      have one : (m.executed? operation).toList.countP Instruction.drawsRandom = 1 := by
        obtain ⟨i, executed, random⟩ := (Option.any_eq_true ..).mp draws
        rw [executed, Option.toList_some, List.countP_singleton, if_pos random]
      rw [ih goesOn.2 next, one, Nat.add_assoc]
    | false =>
      have next : (m.apply operation).machine.random = .after key drawn := by
        rw [moved, draws, if_neg Bool.false_ne_true, stands]
      have zero : (m.executed? operation).toList.countP Instruction.drawsRandom = 0 := by
        rcases executed : m.executed? operation with _ | i
        · rfl
        · rw [executed, Option.any_some] at draws
          simp [draws]
      rw [ih goesOn.2 next, zero, Nat.zero_add]

/-! ### What is drawn -/

/-- A random instruction puts the next byte into its register, under its mask. -/
theorem registers_apply_of_random {x : Register} {mask : UInt8}
    (executed : m.executed? operation = some (.random x mask)) :
    (m.apply operation).machine.processor.registers =
      (m.processor.setRegister x (mask &&& m.random.draw.1)).registers := by
  obtain ⟨word, dispatched, decoded⟩ := Option.bind_eq_some_iff.mp executed
  obtain ⟨-, clock, -, processor⟩ := apply_of_dispatched dispatched
  have result : (({ m with clock } : Machine).dispatch word).machine.processor =
      (m.processor.setRegister x (mask &&& m.random.draw.1)).advance 2 := by
    simp only [dispatch, decoded, perform, Instruction.drawsRandom, if_true, Processor.execute]
  rcases processor with same | counted
  · rw [same, result]
    rfl
  · rw [counted, result]
    rfl

/-- **The random bytes follow the stream of the seed.** Take a machine with a seed of its own
at its start, and anything that is done to it without starting it over. Its generator has
drawn as many bytes as random instructions were executed, so the next one puts the byte at this
position of the stream into its register, under its mask, whatever the ones before did with
theirs. No operation that has no random instruction executed draws a byte. -/
theorem random_law (starts : n.Starts) {seed : UInt64} (seeded : n.settings.seed = some seed)
    {operations : List Operation} (goesOn : ∀ operation ∈ operations, ¬operation.Restarts) :
    let m := n.run operations
    let drawn := (n.instructions operations).countP Instruction.drawsRandom
    m.random = .after (Seed.key seed) drawn ∧
      (∀ operation x mask, m.executed? operation = some (.random x mask) →
        (m.apply operation).machine.processor.registers =
          (m.processor.setRegister x
            (mask &&& ChaCha.byteAt (Seed.key seed) drawn)).registers) ∧
      ∀ operation : Operation, ¬operation.Restarts →
        (∀ x mask, m.executed? operation ≠ some (.random x mask)) →
        (m.apply operation).machine.random = m.random := by
  intro m drawn
  have stands : m.random = .after (Seed.key seed) drawn := by
    have begun : n.random = .after (Seed.key seed) 0 := by
      rw [starts.random seeded, RandomStream.ofSeed_eq_after]
    have moved := random_run goesOn begun
    rwa [Nat.zero_add] at moved
  refine ⟨stands, ?_, ?_⟩
  · intro operation x mask executed
    rw [registers_apply_of_random executed, stands, RandomStream.draw_after]
  · intro operation goesOn other
    have silent : (m.executed? operation).any Instruction.drawsRandom = false := by
      rcases executed : m.executed? operation with _ | i
      · rfl
      · cases i with
        | random x mask => exact absurd executed (other x mask)
        | _ => rfl
    rw [random_apply goesOn, silent, if_neg Bool.false_ne_true]

/-- Sixteen random instructions use up a block, although their masks leave nothing of the
bytes; then the processor is replaced, a file is not there, and a time is noted. The next random
instruction gets the first byte of the next block, and a word that is no instruction draws
none. -/
theorem random_law_block :
    let settings : Settings := { Settings.standard with seed := some 7 }
    let n := (create settings 0).machine
    let operations : List Operation :=
      List.replicate 16 (.execute 0xC000) ++
        [.edit .replace, .loadFile "game" (.error .notFound), .tick 5]
    (n.run operations).executed? (.execute 0xC50F) = some (.random 5 0x0F) ∧
      ((n.run operations).apply (.execute 0xC50F)).machine.processor.registers =
        ((n.run operations).processor.setRegister 5 (0x0F &&& 167)).registers ∧
      ((n.run operations).apply (.execute 0xFFFF)).machine.random = (n.run operations).random := by
  intro settings n operations
  have goesOn : ∀ operation ∈ operations, ¬operation.Restarts := by decide +kernel
  have executed : (n.run operations).executed? (.execute 0xC50F) = some (.random 5 0x0F) := by
    decide +kernel
  have drawn : (n.instructions operations).countP Instruction.drawsRandom = 16 := by
    decide +kernel
  have byte : ChaCha.byteAt (Seed.key 7) 16 = 167 := by decide +kernel
  obtain ⟨-, next, others⟩ := random_law (n := n) (.new settings 0) rfl goesOn
  rw [drawn, byte] at next
  have unknown (x : Register) (mask : UInt8) :
      (n.run operations).executed? (.execute 0xFFFF) ≠ some (.random x mask) := by
    have none : (n.run operations).executed? (.execute 0xFFFF) = none := by decide +kernel
    rw [none]
    exact nofun
  have kept := others (.execute 0xFFFF) (by decide) unknown
  exact ⟨executed, next _ _ _ executed, kept⟩

end Machine

end Chip8
