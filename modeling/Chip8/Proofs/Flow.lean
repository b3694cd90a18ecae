import Chip8.Proofs.Frame
import Chip8.Proofs.Soundness

/-!
# What an answer tells

A machine that has executed something answers with what it did, so that whoever drives it can
react without looking at it: paint when something was drawn, sound a tone when the sound timer was
set, stop asking when it waits for a key press. The answer is made on the way and not read off the
machine, and the main statement, `Chip8.Machine.flow_tells`, is that it can be trusted.
`Chip8.Machine.Tells` lists what it says, in both directions: an answer that something was drawn
means that the screen may be another one, and any other answer that it is not.

For single instructions the answer is a matter of the instruction alone
(`Chip8.Processor.flow_execute`), and so is how far the machine moves on, up to whether a condition
holds (`Chip8.Processor.pc_execute`). What the instructions with another answer leave alone is
known from their frames.
-/

namespace Chip8

/-! ### Instructions by what they answer -/

namespace Instruction

/-- The instructions that set the program counter to a new address. -/
def jumps : Instruction → Bool
  | ret | jump _ | call _ | jumpOffset _ => true
  | _ => false

/-- What is answered when an instruction has been executed. -/
def flow : Instruction → Flow
  | clearScreen | draw _ _ _ => .draw
  | ret | jump _ | call _ | jumpOffset _ => .jump
  | awaitKey _ => .awaitKey
  | setSound _ => .sound
  | _ => .next

variable {i : Instruction}

theorem flow_eq_draw_iff : i.flow = .draw ↔ i.paints = true := by
  cases i <;> simp [flow, paints]

theorem flow_eq_jump_iff : i.flow = .jump ↔ i.jumps = true := by
  cases i <;> simp [flow, jumps]

theorem flow_eq_awaitKey_iff : i.flow = .awaitKey ↔ ∃ x, i = .awaitKey x := by
  cases i <;> simp [flow]

theorem flow_ne_idle (i : Instruction) : i.flow ≠ .idle := by
  cases i <;> exact nofun

end Instruction

namespace Processor

/-- Whether an instruction passes over the next one: it is a skip, and its condition holds. -/
def passesOver (p : Processor) : Instruction → Bool
  | .skip condition => condition.holds p
  | _ => false

variable {p q : Processor} {shift : ShiftRule} {noise : UInt8} {i : Instruction} {flow : Flow}

/-- **What is answered depends on the instruction alone.** -/
theorem flow_execute (h : p.execute shift noise i = (.ok flow, q)) : flow = i.flow := by
  cases i
  case ret => exact (execute_ret h).1
  case call target => exact (execute_call h).1
  all_goals
    cases h
    rfl

/-- The instruction that waits stays where it is, and has its register wait. -/
theorem execute_awaitKey {x : Register} (h : p.execute shift noise (.awaitKey x) = (.ok flow, q)) :
    q.pc = p.pc ∧ q.awaiting = some x := by
  cases h
  exact ⟨rfl, rfl⟩

/-- **An instruction that neither jumps nor waits moves on to the next one**, or to the one after
it. -/
theorem pc_execute (h : p.execute shift noise i = (.ok flow, q)) (onward : i.jumps = false)
    (proceeds : ∀ x, i ≠ .awaitKey x) :
    q.pc = p.pc + if p.passesOver i then 4 else 2 := by
  cases i
  case ret | call | jump | jumpOffset => contradiction
  case awaitKey x => exact absurd rfl (proceeds x)
  case combine operation x y =>
    cases h
    rw [setResult_eq]
    rfl
  case load x =>
    cases h
    -- With `p` left whole, its registers would be compared as well.
    cases p
    rfl
  all_goals
    cases h
    rfl

end Processor

namespace Machine

variable {m n : Machine} {executed : Option Instruction} {word : UInt16} {now : Nat}

/-! ### Answers and machines -/

/-- What an answer tells of what became of a machine, given the instruction that was executed, if
one was. -/
structure Tells (m : Machine) (executed : Option Instruction) (answer : Except Fault Flow)
    (n : Machine) : Prop where
  /-- It is a fault if the machine is stopped, and then the one that stopped it. -/
  halted : ∀ fault, answer = .error fault ↔ n.fault = some fault
  /-- It is that the machine waits if a register waits for a key press. -/
  waits : answer = .ok .awaitKey ↔ ∃ x, n.processor.awaiting = some x
  /-- In both cases the machine is where it was. -/
  stays : (∃ fault, answer = .error fault) ∨ answer = .ok .awaitKey →
    n.processor.pc = m.processor.pc
  /-- It is that something was drawn if an instruction was executed that paints. -/
  draws : answer = .ok .draw ↔ ∃ i, executed = some i ∧ i.paints = true
  /-- Otherwise there is nothing new to paint. -/
  unpainted : answer ≠ .ok .draw →
    n.processor.screen = m.processor.screen ∧ n.processor.repaint = m.processor.repaint
  /-- Unless it is that the sound timer was set, the timer was left alone. -/
  silent : answer ≠ .ok .sound → n.processor.sound = m.processor.sound
  /-- It is that the machine jumped if an instruction was executed with success that jumps. -/
  jumps : answer = .ok .jump ↔
    (∃ i, executed = some i ∧ i.jumps = true) ∧ ∃ flow, answer = .ok flow
  /-- When it is none of these, or that something was drawn or the sound timer set, the machine
  has moved on to the next instruction, or to the one after it if a condition held. -/
  proceeds : answer = .ok .next ∨ answer = .ok .draw ∨ answer = .ok .sound →
    ∃ i, executed = some i ∧
      n.processor.pc = m.processor.pc + if m.processor.passesOver i then 4 else 2
  /-- To get anywhere else, a machine has to jump. -/
  moves : answer ≠ .ok .jump → n.processor.pc = m.processor.pc ∨
    n.processor.pc = m.processor.pc + 2 ∨ n.processor.pc = m.processor.pc + 4
  /-- It is never that nothing was due. -/
  busy : answer ≠ .ok .idle

/-- A fault tells that the machine is stopped, and that nothing else happened. -/
theorem tells_of_error {fault : Fault} (stopped : n.fault = some fault)
    (kept : n.processor = m.processor) (unblocked : m.processor.awaiting = none)
    (other : ∀ i, executed = some i → i.paints = false) :
    m.Tells executed (.error fault) n where
  halted := by
    intro other
    rw [stopped, Option.some.injEq, Except.error.injEq]
  waits := by simp [kept, unblocked]
  stays _ := by rw [kept]
  draws := by
    refine ⟨nofun, ?_⟩
    rintro ⟨i, found, paints⟩
    exact absurd ((other i found).symm.trans paints) nofun
  unpainted _ := by rw [kept]; exact ⟨rfl, rfl⟩
  silent _ := by rw [kept]
  jumps := ⟨nofun, fun ⟨_, _, succeeds⟩ => nomatch succeeds⟩
  proceeds := by rintro (_ | _ | _) <;> contradiction
  moves _ := Or.inl (by rw [kept])
  busy := nofun

/-- What is answered while a register waits tells this and nothing else. -/
theorem tells_of_awaiting {x : Register} (unstopped : m.fault = none)
    (waits : m.processor.awaiting = some x) : m.Tells none (.ok .awaitKey) m where
  halted fault := by simp [unstopped]
  waits := ⟨fun _ => ⟨x, waits⟩, fun _ => rfl⟩
  stays _ := rfl
  draws := ⟨nofun, nofun⟩
  unpainted _ := ⟨rfl, rfl⟩
  silent _ := rfl
  jumps := ⟨nofun, nofun⟩
  proceeds := by rintro (_ | _ | _) <;> contradiction
  moves _ := Or.inl rfl
  busy := nofun

/-- **The answer to an instruction that is performed tells what it did.** -/
theorem tells_of_performed (ready : m.IsReady) {i : Instruction} {flow : Flow}
    (performed : m.perform i = (.ok flow, n)) : m.Tells (some i) (.ok flow) n := by
  obtain ⟨noise, effect⟩ := execute_of_perform performed
  obtain ⟨frame, -, rest⟩ := frame_perform performed
  obtain rfl := Processor.flow_execute effect
  have unstopped : n.fault = none := by
    rw [rest]
    exact ready.unstopped
  have waits : i.flow = .awaitKey ↔ ∃ x, n.processor.awaiting = some x := by
    rw [Instruction.flow_eq_awaitKey_iff]
    by_cases wait : ∃ x, i = .awaitKey x
    · obtain ⟨x, rfl⟩ := wait
      have begun := (Processor.execute_awaitKey effect).2
      exact iff_of_true ⟨x, rfl⟩ ⟨x, begun⟩
    · have kept := frame.awaiting (not_exists.mp wait)
      rw [ready.unblocked] at kept
      exact iff_of_false wait (by simp [kept])
  have stays (wait : i.flow = .awaitKey) : n.processor.pc = m.processor.pc := by
    obtain ⟨x, rfl⟩ := Instruction.flow_eq_awaitKey_iff.mp wait
    exact (Processor.execute_awaitKey effect).1
  have proceeds (jumps : i.flow ≠ .jump) (wait : i.flow ≠ .awaitKey) :
      n.processor.pc = m.processor.pc + if m.processor.passesOver i then 4 else 2 := by
    refine Processor.pc_execute effect ?_ ?_
    · rwa [Ne, Instruction.flow_eq_jump_iff, Bool.not_eq_true] at jumps
    · rwa [Ne, Instruction.flow_eq_awaitKey_iff, not_exists] at wait
  exact {
    halted := by simp [unstopped]
    waits := by rw [Except.ok.injEq, waits]
    stays := by simpa using stays
    draws := by simp [Instruction.flow_eq_draw_iff]
    unpainted := by simpa [Instruction.flow_eq_draw_iff] using frame.screen
    silent := by
      intro other
      refine frame.sound fun x sounds => other ?_
      rw [sounds]
      rfl
    jumps := by simp [Instruction.flow_eq_jump_iff]
    proceeds := by
      intro answered
      refine ⟨i, rfl, proceeds ?_ ?_⟩
      · rintro jumps
        simp [jumps] at answered
      · rintro wait
        simp [wait] at answered
    moves := by
      intro jumps
      by_cases wait : i.flow = .awaitKey
      · exact Or.inl (stays wait)
      · rw [proceeds (fun jump => jumps (congrArg Except.ok jump)) wait]
        split
        · exact Or.inr (Or.inr rfl)
        · exact Or.inr (Or.inl rfl)
    busy := by simpa using i.flow_ne_idle }

/-- **The answer to a word tells what came of it**, on a machine that is ready. -/
theorem tells_dispatch (ready : m.IsReady) (word : UInt16) :
    m.Tells (Instruction.decode word) (m.dispatch word).answer (m.dispatch word).machine := by
  rcases dispatch_cases m word with
    ⟨kind, emitted, refused, halted⟩ | ⟨i, flow, n, decoded, performed, done⟩
  · rw [halted]
    refine tells_of_error rfl rfl ready.unblocked fun i decoded => ?_
    -- The words that can be refused are those of returns and calls.
    rcases (Processor.refuses_iff_of_decode decoded).mp refused with
      ⟨rfl, -⟩ | ⟨⟨target, rfl⟩, -⟩
    · rfl
    · rfl
  · rw [done, decoded]
    exact tells_of_performed ready performed

/-- **The answer to a word tells what came of it.** -/
theorem tells_execute (reachable : m.Reachable) (word : UInt16) :
    m.Tells (m.executed? (.execute word)) (m.execute word).answer (m.execute word).machine := by
  have sound := reachable.isSound
  by_cases ready : m.IsReady
  · have found : m.executed? (.execute word) = Instruction.decode word := by
      simp [executed?, dispatched?, ready]
    rw [found, execute_of_isReady ready]
    exact tells_dispatch ready word
  · have found : m.executed? (.execute word) = none := by
      simp [executed?, dispatched?, ready]
    rw [found]
    rcases Option.eq_none_or_eq_some m.fault with unstopped | ⟨fault, stopped⟩
    · rcases Option.eq_none_or_eq_some m.processor.awaiting with unblocked | ⟨x, waits⟩
      · exact absurd ⟨unstopped, unblocked⟩ ready
      · simp only [execute, unstopped, waits]
        exact tells_of_awaiting unstopped waits
    · -- A machine that was stopped does not wait for a key press as well.
      have unblocked := sound.exclusive.resolve_left (by simp [stopped])
      simp only [execute, stopped]
      exact tells_of_error stopped rfl unblocked (by simp)

/-! ### Answers to a time -/

/-- When a word is due, a time is answered like the word, and stops the machine if the word
does. -/
theorem tick_of_due (due : m.isDue now = true) :
    m.IsReady ∧ (m.tick now).answer = m.step.answer ∧
      (m.tick now).machine.fault = m.step.machine.fault := by
  have effect := m.tick_effect now
  generalize m.tick now = r at effect ⊢
  cases effect with
  | halted stopped =>
    rw [isDue_of_not_isReady (not_isReady_of_fault stopped)] at due
    contradiction
  | blocked unstopped waits =>
    rw [isDue_of_not_isReady (not_isReady_of_awaiting waits)] at due
    contradiction
  | idle ready silent =>
    rw [isDue_of_isReady ready, silent] at due
    contradiction
  | refused ready fires halted =>
    rw [step, execute_of_isReady ready, halted]
    exact ⟨ready, rfl, rfl⟩
  | performed ready fires performed done =>
    rw [step, execute_of_isReady ready, done, tickTimers_eq]
    exact ⟨ready, rfl, rfl⟩

/-- **What is answered can be trusted.** What a reachable machine answers to a word, given to it or
found at its program counter, tells what became of it. When a time is reported to a machine that
is not stopped, the answer is that nothing was due exactly if no word was executed; otherwise it
is the answer to the word at the program counter, and tells what became of the machine by that word,
after which the timers may have been counted down. -/
theorem flow_tells (reachable : m.Reachable) :
    (∀ word,
      m.Tells (m.executed? (.execute word)) (m.execute word).answer (m.execute word).machine) ∧
    m.Tells (m.executed? .step) m.step.answer m.step.machine ∧
    ∀ now, m.fault = none →
      ((m.tick now).answer = .ok .idle ↔ m.dispatched? (.tick now) = none) ∧
      (m.dispatched? (.tick now) ≠ none →
        m.Tells (m.executed? (.tick now)) (m.tick now).answer m.step.machine ∧
        (m.tick now).machine.fault = m.step.machine.fault ∧
        (m.tick now).machine.processor =
          if m.countsDown now then m.step.machine.processor.countDown
          else m.step.machine.processor) := by
  have stepped : m.Tells (m.executed? .step) m.step.answer m.step.machine :=
    tells_execute reachable m.processor.fetch
  refine ⟨tells_execute reachable, stepped, fun now unstopped => ?_⟩
  rcases dispatched : m.dispatched? (.tick now) with _ | word
  · have early : m.isDue now = false := by rw [isDue, dispatched, Option.isSome_none]
    have idle := Answer.eq_ok_of_ofExecution (response_tick_of_not_due unstopped early).1
    exact ⟨iff_of_true idle rfl, absurd rfl⟩
  · have due : m.isDue now = true := by rw [isDue, dispatched, Option.isSome_some]
    obtain ⟨ready, answer, fault⟩ := tick_of_due due
    obtain rfl := dispatched?_eq_fetch dispatched (by simp)
    have same : m.executed? (.tick now) = m.executed? .step := by
      rw [executed?, executed?, dispatched, dispatched?, if_pos ready]
    have left : m.afterDue now = m.step.machine.processor := by
      rw [afterDue, dispatched, Option.elim_some, step, execute_of_isReady ready]
    rw [answer, same, processor_tick, left]
    exact ⟨iff_of_false stepped.busy (by simp), fun _ => ⟨stepped, fault, rfl⟩⟩

/-- A new machine passes over an instruction, `V0` being zero. Another one has noted a time and
sets its sound timer at the next one, after which both timers are counted down. -/
theorem flow_tells_sound :
    let m := (create .standard 0).machine
    let n := m.run [.load [0xF0, 0x18], .tick 0]
    m.Reachable ∧ n.Reachable ∧ n.fault = none ∧
      (m.execute 0x3000).machine.processor.pc = 0x200 + 4 ∧
      (m.execute 0x3000).machine.processor.screen = m.processor.screen ∧
      (n.tick 20).answer = .ok .sound ∧
      (n.tick 20).machine.processor = n.step.machine.processor.countDown := by
  intro m n
  have hm : m.Reachable := ⟨.standard, 0, [], rfl⟩
  have hn : n.Reachable := ⟨.standard, 0, _, rfl⟩
  have unstopped : n.fault = none := by decide +kernel
  have answered : (m.execute 0x3000).answer = .ok .next := by decide +kernel
  have due : n.dispatched? (.tick 20) = some 0xF018 := by decide +kernel
  obtain ⟨executing, -, -⟩ := flow_tells hm
  obtain ⟨-, -, ticking⟩ := flow_tells hn
  have skipped := executing 0x3000
  obtain ⟨i, executed, pc⟩ := skipped.proceeds (Or.inl answered)
  have skip : m.executed? (.execute 0x3000) = some (.skip (.equalsByte 0 0)) := by decide +kernel
  obtain rfl := Option.some.inj (executed.symm.trans skip)
  obtain ⟨-, after⟩ := ticking 20 unstopped
  obtain ⟨-, -, counted⟩ := after (Option.ne_none_iff_exists'.mpr ⟨_, due⟩)
  have counts : n.countsDown 20 = true := by decide +kernel
  rw [counts, if_pos rfl] at counted
  refine ⟨hm, hn, unstopped, ?_, ?_, by decide +kernel, counted⟩
  · rw [pc]
    decide +kernel
  · exact (skipped.unpainted (answered ▸ nofun)).1

end Machine

end Chip8
