import Chip8.Proofs.Lockstep
import Chip8.Proofs.Refusal

/-!
# Starting over

What a machine did before it is reset, or before a program is loaded, leaves no trace.
The main statement is `Chip8.Machine.restart_forgets`: two machines with the same
settings that draw their random bytes from a seed of their own cannot be told apart
after a reset, nor after loading the same program, and neither can be told apart from a
new machine.

A reset replaces everything but the settings of a machine, the entropy it was built with
and the intervals of its gates. These parts no operation changes
(`Chip8.Machine.SameDevice`), which is why the intervals are still those of a new
machine; and the entropy does not count once there is a seed, so machines that differ in
it alone respond alike to every operation (`Chip8.Machine.Alike.apply`).
-/

namespace Chip8

namespace Machine

variable {m n : Machine}

/-! ### What no operation changes -/

/-- Two states of one machine: the choices that it was built with are the same. -/
structure SameDevice (m n : Machine) : Prop where
  /-- The settings are the same. -/
  settings : n.settings = m.settings
  /-- The entropy is the same. -/
  entropy : n.entropy = m.entropy
  /-- The gate of the instructions has the same interval. -/
  clock : n.clock.interval = m.clock.interval
  /-- The gate of the timers has the same interval. -/
  timer : n.timer.interval = m.timer.interval

namespace SameDevice

theorem refl (m : Machine) : SameDevice m m := ⟨rfl, rfl, rfl, rfl⟩

theorem trans {k : Machine} (h : SameDevice m n) (h' : SameDevice n k) : SameDevice m k :=
  ⟨h'.settings.trans h.settings, h'.entropy.trans h.entropy, h'.clock.trans h.clock,
    h'.timer.trans h.timer⟩

theorem perform (m : Machine) (i : Instruction) : SameDevice m (m.perform i).2 :=
  ⟨rfl, rfl, rfl, rfl⟩

theorem halt (m : Machine) (fault : Fault) (emitted : List Diagnostic) :
    SameDevice m (m.halt fault emitted).machine :=
  ⟨rfl, rfl, rfl, rfl⟩

theorem dispatch (m : Machine) (word : UInt16) : SameDevice m (m.dispatch word).machine := by
  rcases dispatch_cases m word with ⟨kind, emitted, -, halted⟩ | ⟨i, flow, n, -, performed, done⟩
  · rw [halted]
    exact halt m _ _
  · have same := perform m i
    rw [performed] at same
    rw [done]
    exact same

theorem execute (m : Machine) (word : UInt16) : SameDevice m (m.execute word).machine := by
  by_cases ready : m.IsReady
  · rw [execute_of_isReady ready]
    exact dispatch m word
  · rw [machine_execute_of_not_isReady ready]
    exact refl m

theorem tickTimers (m : Machine) (now : Nat) : SameDevice m (m.tickTimers now) := by
  have interval := m.timer.interval_poll now
  simp only [Machine.tickTimers]
  split
  · exact ⟨rfl, rfl, rfl, interval⟩
  · exact ⟨rfl, rfl, rfl, interval⟩

theorem tickClock (m : Machine) (now : Nat) : SameDevice m (m.tickClock now).machine := by
  have polled : SameDevice m { m with clock := (m.clock.poll now).2 } :=
    ⟨rfl, rfl, m.clock.interval_poll now, rfl⟩
  unfold Machine.tickClock
  split
  · exact ⟨rfl, rfl, m.clock.interval_arm now, rfl⟩
  · simp only
    split
    · exact polled.trans (execute _ _)
    · exact polled

theorem tick (m : Machine) (now : Nat) : SameDevice m (m.tick now).machine := by
  cases hf : m.fault with
  | some fault =>
    rw [tick_of_fault hf]
    exact refl m
  | none =>
    rw [tick_of_unstopped hf]
    split
    · exact tickClock m now
    · exact (tickClock m now).trans (tickTimers _ now)

theorem reset (m : Machine) : SameDevice m m.reset.machine := ⟨rfl, rfl, rfl, rfl⟩

theorem load (m : Machine) (program : List UInt8) : SameDevice m (m.load program).machine := by
  simp only [Machine.load]
  split
  · exact refl m
  · exact ⟨rfl, rfl, rfl, rfl⟩

theorem loadFrom (m : Machine) (source : ByteSource) :
    SameDevice m (m.loadFrom source).machine := by
  unfold Machine.loadFrom
  split
  · exact load m _
  · exact refl m

theorem loadFile (m : Machine) (path : String) (opened : Except FileError ByteSource) :
    SameDevice m (m.loadFile path opened).machine := by
  unfold Machine.loadFile
  split
  · exact loadFrom m _
  · exact refl m

/-- **No operation changes the choices that a machine was built with.** -/
theorem apply (m : Machine) (operation : Operation) :
    SameDevice m (m.apply operation).machine := by
  cases operation with
  | reset => exact reset m
  | load program => exact load m program
  | loadFrom source => exact loadFrom m source
  | loadFile path opened => exact loadFile m path opened
  | step => exact execute m _
  | execute word => exact execute m word
  | tick now => exact tick m now
  | pressKey key => exact ⟨rfl, rfl, rfl, rfl⟩
  | releaseKey key => exact ⟨rfl, rfl, rfl, rfl⟩
  | releaseKeys => exact ⟨rfl, rfl, rfl, rfl⟩
  | markPainted => exact ⟨rfl, rfl, rfl, rfl⟩
  | takeRepaint => exact ⟨rfl, rfl, rfl, rfl⟩
  | edit change => exact ⟨rfl, rfl, rfl, rfl⟩

theorem run (m : Machine) (operations : List Operation) : SameDevice m (m.run operations) :=
  run_induction (fun n operation (_ : True) h => h.trans (apply n operation)) operations
    (fun _ _ => trivial) (refl m)

end SameDevice

/-- No operation takes away the seed of a machine. -/
theorem seeded_apply (seeded : m.settings.seed.isSome) (operation : Operation) :
    (m.apply operation).machine.settings.seed.isSome := by
  rw [(SameDevice.apply m operation).settings]
  exact seeded

/-- **Machines with a seed of their own are kept related by runs** if operations keep them so.
Without a seed, the entropy would count at a reset. -/
theorem Along.related_of_seeded {S : Machine → Machine → Prop} {P : Machine → Operation → Prop}
    (step : ∀ m n operation, P m operation → m.settings.seed.isSome → S m n →
      Response.Related Eq S Eq (m.apply operation) (n.apply operation))
    {operations : List Operation} (along : Along P m operations)
    (seeded : m.settings.seed.isSome) (h : S m n) :
    List.Forall₂ (Response.Related Eq S Eq) (m.responses operations) (n.responses operations) ∧
      S (m.run operations) (n.run operations) := by
  have carried (m n : Machine) (operation : Operation) (holds : P m operation)
      (h : S m n ∧ m.settings.seed.isSome) :
      Response.Related Eq S Eq (m.apply operation) (n.apply operation) ∧
        (m.apply operation).machine.settings.seed.isSome :=
    ⟨step m n operation holds h.2 h.1, seeded_apply h.2 operation⟩
  obtain ⟨runs, last, -⟩ :=
    along.forall₂_responses (S := fun m n => S m n ∧ m.settings.seed.isSome)
      (R := fun r s => Response.Related Eq S Eq r s ∧ r.machine.settings.seed.isSome)
      carried (fun _ _ both => ⟨both.1.machine, both.2⟩) ⟨h, seeded⟩
  exact ⟨runs.imp fun _ _ both => both.1, last⟩

/-- The gates of a machine that operations brought about from a new one have the
intervals of a new one. -/
theorem Reachable.sameDevice (h : m.Reachable) :
    SameDevice (create m.settings m.entropy).machine m := by
  obtain ⟨settings, entropy, operations, rfl⟩ := h
  have same := SameDevice.run (create settings entropy).machine operations
  rw [same.settings, same.entropy]
  exact same

/-- **A reset makes a machine new.** -/
theorem Reachable.reset_eq_create (h : m.Reachable) :
    m.reset.machine = (create m.settings m.entropy).machine := by
  have same := h.sameDevice
  -- The intervals of the gates are all that a reset takes over from them.
  have clock : m.clock.forget = .ofInterval m.settings.interval :=
    congrArg (Gate.mk · none) same.clock
  have timer : m.timer.forget = .ofInterval timerInterval :=
    congrArg (Gate.mk · none) same.timer
  simp only [reset, create, clock, timer]
  rfl

/-! ### Machines that cannot be told apart -/

/-- Two machines that are equal but for the entropy they were built with. -/
structure Alike (m n : Machine) : Prop where
  /-- The settings are the same. -/
  settings : m.settings = n.settings
  /-- The processors are the same. -/
  processor : m.processor = n.processor
  /-- The gates of the instructions are the same. -/
  clock : m.clock = n.clock
  /-- The gates of the timers are the same. -/
  timer : m.timer = n.timer
  /-- The generators of random bytes are the same. -/
  random : m.random = n.random
  /-- The faults are the same. -/
  fault : m.fault = n.fault

namespace Alike

theorem symm (h : Alike m n) : Alike n m :=
  ⟨h.settings.symm, h.processor.symm, h.clock.symm, h.timer.symm, h.random.symm, h.fault.symm⟩

theorem trans {k : Machine} (h : Alike m n) (h' : Alike n k) : Alike m k :=
  ⟨h.settings.trans h'.settings, h.processor.trans h'.processor, h.clock.trans h'.clock,
    h.timer.trans h'.timer, h.random.trans h'.random, h.fault.trans h'.fault⟩

theorem setProcessor (h : Alike m n) {p q : Processor} (same : p = q) :
    Alike { m with processor := p } { n with processor := q } :=
  ⟨h.settings, same, h.clock, h.timer, h.random, h.fault⟩

/-! ### Executing a word does not look at the entropy -/

theorem perform (h : Alike m n) (i : Instruction) :
    (m.perform i).1 = (n.perform i).1 ∧ (m.perform i).2.Alike (n.perform i).2 := by
  have shift : m.settings.shift = n.settings.shift := by rw [h.settings]
  simp only [Machine.perform, shift, h.processor, h.random, true_and]
  exact ⟨h.settings, rfl, h.clock, h.timer, rfl, h.fault⟩

theorem dispatch (h : Alike m n) (word : UInt16) :
    Response.Related (SameOutcome Eq) Alike Eq (m.dispatch word) (n.dispatch word) :=
  dispatch_related_of_pc_eq h (by rw [h.processor])
    (fun _ next => ⟨next.settings, next.processor, next.clock, next.timer, next.random, rfl⟩)
    fun i _ => h.perform i

/-- Machines that are alike are driven in lockstep. -/
theorem lockstep : Lockstep Alike Eq Eq fun _ _ => True where
  fault h := rel_fault_of_eq h.fault
  awaiting h := by rw [h.processor]
  fetch h := by rw [h.processor]
  clock h := h.clock
  timer h := h.timer
  setClock _ h := ⟨h.settings, h.processor, rfl, h.timer, h.random, h.fault⟩
  setTimer _ h := ⟨h.settings, h.processor, h.clock, rfl, h.random, h.fault⟩
  countDown h := h.setProcessor (by rw [h.processor])
  silent := rfl
  dispatch word h _ := h.dispatch word

/-! ### A reset does, but prefers a seed -/

variable (h : Alike m n) (seeded : m.settings.seed.isSome)

include h seeded

theorem reset : m.reset.machine.Alike n.reset.machine := by
  obtain ⟨seed, hs⟩ := Option.isSome_iff_exists.mp seeded
  have other := hs
  rw [h.settings] at other
  refine ⟨h.settings, rfl, ?_, ?_, ?_, rfl⟩
  · simp only [Machine.reset, h.clock]
  · simp only [Machine.reset, h.timer]
  · simp only [Machine.reset, Machine.seed, hs, other, Option.getD_some]

theorem load (program : List UInt8) :
    Response.Related Eq Alike Eq (m.load program) (n.load program) := by
  simp only [Machine.load]
  split
  · exact ⟨rfl, h, rfl⟩
  · exact ⟨rfl, (h.reset seeded).setProcessor rfl, rfl⟩

theorem loadFrom (source : ByteSource) :
    Response.Related Eq Alike Eq (m.loadFrom source) (n.loadFrom source) := by
  unfold Machine.loadFrom
  split
  · exact h.load seeded _
  · exact ⟨rfl, h, rfl⟩

theorem loadFile (path : String) (opened : Except FileError ByteSource) :
    Response.Related Eq Alike Eq (m.loadFile path opened) (n.loadFile path opened) := by
  unfold Machine.loadFile
  split
  · exact h.loadFrom seeded _
  · exact ⟨rfl, h, rfl⟩

/-- **Machines that are alike respond alike to every operation** if they have a seed of
their own: the entropy of such machines does not count. -/
theorem apply (operation : Operation) :
    Response.Related Eq Alike Eq (m.apply operation) (n.apply operation) := by
  cases operation with
  | reset => exact ⟨rfl, h.reset seeded, rfl⟩
  | load program =>
    obtain ⟨answer, machine, emitted⟩ := h.load seeded program
    exact ⟨congrArg Answer.ofLoading answer, machine, emitted⟩
  | loadFrom source =>
    obtain ⟨answer, machine, emitted⟩ := h.loadFrom seeded source
    exact ⟨congrArg Answer.ofLoading answer, machine, emitted⟩
  | loadFile path opened =>
    obtain ⟨answer, machine, emitted⟩ := h.loadFile seeded path opened
    exact ⟨congrArg Answer.ofLoading answer, machine, emitted⟩
  | step => exact lockstep.apply_of_executes h .step fun _ _ => trivial
  | execute word => exact lockstep.apply_of_executes h (.execute word) fun _ _ => trivial
  | tick now => exact lockstep.apply_of_executes h (.tick now) fun _ _ => trivial
  | pressKey key =>
    refine ⟨rfl, h.setProcessor (by rw [h.processor]), ?_⟩
    simp only [Machine.apply, Response.map, pressKey, h.processor]
  | releaseKey key => exact ⟨rfl, h.setProcessor (by rw [h.processor]), rfl⟩
  | releaseKeys => exact ⟨rfl, h.setProcessor (by rw [h.processor]), rfl⟩
  | markPainted => exact ⟨rfl, h.setProcessor (by rw [h.processor]), rfl⟩
  | takeRepaint =>
    refine ⟨?_, h.setProcessor (by rw [h.processor]), rfl⟩
    simp only [Machine.apply, takeRepaint, h.processor]
  | edit change => exact ⟨rfl, h.setProcessor (by rw [h.processor]), rfl⟩

end Alike

/-- Two machines that are alike, and that respond alike to every sequence of operations. -/
def Indistinguishable (m n : Machine) : Prop :=
  m.Alike n ∧ ∀ operations,
    List.Forall₂ (Response.Related Eq Alike Eq) (m.responses operations) (n.responses operations)

/-- **Machines that are alike stay alike and respond alike** if they have a seed of their
own. -/
theorem Alike.indistinguishable (h : m.Alike n) (seeded : m.settings.seed.isSome) :
    m.Indistinguishable n := by
  refine ⟨h, fun operations => ?_⟩
  have anything : m.Along (fun _ _ => True) operations :=
    along_of_forall (fun _ _ => trivial) m
  exact (anything.related_of_seeded (fun _ _ operation _ seeded h => h.apply seeded operation)
    seeded h).1

end Machine

/-! ### Memory after loading -/

/-- Memory as it is after a program was loaded: the font at the bottom, the program where
programs start, and zeros elsewhere. -/
structure Memory.IsLoaded (m : Memory) (program : List UInt8) : Prop where
  /-- The glyphs of the digits. -/
  font : ∀ address < 80, Font.bytes[address]? = some (m.read address)
  /-- Zeros up to the program. -/
  below : ∀ address, 80 ≤ address → address < 0x200 → m.read address = 0
  /-- The program. -/
  stored : ∀ place < program.length, program[place]? = some (m.read (0x200 + place))
  /-- Zeros after the program. -/
  above : ∀ address, 0x200 + program.length ≤ address → address < 4096 → m.read address = 0

/-- A program that fits is loaded above the font. -/
theorem Memory.isLoaded_loadProgram {program : List UInt8}
    (fits : program.length ≤ Memory.programCapacity) :
    (Memory.withFont.loadProgram program).IsLoaded program := by
  have size : program.length ≤ 3584 := fits
  have glyphs : Font.bytes.length = 80 := rfl
  have font (address : Nat) (small : address < 4096) :
      Memory.withFont.read address = Font.bytes[address]?.getD 0 := by
    have place : Memory.distance Font.start address = address := by
      simp only [Memory.distance, Font.start]
      omega
    rw [Memory.withFont, Memory.read_writeBytes _ _ _ _ (by decide), Memory.read_zero, place]
  -- Going round the memory, an address lies so far behind the start of the program.
  have content (address place : Nat) (small : address < 4096)
      (h : (address + 3584) % 4096 = place) :
      (Memory.withFont.loadProgram program).read address =
        program[place]?.getD (Font.bytes[address]?.getD 0) := by
    rw [Memory.loadProgram, Memory.read_writeBytes _ _ _ _ (by omega), font address small, ← h]
    rfl
  refine ⟨fun address h => ?_, fun address h h' => ?_, fun place h => ?_, fun address h h' => ?_⟩
  · have inside : address < Font.bytes.length := by omega
    have glyph : Font.bytes[address]? = some Font.bytes[address] :=
      List.getElem?_eq_getElem inside
    rw [content address (address + 3584) (by omega) (by omega), glyph,
      List.getElem?_eq_none (by omega)]
    rfl
  · rw [content address (address + 3584) (by omega) (by omega),
      List.getElem?_eq_none (by omega), List.getElem?_eq_none (by omega)]
    rfl
  · rw [content (0x200 + place) place (by omega) (by omega), List.getElem?_eq_getElem h]
    rfl
  · rw [content address (address - 0x200) (by omega) (by omega),
      List.getElem?_eq_none (by omega), List.getElem?_eq_none (by omega)]
    rfl

namespace Machine

variable {m : Machine}

/-! ### Resetting and loading -/

/-- The machine with a program in memory. -/
def withProgram (m : Machine) (program : List UInt8) : Machine :=
  { m with processor := { m.processor with memory := m.processor.memory.loadProgram program } }

theorem load_of_fits (m : Machine) {program : List UInt8}
    (fits : program.length ≤ Memory.programCapacity) :
    (m.load program).answer = .ok () ∧
      (m.load program).machine = m.reset.machine.withProgram program := by
  simp only [load, Nat.not_lt.mpr fits, if_false, true_and]
  rfl

theorem Alike.withProgram {n : Machine} (h : m.Alike n) (program : List UInt8) :
    (m.withProgram program).Alike (n.withProgram program) :=
  ⟨h.settings, by simp only [Machine.withProgram, h.processor], h.clock, h.timer, h.random,
    h.fault⟩

/-- New machines with a seed of their own are alike. -/
theorem create_alike {settings : Settings} (seeded : settings.seed.isSome) (e e' : UInt64) :
    (create settings e).machine.Alike (create settings e').machine := by
  obtain ⟨seed, hs⟩ := Option.isSome_iff_exists.mp seeded
  refine ⟨rfl, rfl, rfl, rfl, ?_, rfl⟩
  simp only [create, reset, Machine.seed, hs, Option.getD_some]

/-- A reset makes a machine with a seed of its own like any new one. -/
theorem Reachable.reset_alike_create (h : m.Reachable) (seeded : m.settings.seed.isSome)
    (entropy : UInt64) : m.reset.machine.Alike (create m.settings entropy).machine := by
  rw [h.reset_eq_create]
  exact create_alike seeded _ _

/-- A machine at its start: the screen is due to be painted, the gates hold no time, the
random bytes are at the beginning of the stream of a seed, and there is no fault. -/
structure IsFresh (m : Machine) (seed : UInt64) : Prop where
  /-- The screen is due to be painted. -/
  repaint : m.processor.repaint = true
  /-- The gate of the instructions holds no time. -/
  clock : m.clock.since = none
  /-- The gate of the timers holds no time. -/
  timer : m.timer.since = none
  /-- No random byte was drawn. -/
  random : m.random = .ofSeed seed
  /-- No fault stopped the machine. -/
  fault : m.fault = none

theorem isFresh_reset {seed : UInt64} (seeded : m.settings.seed = some seed) :
    m.reset.machine.IsFresh seed := by
  refine ⟨rfl, rfl, rfl, ?_, rfl⟩
  simp only [reset, Machine.seed, seeded, Option.getD_some]

/-- **Starting over leaves no trace of what was before.** Take two machines that some
operations brought about, with the same settings and a seed of their own. A reset makes
them fresh, indistinguishable, and indistinguishable from a new machine. Loading a
program that fits does the same, the new machine having loaded it too, and leaves
nothing in memory but the font and the program. -/
theorem restart_forgets {n : Machine} {seed : UInt64} (hm : m.Reachable) (hn : n.Reachable)
    (same : m.settings = n.settings) (seeded : m.settings.seed = some seed) (entropy : UInt64) :
    (m.reset.machine.IsFresh seed ∧ m.reset.machine.Indistinguishable n.reset.machine ∧
      m.reset.machine.Indistinguishable (create m.settings entropy).machine) ∧
    ∀ program : List UInt8, program.length ≤ Memory.programCapacity →
      (m.load program).answer = .ok () ∧ (n.load program).answer = .ok () ∧
      (m.load program).machine.IsFresh seed ∧
      (m.load program).machine.processor.memory.IsLoaded program ∧
      (m.load program).machine.Indistinguishable (n.load program).machine ∧
      (m.load program).machine.Indistinguishable
        ((create m.settings entropy).machine.load program).machine := by
  have hs : m.settings.seed.isSome := by
    rw [seeded]
    rfl
  -- The two machines are like each other because both are like a new one.
  have new := hm.reset_alike_create hs entropy
  have other : m.reset.machine.Alike n.reset.machine := by
    refine new.trans (Alike.symm ?_)
    rw [same] at hs ⊢
    exact hn.reset_alike_create hs entropy
  have fresh := isFresh_reset seeded
  refine ⟨⟨fresh, other.indistinguishable hs, new.indistinguishable hs⟩, ?_⟩
  intro program fits
  have again : (create m.settings entropy).machine.reset.machine =
      (create m.settings entropy).machine :=
    Reachable.reset_eq_create ⟨m.settings, entropy, [], rfl⟩
  obtain ⟨answer, loaded⟩ := m.load_of_fits fits
  obtain ⟨answer', loaded'⟩ := n.load_of_fits fits
  obtain ⟨-, anew⟩ := (create m.settings entropy).machine.load_of_fits fits
  rw [loaded, loaded', anew, again]
  exact ⟨answer, answer', ⟨fresh.repaint, fresh.clock, fresh.timer, fresh.random, fresh.fault⟩,
    Memory.isLoaded_loadProgram fits, (other.withProgram program).indistinguishable hs,
    (new.withProgram program).indistinguishable hs⟩

/-- A machine that a fault stopped while a key was down starts over like one that did
nothing. -/
theorem restart_forgets_fault :
    let settings : Settings := { Settings.standard with seed := some 7 }
    let m := (create settings 1).machine.run [.pressKey 3, .execute 0x00EE]
    let n := (create settings 2).machine
    m.fault = some ⟨.stackUnderflow, 0x200, 0x00EE⟩ ∧
      m.reset.machine.Indistinguishable n.reset.machine ∧
      (m.load [0x12, 0x00]).machine.Indistinguishable (n.load [0x12, 0x00]).machine := by
  intro settings m n
  have hm : m.Reachable := ⟨settings, 1, [.pressKey 3, .execute 0x00EE], rfl⟩
  have hn : n.Reachable := ⟨settings, 2, [], rfl⟩
  have seeded : m.settings.seed = some 7 := rfl
  obtain ⟨⟨-, reset, -⟩, load⟩ := restart_forgets hm hn rfl seeded 0
  obtain ⟨-, -, -, -, loaded, -⟩ := load [0x12, 0x00] (by decide)
  exact ⟨rfl, reset, loaded⟩

end Machine

end Chip8
