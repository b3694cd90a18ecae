import Chip8.Machine.Basic
import Chip8.Instruction.Mnemonic

/-!
# Running a machine

Three ways to drive a machine, each resting on the one before:
`Chip8.Machine.execute` executes a given word as if it stood at the program counter,
`Chip8.Machine.step` executes the word that stands there, and `Chip8.Machine.tick`
reports a time and executes what is due at it.

A machine that was stopped by a fault refuses all three with that fault, and nothing
about it changes. A machine that waits for a key press executes nothing, but time
goes on for its timers.
-/

namespace Chip8

namespace Machine

/-- Have the processor execute an instruction, with the next random byte if the
instruction draws one. -/
def perform (m : Machine) (i : Instruction) : Except FaultKind Flow × Machine :=
  let (noise, random) := if i.drawsRandom then m.random.draw else (0, m.random)
  let (result, processor) := m.processor.execute m.settings.shift noise i
  (result, { m with processor, random })

/-- Stop a machine because of a fault. -/
def halt (m : Machine) (fault : Fault) (emitted : List Diagnostic) :
    Response (Except Fault Flow) :=
  ⟨.error fault, { m with fault := some fault }, emitted ++ [⟨.error, fault.message⟩]⟩

/-- The line that precedes the execution of an instruction. It is written by machines
that were built to trace what they execute, as all are here; one that was not leaves
out this line and is the same in everything else. -/
def traceOf (m : Machine) (i : Instruction) : Diagnostic :=
  ⟨.trace, upperHex 4 m.processor.pc.toNat ++ ": " ++ i.mnemonic⟩

/-- Execute a word on a machine that neither was stopped nor waits. A fault names the
program counter at which the word was to be executed. Every word that is an instruction
is traced, also one that cannot be executed. -/
def dispatch (m : Machine) (word : UInt16) : Response (Except Fault Flow) :=
  match Instruction.decode word with
  | none => m.halt ⟨.unknownInstruction, m.processor.pc, word⟩ []
  | some i =>
    match m.perform i with
    | (.error kind, m') => m'.halt ⟨kind, m.processor.pc, word⟩ [m.traceOf i]
    | (.ok flow, m') => ⟨.ok flow, m', [m.traceOf i]⟩

/-- Execute a word as if it stood at the program counter. -/
def execute (m : Machine) (word : UInt16) : Response (Except Fault Flow) :=
  match m.fault with
  | some fault => ⟨.error fault, m, []⟩
  | none =>
    match m.processor.awaiting with
    | some _ => ⟨.ok .awaitKey, m, []⟩
    | none => m.dispatch word

/-- Execute the word at the program counter. -/
def step (m : Machine) : Response (Except Fault Flow) := m.execute m.processor.fetch

/-- Report a time to the gate of the timers, and count them down if it fires. -/
def tickTimers (m : Machine) (now : Nat) : Machine :=
  let (fires, timer) := m.timer.poll now
  if fires then { m with timer, processor := m.processor.countDown } else { m with timer }

/-- Report a time to the gate of the instructions, and execute one if it fires. A
machine that waits for a key press only notes the time. -/
def tickClock (m : Machine) (now : Nat) : Response (Except Fault Flow) :=
  match m.processor.awaiting with
  | some _ => ⟨.ok .idle, { m with clock := m.clock.arm now }, []⟩
  | none =>
    let (fires, clock) := m.clock.poll now
    let m := { m with clock }
    if fires then m.step else ⟨.ok .idle, m, []⟩

/-- Advance a machine to a time, in milliseconds: at most one instruction and one
countdown of the timers, each when its gate fires. A fault leaves the timers where
they are. -/
def tick (m : Machine) (now : Nat) : Response (Except Fault Flow) :=
  match m.fault with
  | some fault => ⟨.error fault, m, []⟩
  | none =>
    let r := m.tickClock now
    match r.answer with
    | .error _ => r
    | .ok _ => { r with machine := r.machine.tickTimers now }

end Machine

end Chip8
