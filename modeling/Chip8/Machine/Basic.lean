import Chip8.Diagnostic
import Chip8.Fault
import Chip8.Gate
import Chip8.Random.Stream
import Chip8.Settings

/-!
# The machine

`Chip8.Machine` is a processor with what drives it: a gate for its instructions and
one for its timers, a generator of random bytes, and the fault that stopped it, if
one did. Operations on a machine give a `Chip8.Response`: their answer, the machine
afterwards, and the diagnostics they emitted on the way.

A machine is built by `Chip8.Machine.create` and brought back to its start by
`Chip8.Machine.reset`.
-/

namespace Chip8

/-- A machine. -/
structure Machine where
  /-- The choices made for it. -/
  settings : Settings
  /-- The seed of its random bytes if its settings have none, drawn once for all its
  restarts. -/
  entropy : UInt64
  /-- The processor. -/
  processor : Processor
  /-- The gate through which instructions are executed. -/
  clock : Gate
  /-- The gate through which the timers are counted down. -/
  timer : Gate
  /-- The random bytes. -/
  random : RandomStream
  /-- The fault that stopped the machine. -/
  fault : Option Fault
  deriving DecidableEq

/-- The outcome of an operation on a machine. -/
structure Response (α : Type) where
  /-- The answer to the caller. -/
  answer : α
  /-- The machine after the operation. -/
  machine : Machine
  /-- The diagnostics, in the order in which they were emitted. -/
  emitted : List Diagnostic

namespace Machine

/-- The milliseconds that must be exceeded between two countdowns of the timers;
about sixty countdowns a second. -/
def timerInterval : Nat := 16

/-- The seed of the random bytes. A machine whose settings have none goes back to the
entropy it was built with whenever it restarts. That it could draw fresh entropy instead
is left out: what is proved of random bytes is about machines with a seed. -/
def seed (m : Machine) : UInt64 := m.settings.seed.getD m.entropy

/-- Bring a machine back to its start: everything but the choices made for it is as
when it was new, and the memory holds nothing but the font. -/
def reset (m : Machine) : Response Unit where
  answer := ()
  machine := { m with
    processor := m.processor.clear
    clock := m.clock.forget
    timer := m.timer.forget
    random := .ofSeed m.seed
    fault := none }
  emitted := [⟨.debug, "machine reset"⟩]

/-- Build a machine. The entropy is the seed of its random bytes if the settings have
none. -/
def create (settings : Settings) (entropy : UInt64) : Response Unit :=
  reset {
    settings, entropy
    processor := .blank
    clock := .ofInterval settings.interval
    timer := .ofInterval timerInterval
    random := .ofSeed (settings.seed.getD entropy)
    fault := none }

/-- The screen has been painted. -/
def markPainted (m : Machine) : Machine :=
  { m with processor := { m.processor with repaint := false } }

/-- Ask whether the screen is to be painted, and promise to do so. -/
def takeRepaint (m : Machine) : Bool × Machine := (m.processor.repaint, m.markPainted)

/-- Press a key, which ends a wait for a key press. -/
def pressKey (m : Machine) (key : Key) : Response Unit where
  answer := ()
  machine := { m with processor := m.processor.pressKey key }
  emitted :=
    match m.processor.awaiting with
    | none => []
    | some x => [⟨.debug, key.text ++ " resumed execution into v" ++ upperHex 1 x.val⟩]

/-- Release a key. -/
def releaseKey (m : Machine) (key : Key) : Machine :=
  { m with processor := m.processor.releaseKey key }

/-- Release all keys. -/
def releaseKeys (m : Machine) : Machine := { m with processor := m.processor.releaseKeys }

end Machine

end Chip8
