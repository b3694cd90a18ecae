import Chip8.Machine.Load
import Chip8.Machine.Step
import Chip8.Processor.Edit

/-!
# Operations and histories

Everything that can be done to a machine, as data: `Chip8.Operation`, with the effect
of one operation, `Chip8.Machine.apply`, and of a sequence of them,
`Chip8.Machine.run`.
-/

namespace Chip8

/-- Results of attempts can be compared if results and failures can. -/
instance decidableEqExcept {ε α : Type} [DecidableEq ε] [DecidableEq α] :
    DecidableEq (Except ε α)
  | .ok a, .ok b => decidable_of_iff (a = b) (by simp)
  | .error e, .error f => decidable_of_iff (e = f) (by simp)
  | .ok _, .error _ => isFalse nofun
  | .error _, .ok _ => isFalse nofun

/-- Something that is done to a machine. -/
inductive Operation where
  /-- Bring it back to its start. -/
  | reset
  /-- Load a program. -/
  | load (program : List UInt8)
  /-- Load a program from a source of bytes. -/
  | loadFrom (source : ByteSource)
  /-- Load a program from a file. -/
  | loadFile (path : String) (opened : Except FileError ByteSource)
  /-- Execute the word at the program counter. -/
  | step
  /-- Execute a word. -/
  | execute (word : UInt16)
  /-- Advance to a time. -/
  | tick (now : Nat)
  /-- Press a key. -/
  | pressKey (key : Key)
  /-- Release a key. -/
  | releaseKey (key : Key)
  /-- Release all keys. -/
  | releaseKeys
  /-- Note that the screen has been painted. -/
  | markPainted
  /-- Ask whether the screen is to be painted, and promise to do so. -/
  | takeRepaint
  /-- Change the processor directly. -/
  | edit (change : Processor.Edit)
  deriving DecidableEq

/-- The answer to an operation. -/
inductive Answer where
  /-- The operation is done. -/
  | done
  /-- What execution did. -/
  | flow (flow : Flow)
  /-- The operation failed. -/
  | failed (error : MachineError)
  /-- The answer to a question. -/
  | flag (value : Bool)
  deriving DecidableEq

namespace Answer

/-- The answer of an attempt to execute something. -/
def ofExecution : Except Fault Flow → Answer
  | .ok f => .flow f
  | .error fault => .failed (.halted fault)

/-- The answer of an attempt to load something. -/
def ofLoading : Except LoadError Unit → Answer
  | .ok () => .done
  | .error cause => .failed (.load cause)

end Answer

/-- Pass an answer on in another form. -/
def Response.map {α β : Type} (f : α → β) (r : Response α) : Response β :=
  ⟨f r.answer, r.machine, r.emitted⟩

namespace Machine

/-- A machine as the outcome of an operation that emits nothing. -/
def done (m : Machine) : Response Answer := ⟨.done, m, []⟩

/-- Do something to a machine. -/
def apply (m : Machine) : Operation → Response Answer
  | .reset => m.reset.map fun () => .done
  | .load program => (m.load program).map .ofLoading
  | .loadFrom source => (m.loadFrom source).map .ofLoading
  | .loadFile path opened => (m.loadFile path opened).map .ofLoading
  | .step => m.step.map .ofExecution
  | .execute word => (m.execute word).map .ofExecution
  | .tick now => (m.tick now).map .ofExecution
  | .pressKey key => (m.pressKey key).map fun () => .done
  | .releaseKey key => (m.releaseKey key).done
  | .releaseKeys => m.releaseKeys.done
  | .markPainted => m.markPainted.done
  | .takeRepaint => ⟨.flag m.takeRepaint.1, m.takeRepaint.2, []⟩
  | .edit change => { m with processor := m.processor.edit change }.done

/-- The machine after a sequence of operations. -/
def run (m : Machine) (operations : List Operation) : Machine :=
  operations.foldl (fun m operation => (m.apply operation).machine) m

end Machine

end Chip8
