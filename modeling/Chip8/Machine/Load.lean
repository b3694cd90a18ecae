import Chip8.Failure
import Chip8.Machine.Basic

/-!
# Loading programs

A program is loaded from its bytes (`Chip8.Machine.load`), from a source that
delivers them in pieces (`Chip8.Machine.loadFrom`) or from a file
(`Chip8.Machine.loadFile`). Loading resets the machine first. If it fails, the
machine is as it was.
-/

namespace Chip8

/-- A source of bytes, as it will answer a reader. -/
inductive ByteSource where
  /-- There are no more bytes. -/
  | done
  /-- The next read fails. -/
  | broken (cause : FileError)
  /-- The next read gives one or more bytes. -/
  | piece (first : UInt8) (others : List UInt8) (next : ByteSource)
  deriving DecidableEq

namespace ByteSource

/-- All bytes of a source, unless a read fails. -/
def readAll : ByteSource → Except FileError (List UInt8)
  | done => .ok []
  | broken cause => .error cause
  | piece first others next =>
    match next.readAll with
    | .ok bytes => .ok (first :: others ++ bytes)
    | .error cause => .error cause

/-- The source that gives all bytes at once. -/
def ofList : List UInt8 → ByteSource
  | [] => done
  | first :: others => piece first others done

end ByteSource

namespace Machine

/-- Load a program. -/
def load (m : Machine) (program : List UInt8) : Response (Except LoadError Unit) :=
  let size := program.length
  if Memory.programCapacity < size then
    ⟨.error (.tooLarge size), m,
      [⟨.error, "rejected program of " ++ decimal size ++ " bytes"⟩]⟩
  else
    let r := m.reset
    let p := r.machine.processor
    ⟨.ok (), { r.machine with processor := { p with memory := p.memory.loadProgram program } },
      r.emitted ++ [⟨.info, "loaded program of " ++ decimal size ++ " bytes"⟩]⟩

/-- Load a program from a source of bytes. -/
def loadFrom (m : Machine) (source : ByteSource) : Response (Except LoadError Unit) :=
  match source.readAll with
  | .ok program => m.load program
  | .error cause =>
    ⟨.error (.unreadable cause), m, [⟨.error, "failed to read program: " ++ cause.message⟩]⟩

/-- Load a program from a file, given by its path and what comes of opening it. -/
def loadFile (m : Machine) (path : String) (opened : Except FileError ByteSource) :
    Response (Except LoadError Unit) :=
  match opened with
  | .ok source => m.loadFrom source
  | .error cause =>
    ⟨.error (.unreadable cause), m,
      [⟨.error, "failed to open " ++ path ++ ": " ++ cause.message⟩]⟩

end Machine

end Chip8
