import Chip8.Session

/-!
# The program

The command line: arguments and files come in, time passes, and what a command writes
goes out. Everything that is decided is decided by `Chip8.Command.start` and
`Chip8.Session.advance`.
-/

namespace Chip8

/-- The reason for which the system refuses a file. -/
def FileError.ofSystem : IO.Error → FileError
  | .noFileOrDirectory .. => .notFound
  | .inappropriateType _ 20 _ => .notDirectory
  | .inappropriateType _ 21 _ => .isDirectory
  | e => .other (toString e)

/-- Open a file and read what can be read of it. -/
def openFile (path : String) : IO (Except FileError ByteSource) := do
  match ← (IO.FS.Handle.mk path .read).toBaseIO with
  | .error e => return .error (.ofSystem e)
  | .ok handle =>
    match ← handle.readBinToEnd.toBaseIO with
    | .error e => return .ok (.broken (.ofSystem e))
    | .ok bytes => return .ok (.ofList bytes.toList)

/-- The files that a command names. -/
def Command.fileNames : Command → List String
  | run file config _ => file :: config.toList
  | list file => [file]

/-- Open all files that a command names. -/
def openFiles (arguments : List String) : IO Files := do
  let names := ((Command.parse arguments).map Command.fileNames).getD []
  let opened ← names.mapM fun name => return (name, ← openFile name)
  return fun name => (opened.lookup name).getD (.error .notFound)

/-- Write what a command writes, and tell how it ended. -/
def Ending.report (e : Ending) : IO UInt32 := do
  IO.print e.output
  IO.eprint e.complaint
  return .ofNat e.code

/-- Let time pass until a command has ended. -/
partial def Progress.watch (start : Nat) : Progress → IO UInt32
  | .ended ending => ending.report
  | .running session => do
    let progress := session.advance ((← IO.monoMsNow) - start)
    IO.sleep 1
    progress.watch start

end Chip8

open Chip8 in
/-- Carry out the command that the arguments write. -/
def main (arguments : List String) : IO UInt32 := do
  let files ← openFiles arguments
  let entropy := (← IO.getRandomBytes 8).toUInt64LE!
  (Command.start files entropy arguments).watch (← IO.monoMsNow)
