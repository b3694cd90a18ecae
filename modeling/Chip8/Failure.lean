import Chip8.Fault

/-!
# Failures

Why a program could not be loaded (`Chip8.LoadError`), and what a machine can report
as gone wrong altogether (`Chip8.MachineError`). Both rest on `Chip8.FileError`, the
reasons for which data cannot be had from a file or another source of bytes.
-/

namespace Chip8

/-- The reasons for which data cannot be had. -/
inductive FileError where
  /-- There is no such file. -/
  | notFound
  /-- The path goes through something that is no directory. -/
  | notDirectory
  /-- The path names a directory. -/
  | isDirectory
  /-- Another reason, in the words of the source. -/
  | other (text : String)
  deriving DecidableEq

/-- What is said of a file error: the words of the operating system with its error
number, or those of the source. -/
def FileError.message : FileError → String
  | notFound => "No such file or directory (os error 2)"
  | notDirectory => "Not a directory (os error 20)"
  | isDirectory => "Is a directory (os error 21)"
  | other text => text

/-- The reasons for which a program cannot be loaded. -/
inductive LoadError where
  /-- The program is larger than the memory behind the start address. -/
  | tooLarge (size : Nat)
  /-- The program cannot be read. -/
  | unreadable (cause : FileError)
  deriving DecidableEq

/-- What is said of a program that cannot be loaded. -/
def LoadError.message : LoadError → String
  | tooLarge size =>
    "program of " ++ decimal size ++ " bytes too large for VM memory (max " ++
      decimal Memory.programCapacity ++ ")"
  | unreadable cause => cause.message

/-- What can go wrong with a machine. -/
inductive MachineError where
  /-- A program was not loaded. -/
  | load (cause : LoadError)
  /-- An instruction could not be executed. -/
  | halted (fault : Fault)
  deriving DecidableEq

/-- What is said of a machine error. -/
def MachineError.message : MachineError → String
  | load cause => cause.message
  | halted fault => "runtime error: " ++ fault.message

end Chip8
