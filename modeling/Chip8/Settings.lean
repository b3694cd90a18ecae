import Chip8.Processor.Execute

/-!
# Settings

What can be chosen about a machine when it is built.
-/

namespace Chip8

/-- The choices for a machine. -/
structure Settings where
  /-- What shift instructions shift. -/
  shift : ShiftRule
  /-- The milliseconds that must be exceeded between two instructions. -/
  interval : Nat
  /-- The seed of the random bytes. Without one, every machine draws its own. -/
  seed : Option UInt64
  deriving DecidableEq

namespace Settings

/-- The interval between instructions that is used unless another one is chosen;
about five hundred instructions a second. -/
def standardInterval : Nat := 3

/-- The choices that hold unless others are made. -/
def standard : Settings where
  shift := .modern
  interval := standardInterval
  seed := none

end Settings

end Chip8
