import Chip8.Numeral

/-!
# Commands

What can be asked for on the command line: `run` runs a program for some time, `dis`
lists one. `Chip8.Command.parse` reads a command from its arguments. After `run` and a
file come pairs of an option and its value (`Chip8.RunOption`), and of two options of
one kind the later one counts; after `dis` and a file, whatever follows counts for
nothing.
-/

namespace Chip8

/-- The version of the program. -/
def version : String := "0.4.0"

/-! ### Options -/

/-- An option of `run`. -/
inductive RunOption where
  /-- Read the configuration from a file. -/
  | config (file : String)
  /-- Run for so many milliseconds. -/
  | millis (limit : Nat)
  deriving DecidableEq

namespace RunOption

/-- The option that a name and a value write. -/
def read? (name value : String) : Option RunOption :=
  if name = "--config" then some (.config value)
  else if name = "--millis" then (ofDecimal? value).map .millis
  else none

/-- The options that pairs of a name and a value write. -/
def readAll? : List String → Option (List RunOption)
  | [] => some []
  | [_] => none
  | name :: value :: rest =>
    match read? name value, readAll? rest with
    | some option, some options => some (option :: options)
    | _, _ => none

/-- The configuration and the time after an option, which overwrites one of them. -/
def overwrite (chosen : Option String × Nat) : RunOption → Option String × Nat
  | config file => (some file, chosen.2)
  | millis limit => (chosen.1, limit)

end RunOption

/-! ### Commands -/

/-- What is asked for. -/
inductive Command where
  /-- Run the program in a file for so many milliseconds, with the configuration in a
  file or the standard one. -/
  | run (file : String) (config : Option String) (limit : Nat)
  /-- List the program in a file. -/
  | list (file : String)
  deriving DecidableEq

namespace Command

/-- The milliseconds that a program runs for unless another time is given. -/
def standardLimit : Nat := 5000

/-- The command to run a program with options, each of which overwrites what was chosen before
it. -/
def ofOptions (file : String) (options : List RunOption) : Command :=
  let chosen := options.foldl RunOption.overwrite (none, standardLimit)
  run file chosen.1 chosen.2

/-- The command that arguments write. -/
def parse : List String → Option Command
  | name :: file :: rest =>
    if name = "run" then (RunOption.readAll? rest).map (ofOptions file)
    else if name = "dis" then some (list file)
    else none
  | _ => none

/-- What is said about the use of the program. -/
def usage : String := "\n".intercalate [
  "Chip8 v" ++ version,
  "",
  "usage: chip8 CMD FILE [OPTIONS]",
  "",
  "commands:",
  "    run     Run the target ROM file",
  "    dis     Disassemble the target ROM into readable assembly",
  "",
  "options:",
  "    --config FILE   YAML configuration file",
  "    --millis N      Milliseconds to run for (default 5000)",
  "",
  "examples:",
  "    chip8 run breakout.rom --millis 10000",
  "    chip8 dis breakout.rom",
  ""]

end Command

end Chip8
