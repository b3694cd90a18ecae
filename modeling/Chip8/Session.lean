import Chip8.Command.Basic
import Chip8.Command.Error
import Chip8.Listing
import Chip8.Machine.Load
import Chip8.Machine.Step

/-!
# Sessions

What comes of a command. To list a program is done at once; to run one takes time, and
`Chip8.Session` is what there is meanwhile: a machine, and the time at which it is shut
off. A session goes on from one reading of the clock to the next
(`Chip8.Session.advance`), until the time is up or the machine is stopped by a fault;
`Chip8.Session.follow` takes a list of readings. In both cases the screen is shown at the
end.

Files are given by what comes of opening them (`Chip8.Files`), so that nothing here
depends on the world outside.
-/

namespace Chip8

/-- What comes of opening the files that paths lead to. -/
abbrev Files := String → Except FileError ByteSource

/-- The end of a command. -/
inductive Ending where
  /-- The arguments write no command. -/
  | misused
  /-- The command was carried out, with some output. -/
  | done (output : String)
  /-- The command failed, after some output. -/
  | failed (output : String) (error : CommandError)
  deriving DecidableEq

namespace Ending

/-- The number that tells how a command ended. -/
def code : Ending → Nat
  | misused => 64
  | done _ => 0
  | failed _ _ => 1

/-- What a command writes. -/
def output : Ending → String
  | misused => Command.usage ++ "\n"
  | done output => output
  | failed output _ => output

/-- What is written of the failure of a command. -/
def complaint : Ending → String
  | failed _ error => "Error: " ++ error.details ++ "\n"
  | _ => ""

end Ending

/-- A program that is being run. -/
structure Session where
  /-- The machine. -/
  machine : Machine
  /-- The time at which it is shut off, in milliseconds. -/
  limit : Nat

/-- How far a command has come. -/
inductive Progress where
  /-- It goes on. -/
  | running (session : Session)
  /-- It has ended. -/
  | ended (ending : Ending)

namespace Session

/-- What the screen shows, with an empty line after it. -/
def picture (s : Session) : String := s.machine.processor.screen.text ++ "\n"

/-- Go on at a reading of the clock. -/
def advance (s : Session) (now : Nat) : Progress :=
  if s.limit ≤ now then .ended (.done s.picture)
  else
    let r := s.machine.tick now
    match r.answer with
    | .ok _ => .running { s with machine := r.machine.markPainted }
    | .error fault =>
      .ended (.failed { s with machine := r.machine }.picture (.machine (.halted fault)))

/-- Go on at each of some readings of the clock, as long as there is something to do. -/
def follow (s : Session) : List Nat → Progress
  | [] => .running s
  | now :: readings =>
    match s.advance now with
    | .running s => s.follow readings
    | .ended ending => .ended ending

end Session

/-! ### Beginning -/

/-- The configuration in a file. -/
def Configuration.ofFile (opened : Except FileError ByteSource) :
    Except CommandError Configuration :=
  match opened with
  | .error cause => .error (.file cause)
  | .ok source =>
    match source.readAll with
    | .error cause => .error (.configuration (.unreadable cause))
    | .ok bytes =>
      match ofBytes bytes with
      | .error cause => .error (.configuration cause)
      | .ok c => .ok c

/-- The configuration for a program: the one in a file that is named, or the standard
one. -/
def Configuration.choose (files : Files) : Option String → Except CommandError Configuration
  | none => .ok standard
  | some file => ofFile (files file)

/-- Begin to run a program under a configuration. The entropy is the seed of the random
bytes if the configuration has none. -/
def Session.begin (files : Files) (entropy : UInt64) (c : Configuration) (file : String)
    (limit : Nat) : Except CommandError Session :=
  let r := (Machine.create (c.settingsFor file) entropy).machine.loadFile file (files file)
  match r.answer with
  | .error cause => .error (.machine (.load cause))
  | .ok () => .ok ⟨r.machine, limit⟩

/-- The listing of the program in a file. -/
def Listing.ofFile (opened : Except FileError ByteSource) : Except CommandError String :=
  match opened with
  | .error cause => .error (.file cause)
  | .ok source =>
    match source.readAll with
    | .error cause => .error (.file cause)
    | .ok program => .ok (ofProgram program)

namespace Command

/-- Begin to carry out a command. -/
def begin (files : Files) (entropy : UInt64) : Command → Progress
  | run file config limit =>
    match Configuration.choose files config with
    | .error e => .ended (.failed "" e)
    | .ok c =>
      match Session.begin files entropy c file limit with
      | .error e => .ended (.failed "" e)
      | .ok s => .running s
  | list file =>
    match Listing.ofFile (files file) with
    | .error e => .ended (.failed "" e)
    | .ok listing => .ended (.done listing)

/-- Begin to do what arguments ask for. -/
def start (files : Files) (entropy : UInt64) (arguments : List String) : Progress :=
  match parse arguments with
  | none => .ended .misused
  | some command => command.begin files entropy

end Command

end Chip8
