import Chip8.Configuration

/-!
# Failed commands

Why a command failed (`Chip8.CommandError`). Two texts tell of it:
`Chip8.CommandError.message`, in words, and `Chip8.CommandError.details`, in the
bracketed form that the command line prints, which names each cause inside the one that
it led to.
-/

namespace Chip8

/-- The reasons for which a command fails. -/
inductive CommandError where
  /-- Something went wrong with the machine. -/
  | machine (cause : MachineError)
  /-- A file cannot be read. -/
  | file (cause : FileError)
  /-- The configuration cannot be read. -/
  | configuration (cause : ConfigurationError)
  /-- A text cannot be composed. -/
  | formatting
  deriving DecidableEq

/-! ### In words -/

/-- What is said of a text that is no YAML document. -/
def Yaml.Malformed.message : Yaml.Malformed → String
  | controlCharacter => "control characters are not allowed"
  | unexpectedCharacter => "found a character that cannot start any token"
  | tabIndentation => "found a tab character where indentation is expected"
  | unclosedQuote => "found unexpected end of a quoted text"
  | unknownEscape => "found unknown escape character"
  | missingColon => "could not find expected colon"
  | misplacedIndicator => "found an indicator where it is not allowed"
  | unexpectedToken => "did not find expected node content"
  | unsupported => "found a feature that is not supported"
  | severalDocuments => "found more than one document"

/-- What is said of a configuration that cannot be read. -/
def ConfigurationError.message : ConfigurationError → String
  | unreadable cause => cause.message
  | notText => "found bytes that are no text"
  | malformed cause => cause.message
  | wrongForm => "found a value of another form than expected"
  | repeated key => "duplicate field " ++ key
  | missing key => "missing field " ++ key

/-- What is said of a failed command, after the words that begin it. -/
def CommandError.cause : CommandError → String
  | machine cause => cause.message
  | file cause => cause.message
  | configuration cause => "invalid configuration: " ++ cause.message
  | formatting => "an error occurred when formatting an argument"

/-- What is said of a failed command. -/
def CommandError.message (e : CommandError) : String := "application error: " ++ e.cause

/-! ### In brackets -/

/-- A text between quotes. -/
def inQuotes (text : String) : String := "\"" ++ text ++ "\""

/-- The bracketed form of a value with named parts. -/
def bracketed (name : String) (parts : List (String × String)) : String :=
  name ++ " \x7b " ++ ", ".intercalate (parts.map fun (key, value) => key ++ ": " ++ value) ++
    " \x7d"

/-- The bracketed form of an error of the operating system. -/
def systemDetails (number : Nat) (kind text : String) : String :=
  bracketed "Os" [("code", decimal number), ("kind", kind), ("message", inQuotes text)]

/-- The bracketed form of a file error. -/
def FileError.details : FileError → String
  | notFound => systemDetails 2 "NotFound" "No such file or directory"
  | notDirectory => systemDetails 20 "NotADirectory" "Not a directory"
  | isDirectory => systemDetails 21 "IsADirectory" "Is a directory"
  | other text => bracketed "Custom" [("kind", "Other"), ("error", inQuotes text)]

/-- The name of a reason in the bracketed form. -/
def FaultKind.name : FaultKind → String
  | unknownInstruction => "UnknownOpcode"
  | stackOverflow => "StackOverflow"
  | stackUnderflow => "StackUnderflow"

/-- The bracketed form of a fault. -/
def Fault.details (f : Fault) : String :=
  bracketed "RuntimeError" [("kind", f.kind.name), ("pc", decimal f.pc.toNat),
    ("word", decimal f.word.toNat)]

/-- The bracketed form of a machine error. -/
def MachineError.details : MachineError → String
  | load (.tooLarge size) => bracketed "RomTooLarge" [("len", decimal size)]
  | load (.unreadable cause) => "Io(" ++ cause.details ++ ")"
  | halted fault => "Runtime(" ++ fault.details ++ ")"

/-- The bracketed form of the reason for which a command failed. -/
def CommandError.kindDetails : CommandError → String
  | machine cause => "Chip8(" ++ cause.details ++ ")"
  | file cause => "Io(" ++ cause.details ++ ")"
  | configuration cause => "Config(Error(" ++ inQuotes cause.message ++ "))"
  | formatting => "Fmt(Error)"

/-- The bracketed form of a failed command. -/
def CommandError.details (e : CommandError) : String :=
  bracketed "AppError" [("kind", e.kindDetails)]

end Chip8
