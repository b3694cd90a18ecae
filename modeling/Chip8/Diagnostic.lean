/-!
# Diagnostics

What a machine says about its work, besides the answers it gives: lines with a
level, from `Chip8.Level.error` to `Chip8.Level.trace`. Nobody has to listen;
`Chip8.Sink` is what a listener makes of a line.
-/

namespace Chip8

/-- How much a line matters. -/
inductive Level where
  /-- Something failed. -/
  | error
  /-- Something may be wrong. -/
  | warn
  /-- Something of interest happened. -/
  | info
  /-- Something happened that helps to find mistakes. -/
  | debug
  /-- Everything that happens. -/
  | trace
  deriving DecidableEq

namespace Level

/-- The levels, from the weightiest on. -/
def all : List Level := [error, warn, info, debug, trace]

/-- The place of a level among them. -/
def rank : Level → Nat
  | error => 0
  | warn => 1
  | info => 2
  | debug => 3
  | trace => 4

/-- A level is below another that is less weighty. -/
instance : LT Level := ⟨fun a b => a.rank < b.rank⟩

instance (a b : Level) : Decidable (a < b) := inferInstanceAs (Decidable (a.rank < b.rank))

/-- The name of a level. -/
def name : Level → String
  | error => "Error"
  | warn => "Warn"
  | info => "Info"
  | debug => "Debug"
  | trace => "Trace"

/-- The name of a level as it leads a line of a log. -/
def label : Level → String
  | error => "ERROR"
  | warn => "WARN"
  | info => "INFO"
  | debug => "DEBUG"
  | trace => "TRACE"

end Level

/-- A line about the work of a machine. -/
structure Diagnostic where
  /-- How much the line matters. -/
  level : Level
  /-- What the line says. -/
  message : String
  deriving DecidableEq

/-- What a listener makes of a line: the lines it writes down. -/
abbrev Sink := Diagnostic → List String

namespace Sink

/-- The subject under which lines go into a log. -/
def subject : String := "chip8"

/-- The listener that keeps a log. -/
def log : Sink := fun d => [d.level.label ++ " " ++ subject ++ ": " ++ d.message]

/-- The listener that does not listen. -/
def silent : Sink := fun _ => []

end Sink

end Chip8
