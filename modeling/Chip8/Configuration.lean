import Chip8.Diagnostic
import Chip8.Failure
import Chip8.Path
import Chip8.Settings
import Chip8.Yaml.Node

/-!
# Configurations

A configuration holds settings for every program, and a list of overrides for programs
that need another rule for shift instructions. It is written in YAML:

* `machine` – a mapping with the settings `shift_quirk` (`legacy` or `modern`),
  `instruction_interval_ms` and `rng_seed`, each of which may be left out;
* `roms` – a sequence of mappings with a `name` and a `shift_quirk`.

`Chip8.Configuration.parse` reads a configuration, and
`Chip8.Configuration.settingsFor` gives the settings for a program: the first override
that names the program's file, with or without its extension, applies.
-/

namespace Chip8

/-! ### Reading values -/

/-- The reasons for which a configuration cannot be read. -/
inductive ConfigurationError where
  /-- The file was opened but cannot be read. -/
  | unreadable (cause : FileError)
  /-- The file does not hold text. -/
  | notText
  /-- The text is no YAML document. -/
  | malformed (cause : Yaml.Malformed)
  /-- A value is not of the form that is needed. -/
  | wrongForm
  /-- A key occurs twice. -/
  | repeated (key : String)
  /-- A key is missing. -/
  | missing (key : String)
  deriving DecidableEq

namespace Yaml.Node

/-- The entries of a mapping; where the mapping is left out, there are none. -/
def entries? : Node → Except ConfigurationError (List (Node × Node))
  | mapping entries => .ok entries
  | scalar "" true => .ok []
  | _ => .error .wrongForm

/-- The items of a sequence; where the sequence is left out, there are none. -/
def items? : Node → Except ConfigurationError (List Node)
  | sequence items => .ok items
  | scalar "" true => .ok []
  | _ => .error .wrongForm

/-- A text: any scalar, as it is written. -/
def text? : Node → Except ConfigurationError String
  | scalar text _ => .ok text
  | _ => .error .wrongForm

/-- Whether a value stands for the absence of a value. -/
def isNull : Node → Bool
  | scalar text isPlain =>
    isPlain && (text == "" || text == "null" || text == "Null" || text == "NULL" || text == "~")
  | _ => false

/-- Whether digits are written with a leading zero, which makes them a text. -/
def hasLeadingZero (digits : List Char) : Bool :=
  match digits with
  | '0' :: c :: rest => (c :: rest).all Char.isDigit
  | _ => false

/-- The number of sixty-four bits that a plain scalar writes: decimal digits without
leading zeros, or other digits after a mark of their base, and a plus sign before them or
none. -/
def numberOf? (text : List Char) : Option Nat :=
  match dropPlus text with
  | '0' :: 'x' :: digits => ofDigits? 16 digits
  | '0' :: 'o' :: digits => ofDigits? 8 digits
  | '0' :: 'b' :: digits => ofDigits? 2 digits
  | digits => if hasLeadingZero digits then none else ofDigits? 10 digits

/-- A number of sixty-four bits. -/
def number? : Node → Except ConfigurationError Nat
  | scalar text true =>
    match numberOf? text.toList with
    | some n => .ok n
    | none => .error .wrongForm
  | _ => .error .wrongForm

/-- A number of sixty-four bits, or none. -/
def optionalNumber? (node : Node) : Except ConfigurationError (Option Nat) :=
  if node.isNull then .ok none
  else
    match node.number? with
    | .ok n => .ok (some n)
    | .error e => .error e

/-- A rule for shift instructions, by its name. -/
def shiftRule? : Node → Except ConfigurationError ShiftRule
  | scalar "legacy" _ => .ok .legacy
  | scalar "modern" _ => .ok .modern
  | _ => .error .wrongForm

/-- The entries of a mapping whose keys are texts. -/
def fields? (node : Node) : Except ConfigurationError (List (String × Node)) := do
  (← node.entries?).mapM fun (key, value) => do return (← key.text?, value)

end Yaml.Node

namespace Yaml

/-- The value of a key that may be left out, and may not occur twice. -/
def valueOf? (fields : List (String × Node)) (key : String) :
    Except ConfigurationError (Option Node) :=
  match fields.filter (·.1 == key) with
  | [] => .ok none
  | [(_, value)] => .ok (some value)
  | _ => .error (.repeated key)

/-- What a reader makes of the value of a key, or something else if the key is left
out. -/
def valueOr {α : Type} (fields : List (String × Node)) (key : String)
    (reader : Node → Except ConfigurationError α) (otherwise : α) :
    Except ConfigurationError α := do
  match ← valueOf? fields key with
  | none => return otherwise
  | some value => reader value

/-- What a reader makes of the value of a key, which may not be left out. -/
def requiredValue {α : Type} (fields : List (String × Node)) (key : String)
    (reader : Node → Except ConfigurationError α) : Except ConfigurationError α := do
  match ← valueOf? fields key with
  | none => .error (.missing key)
  | some value => reader value

end Yaml

/-- Settings, with the standard ones where they are left out. -/
def Settings.ofNode? (node : Yaml.Node) : Except ConfigurationError Settings := do
  let fields ← node.fields?
  let shift ← Yaml.valueOr fields "shift_quirk" Yaml.Node.shiftRule? Settings.standard.shift
  let interval ←
    Yaml.valueOr fields "instruction_interval_ms" Yaml.Node.number? Settings.standard.interval
  let seed ← Yaml.valueOr fields "rng_seed" Yaml.Node.optionalNumber? none
  return { shift, interval, seed := seed.map UInt64.ofNat }

/-! ### Configurations -/

/-- The rule for shift instructions that a program needs. -/
structure Override where
  /-- The file name of the program, with or without extension. -/
  name : String
  /-- The rule. -/
  shift : ShiftRule
  deriving DecidableEq

/-- An override, for which both keys are needed. -/
def Override.ofNode? (node : Yaml.Node) : Except ConfigurationError Override := do
  let fields ← node.fields?
  let name ← Yaml.requiredValue fields "name" Yaml.Node.text?
  let shift ← Yaml.requiredValue fields "shift_quirk" Yaml.Node.shiftRule?
  return { name, shift }

/-- Whether an override applies to the program in a file: its name is that of the file or
its stem. Paths are text, as those on a command line are; file names that are not text,
which no override could name, are left out. -/
def Override.appliesTo (o : Override) (path : String) : Bool :=
  match Path.fileName? path.toList with
  | none => false
  | some file =>
    Path.sameName file o.name.toList || Path.sameName (Path.stem file) o.name.toList

/-- What is configured for programs. -/
structure Configuration where
  /-- The settings for every program. -/
  machine : Settings
  /-- The overrides for single programs. -/
  overrides : List Override
  deriving DecidableEq

namespace Configuration

/-- The configuration that holds unless another one is given. -/
def standard : Configuration := ⟨.standard, []⟩

/-- The configuration that a document describes. -/
def ofNode? (node : Yaml.Node) : Except ConfigurationError Configuration := do
  let fields ← node.fields?
  let machine ← Yaml.valueOr fields "machine" Settings.ofNode? standard.machine
  let overrides ← Yaml.valueOr fields "roms"
    (fun value => do (← value.items?).mapM Override.ofNode?) standard.overrides
  return { machine, overrides }

/-- Read a configuration. A text without any document stands for the standard one. -/
def parse (source : String) : Except ConfigurationError Configuration :=
  match Yaml.Node.parse source with
  | .error cause => .error (.malformed cause)
  | .ok none => .ok standard
  | .ok (some node) => ofNode? node

/-- Read a configuration from the bytes of a file. -/
def ofBytes (bytes : List UInt8) : Except ConfigurationError Configuration :=
  match String.fromUTF8? ⟨bytes.toArray⟩ with
  | none => .error .notText
  | some source => parse source

/-- The override that applies to the program in a file: the first of those that do. -/
def overrideFor? (c : Configuration) (path : String) : Option Override :=
  c.overrides.find? (·.appliesTo path)

/-- The settings for the program in a file. -/
def settingsFor (c : Configuration) (path : String) : Settings :=
  match c.overrideFor? path with
  | none => c.machine
  | some o => { c.machine with shift := o.shift }

/-- What is said when settings for the program in a file are chosen. -/
def remarksFor (c : Configuration) (path : String) : List Diagnostic :=
  match c.overrideFor? path with
  | none => []
  | some o => [⟨.info, "applying compatibility overrides for " ++ o.name⟩]

end Configuration

end Chip8
