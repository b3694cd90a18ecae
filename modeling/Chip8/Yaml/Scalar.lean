import Chip8.Numeral
import Chip8.Yaml.Character

/-!
# Scalars

Reading the text of a plain or quoted scalar, which may go on over several lines.
Lines are folded: a single line break between two parts of the text stands for a
blank, further ones for themselves, and blanks around the breaks for nothing. This
is kept track of by `Chip8.Yaml.Fold`. The two readers, `Chip8.Yaml.plain` and
`Chip8.Yaml.quoted`, go through the text character by character.
-/

namespace Chip8

namespace Yaml

/-! ### Places -/

/-- A place in a text. -/
structure Position where
  /-- The number of the line. -/
  line : Nat
  /-- The number of characters before it in the line. -/
  column : Nat
  /-- The number of bytes before it in the line. -/
  offset : Nat

namespace Position

/-- The beginning of a text. -/
def start : Position := ⟨0, 0, 0⟩

/-- The place after a character of the line. -/
def next (p : Position) (c : Char) : Position := ⟨p.line, p.column + 1, p.offset + c.utf8Size⟩

/-- The beginning of the next line. -/
def newLine (p : Position) : Position := ⟨p.line + 1, 0, 0⟩

end Position

/-- A place in a document, with what follows. -/
structure Cursor where
  /-- The text that follows. -/
  rest : List Char
  /-- The place. -/
  place : Position

/-! ### Folding lines -/

/-- The text of a scalar so far, and the blanks and breaks that follow it. -/
structure Fold where
  /-- The text, last character first. -/
  text : List Char
  /-- The blanks that follow, last one first. -/
  blanks : List Char
  /-- Whether a line has ended since the text. -/
  broken : Bool
  /-- The break at which it ended, unless the break was escaped. -/
  first : Option Char
  /-- The breaks after that, last one first. -/
  later : List Char

namespace Fold

/-- No text. -/
def empty : Fold := ⟨[], [], false, none, []⟩

/-- What the blanks and breaks at the end stand for, last character first. -/
def pending (f : Fold) : List Char :=
  if f.broken then
    match f.first with
    | none => f.later
    | some b =>
      if b == '\n' then (if f.later.isEmpty then [' '] else f.later) else f.later ++ [b]
  else f.blanks

/-- The text goes on: the blanks and breaks before are part of it. -/
def flush (f : Fold) : Fold := { empty with text := f.pending ++ f.text }

/-- The text goes on with a character. -/
def push (f : Fold) (c : Char) : Fold := { empty with text := c :: (f.pending ++ f.text) }

/-- A blank follows; after a line break it is indentation. -/
def blank (f : Fold) (c : Char) : Fold :=
  if f.broken then f else { f with blanks := c :: f.blanks }

/-- A line break follows. -/
def lineBreak (f : Fold) (c : Char) : Fold :=
  if f.broken then { f with later := c :: f.later }
  else { f with blanks := [], broken := true, first := some c }

/-- A line break follows that is escaped. -/
def escapedBreak (f : Fold) : Fold := { f.flush with broken := true }

/-- The text, without what follows it. -/
def result (f : Fold) : String := String.ofList f.text.reverse

end Fold

/-! ### Plain scalars -/

/-- What was read of a scalar. -/
structure Scanned where
  /-- Its text. -/
  text : String
  /-- Where it ends. -/
  stop : Cursor
  /-- Whether the end is on a new line. -/
  broken : Bool

/-- Whether a plain scalar in a flow collection ends before a character. -/
def isFlowIndicator (c : Char) : Bool :=
  c == ',' || c == '[' || c == ']' || c == '{' || c == '}'

/-- Read a plain scalar. It ends before a comment, a colon with space after it, a
separator of documents, an indicator of the flow collection around it, or a line
that is not indented by `indent`. The flag `fresh` says that blanks or breaks stand
before the text that follows. -/
def plain (flow : Bool) (indent : Nat) :
    List Char → Position → Bool → Fold → Except Malformed Scanned
  | [], p, _, fold => .ok ⟨fold.result, ⟨[], p⟩, fold.broken⟩
  | c :: rest, p, fresh, fold =>
    let ending : Scanned := ⟨fold.result, ⟨c :: rest, p⟩, fold.broken⟩
    if isBreak c then plain flow indent rest p.newLine true (fold.lineBreak c)
    else if isBlank c then
      if fold.broken && c == '\t' && p.column < indent then .error .tabIndentation
      else plain flow indent rest (p.next c) true (fold.blank c)
    else if fresh &&
        ((!flow && p.column < indent) || c == '#' || atSeparator p.column (c :: rest)) then
      .ok ending
    else if c == ':' && flow && (rest.head?.any fun d => isFlowIndicator d || d == '?') then
      .error .misplacedIndicator
    else if (c == ':' && atSpace rest) || (flow && isFlowIndicator c) then .ok ending
    else plain flow indent rest (p.next c) false (fold.push c)

/-! ### Quoted scalars -/

/-- Where a reader of quoted text is. -/
inductive QuoteState where
  /-- In the text. -/
  | text
  /-- After a single quote, which is part of the text if another one follows. -/
  | quote
  /-- After a backslash. -/
  | escape
  /-- In an escape by number, with so many digits to come after the next one, and with a
  value so far. -/
  | digits (more value : Nat)

/-- The character for which an escape of one letter stands. -/
def escaped? : Char → Option Char
  | '0' => some '\x00'
  | 'a' => some '\x07'
  | 'b' => some '\x08'
  | 't' => some '\t'
  | '\t' => some '\t'
  | 'n' => some '\n'
  | 'v' => some '\x0B'
  | 'f' => some '\x0C'
  | 'r' => some '\r'
  | 'e' => some '\x1B'
  | ' ' => some ' '
  | '\"' => some '\"'
  | '/' => some '/'
  | '\\' => some '\\'
  | 'N' => some '\x85'
  | '_' => some '\xA0'
  | 'L' => some '\u2028'
  | 'P' => some '\u2029'
  | _ => none

/-- The number of digits of an escape by number. -/
def escapeDigits? : Char → Option Nat
  | 'x' => some 2
  | 'u' => some 4
  | 'U' => some 8
  | _ => none

/-- The character with a number, if there is one. -/
def charOf? (n : Nat) : Option Char := if n.isValidChar then some (Char.ofNat n) else none

/-- Read quoted text, in double quotes or in single ones, after the opening quote. -/
def quoted (double : Bool) :
    QuoteState → List Char → Position → Fold → Except Malformed Scanned
  | .quote, [], p, fold => .ok ⟨fold.result, ⟨[], p⟩, false⟩
  | _, [], _, _ => .error .unclosedQuote
  | .quote, c :: rest, p, fold =>
    if c == '\'' then quoted double .text rest (p.next c) (fold.push c)
    else .ok ⟨fold.result, ⟨c :: rest, p⟩, false⟩
  | .escape, c :: rest, p, fold =>
    if isBreak c then quoted double .text rest p.newLine fold.escapedBreak
    else
      match escaped? c, escapeDigits? c with
      | some e, _ => quoted double .text rest (p.next c) (fold.push e)
      | none, some n => quoted double (.digits (n - 1) 0) rest (p.next c) fold
      | none, none => .error .unknownEscape
  | .digits more value, c :: rest, p, fold =>
    match digitValue? c with
    | none => .error .unknownEscape
    | some d =>
      match more with
      | more + 1 => quoted double (.digits more (value * 16 + d)) rest (p.next c) fold
      | 0 =>
        match charOf? (value * 16 + d) with
        | none => .error .unknownEscape
        | some e => quoted double .text rest (p.next c) (fold.push e)
  | .text, c :: rest, p, fold =>
    if atSeparator p.column (c :: rest) then .error .unclosedQuote
    else if isBreak c then quoted double .text rest p.newLine (fold.lineBreak c)
    else if isBlank c then quoted double .text rest (p.next c) (fold.blank c)
    else if double && c == '\"' then .ok ⟨fold.flush.result, ⟨rest, p.next c⟩, false⟩
    else if double && c == '\\' then quoted double .escape rest (p.next c) fold.flush
    else if !double && c == '\'' then quoted double .quote rest (p.next c) fold.flush
    else quoted double .text rest (p.next c) (fold.push c)

end Yaml

end Chip8
