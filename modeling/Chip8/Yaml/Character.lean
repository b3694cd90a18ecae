/-!
# Characters of YAML

The classes of characters that the YAML reader tells apart, and the text it reads:
`Chip8.Yaml.characters` refuses the control characters that YAML excludes, and gives
every kind of line ending the form `\n`. A mark of the byte order is no blank, but may
begin a line (`Chip8.Yaml.isOrderMark`).
-/

namespace Chip8

namespace Yaml

/-- The reasons for which a text is no YAML document that this reader knows. -/
inductive Malformed where
  /-- A character that no document may hold. -/
  | controlCharacter
  /-- A character that begins nothing, such as a tab that indents. -/
  | unexpectedCharacter
  /-- A tab where indentation is needed. -/
  | tabIndentation
  /-- A quoted text without an end. -/
  | unclosedQuote
  /-- A backslash that begins no escape, or an escape of no character. -/
  | unknownEscape
  /-- A text that must be a key, without a colon after it. -/
  | missingColon
  /-- A colon or a dash where it cannot stand. -/
  | misplacedIndicator
  /-- Something that does not fit what stands before it. -/
  | unexpectedToken
  /-- A feature of YAML that the reader does not know: anchors, tags, directives, block
  texts and keys marked by a question mark. -/
  | unsupported
  /-- A second document. -/
  | severalDocuments
  deriving DecidableEq

/-- Whether a character ends a line. -/
def isBreak (c : Char) : Bool := c == '\n' || c == '\u2028' || c == '\u2029'

/-- Whether a character is a space or a tab. -/
def isBlank (c : Char) : Bool := c == ' ' || c == '\t'

/-- Whether a character marks the order of bytes. -/
def isOrderMark (c : Char) : Bool := c == '\uFEFF'

/-- Whether the text that follows begins with a blank, ends a line, or is empty. -/
def atSpace : List Char → Bool
  | [] => true
  | c :: _ => isBlank c || isBreak c

/-- Whether a document may hold a character. -/
def isAllowed (c : Char) : Bool :=
  let n := c.toNat
  n == 0x09 || n == 0x0A || n == 0x0D || (0x20 ≤ n && n ≤ 0x7E) || n == 0x85 ||
    (0xA0 ≤ n && n ≤ 0xFFFD) || 0x10000 ≤ n

/-- Give all line endings that stand for `\n` that form. -/
def normalizeBreaks : List Char → List Char
  | [] => []
  | '\r' :: '\n' :: rest => '\n' :: normalizeBreaks rest
  | c :: rest => (if c == '\r' || c == '\x85' then '\n' else c) :: normalizeBreaks rest

/-- The characters of a document. -/
def characters (source : String) : Except Malformed (List Char) :=
  let text := source.toList
  if text.all isAllowed then .ok (normalizeBreaks text) else .error .controlCharacter

/-- Whether the text that follows, at the beginning of a line, separates documents: three
times the mark, and nothing that goes on. -/
def atMarker (mark : Char) : List Char → Bool
  | a :: b :: c :: rest => a == mark && b == mark && c == mark && atSpace rest
  | _ => false

/-- Whether the text that follows, in a column, separates documents. -/
def atSeparator (column : Nat) (text : List Char) : Bool :=
  column == 0 && (atMarker '-' text || atMarker '.' text)

end Yaml

end Chip8
