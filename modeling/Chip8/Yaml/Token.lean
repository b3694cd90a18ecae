import Chip8.Yaml.Scalar

/-!
# Tokens

The first half of reading YAML: a text becomes a list of `Chip8.Yaml.Token`. Brackets,
braces and commas are tokens as they stand; indentation becomes tokens that open and
close block collections.

Whether a scalar is a key is only known at the colon after it. So the scanner notes
each place where a key may have begun (`Chip8.Yaml.KeyCandidate`), and puts the tokens
that belong before the key there when it comes to the colon. Such a candidate expires
with its line and after 1024 bytes; a text that can be nothing but a key must not
expire (`Chip8.Yaml.KeyCandidate.required`).
-/

namespace Chip8

namespace Yaml

/-- A token of a document. -/
inductive Token where
  /-- Three dashes, which begin a document. -/
  | documentStart
  /-- Three dots, which end one. -/
  | documentEnd
  /-- A block sequence begins. -/
  | blockSequence
  /-- A block mapping begins. -/
  | blockMapping
  /-- A block collection ends. -/
  | blockEnd
  /-- A dash, before an entry of a block sequence. -/
  | blockEntry
  /-- An opening bracket. -/
  | openBracket
  /-- A closing bracket. -/
  | closeBracket
  /-- An opening brace. -/
  | openBrace
  /-- A closing brace. -/
  | closeBrace
  /-- A comma. -/
  | comma
  /-- What follows is a key. -/
  | key
  /-- What follows is the value of a key. -/
  | value
  /-- A scalar, plain or quoted. -/
  | scalar (text : String) (isPlain : Bool)
  deriving DecidableEq

/-- A place where a key may have begun. -/
structure KeyCandidate where
  /-- The number of tokens before it. -/
  tokens : Nat
  /-- The place. -/
  place : Position
  /-- Whether nothing but a key can stand there. -/
  required : Bool

/-- The state of the scanner. -/
structure Scanner where
  /-- The place it has come to. -/
  cursor : Cursor
  /-- The tokens so far, last one first. -/
  tokens : List Token
  /-- The number of tokens so far. -/
  count : Nat
  /-- The columns of the open block collections, the innermost first. -/
  indents : List Nat
  /-- Whether a key may begin here. -/
  keyAllowed : Bool
  /-- The candidate of the innermost collection. -/
  candidate : Option KeyCandidate
  /-- The candidates of the collections around the open flow collections, the innermost
  first. -/
  outer : List (Option KeyCandidate)

namespace Scanner

/-- The scanner at the beginning of a text. -/
def start (text : List Char) : Scanner where
  cursor := ⟨text, .start⟩
  tokens := []
  count := 0
  indents := []
  keyAllowed := true
  candidate := none
  outer := []

/-- Whether a flow collection is open. -/
def inFlow (s : Scanner) : Bool := !s.outer.isEmpty

/-- Add a token. -/
def emit (s : Scanner) (t : Token) : Scanner :=
  { s with tokens := t :: s.tokens, count := s.count + 1 }

/-- Add a token before those that followed when there were only `count`. -/
def insertAt (s : Scanner) (count : Nat) (t : Token) : Scanner :=
  { s with tokens := s.tokens.insertIdx (s.count - count) t, count := s.count + 1 }

/-- Pass over some characters of a line. -/
def pass (s : Scanner) (count : Nat) : Scanner :=
  let (passed, rest) := s.cursor.rest.splitAt count
  { s with cursor := ⟨rest, passed.foldl .next s.cursor.place⟩ }

/-! ### Candidates for keys -/

/-- The number of bytes that a key may have. -/
def keyLimit : Nat := 1024

/-- Whether a candidate has expired. -/
def hasExpired (s : Scanner) (k : KeyCandidate) : Bool :=
  k.place.line < s.cursor.place.line || k.place.offset + keyLimit < s.cursor.place.offset

/-- Drop the innermost candidate. -/
def dropCandidate (s : Scanner) : Except Malformed Scanner :=
  match s.candidate with
  | some { required := true, .. } => .error .missingColon
  | _ => .ok { s with candidate := none }

/-- Drop the innermost candidate if it has expired. The others are looked at when they
become the innermost one; they cannot be used before that. -/
def dropExpired (s : Scanner) : Except Malformed Scanner :=
  if s.candidate.any s.hasExpired then s.dropCandidate else .ok s

/-- A key may begin here, if one is allowed at all. -/
def noteCandidate (s : Scanner) : Except Malformed Scanner := do
  if s.keyAllowed then
    let s ← s.dropCandidate
    let required := !s.inFlow && s.indents.head? == some s.cursor.place.column
    return { s with candidate := some ⟨s.count, s.cursor.place, required⟩ }
  else
    return s

/-! ### Indentation -/

/-- End the block collections that are indented further than a column, or all of them. -/
def unroll (s : Scanner) (column : Option Nat) : Scanner :=
  if s.inFlow then s
  else
    let (ended, indents) := s.indents.span fun indent => !column.any (indent ≤ ·)
    ended.foldl (fun s _ => s.emit .blockEnd) { s with indents }

/-- Begin a block collection at a column, unless one is open there. The token that
begins it goes before those that followed when there were only `count`. -/
def roll (s : Scanner) (column count : Nat) (t : Token) : Scanner :=
  if s.inFlow || s.indents.head?.any (column ≤ ·) then s
  else { s.insertAt count t with indents := column :: s.indents }

/-! ### What stands between tokens -/

/-- Pass over blanks, comments and line breaks, and over a mark of the byte order that
begins a line, which takes up a column. In block collections a key may begin on every new
line; there, tabs may not precede one. -/
def skip (flow : Bool) : List Char → Position → Bool → Bool → Cursor × Bool
  | [], p, keyAllowed, _ => (⟨[], p⟩, keyAllowed)
  | c :: rest, p, keyAllowed, comment =>
    if isBreak c then skip flow rest p.newLine (keyAllowed || !flow) false
    else if comment || c == ' ' || (c == '\t' && (flow || !keyAllowed)) ||
        (p.column == 0 && isOrderMark c) then
      skip flow rest (p.next c) keyAllowed comment
    else if c == '#' then skip flow rest (p.next c) keyAllowed true
    else (⟨c :: rest, p⟩, keyAllowed)

/-- Go to the next token: what stands before it is passed over, candidates that have
expired are dropped, and block collections that have ended are closed. -/
def advance (s : Scanner) : Except Malformed Scanner := do
  let (cursor, keyAllowed) :=
    skip s.inFlow s.cursor.rest s.cursor.place s.keyAllowed false
  let s ← { s with cursor, keyAllowed }.dropExpired
  return s.unroll (some s.cursor.place.column)

/-! ### Single tokens -/

/-- A separator of documents. -/
def separator (s : Scanner) (t : Token) : Except Malformed Scanner := do
  let s ← (s.unroll none).dropCandidate
  return { s.emit t with keyAllowed := false }.pass 3

/-- A bracket or brace that opens a flow collection. -/
def openFlow (s : Scanner) (t : Token) : Except Malformed Scanner := do
  let s ← s.noteCandidate
  return { s.emit t with
    keyAllowed := true
    candidate := none
    outer := s.candidate :: s.outer }.pass 1

/-- A bracket or brace that closes a flow collection. -/
def closeFlow (s : Scanner) (t : Token) : Except Malformed Scanner := do
  let s ← s.dropCandidate
  return { s.emit t with
    keyAllowed := false
    candidate := s.outer.head?.join
    outer := s.outer.tail }.pass 1

/-- A comma. -/
def comma (s : Scanner) : Except Malformed Scanner := do
  let s ← s.dropCandidate
  return { s.emit .comma with keyAllowed := true }.pass 1

/-- A dash before an entry. -/
def entry (s : Scanner) : Except Malformed Scanner := do
  if !s.inFlow && !s.keyAllowed then throw .misplacedIndicator
  let s ← (s.roll s.cursor.place.column s.count .blockSequence).dropCandidate
  return { s.emit .blockEntry with keyAllowed := true }.pass 1

/-- A colon before a value. If a key can have begun before it, that key has. -/
def colon (s : Scanner) : Except Malformed Scanner := do
  match s.candidate with
  | some k =>
    let s := (s.insertAt k.tokens .key).roll k.place.column k.tokens .blockMapping
    return { s.emit .value with candidate := none, keyAllowed := false }.pass 1
  | none =>
    if !s.inFlow && !s.keyAllowed then throw .misplacedIndicator
    let flow := s.inFlow
    let s := s.roll s.cursor.place.column s.count .blockMapping
    return { s.emit .value with keyAllowed := !flow }.pass 1

/-- A scalar that was read. After a plain one that ends on a new line, a key may begin. -/
def scalar (s : Scanner) (isPlain : Bool) (r : Except Malformed Scanned) :
    Except Malformed Scanner := do
  let s ← s.noteCandidate
  let r ← r
  return { s.emit (.scalar r.text isPlain) with cursor := r.stop, keyAllowed := r.broken }

/-- Whether a plain scalar can begin with a character. -/
def canBeginPlain (flow : Bool) (c : Char) (rest : List Char) : Bool :=
  match c with
  | '-' => !(rest.head?.any isBlank)
  | '?' | ':' => !flow && !atSpace rest
  | ',' | '[' | ']' | '{' | '}' | '#' | '&' | '*' | '!' | '|' | '>' | '\'' | '\"' | '%' | '@'
  | '\x60' => false
  | c => !isBlank c && !isBreak c

/-- Whether a character begins something of YAML that this reader does not know. -/
def beginsUnsupported (c : Char) : Bool :=
  c == '&' || c == '*' || c == '!' || c == '|' || c == '>' || c == '%'

/-- Read the token that begins with a character. -/
def token (s : Scanner) (c : Char) (rest : List Char) : Except Malformed Scanner :=
  let flow := s.inFlow
  let here := s.cursor.place
  if here.column == 0 && atMarker '-' (c :: rest) then s.separator .documentStart
  else if here.column == 0 && atMarker '.' (c :: rest) then s.separator .documentEnd
  else if c == '[' then s.openFlow .openBracket
  else if c == '{' then s.openFlow .openBrace
  else if c == ']' then s.closeFlow .closeBracket
  else if c == '}' then s.closeFlow .closeBrace
  else if c == ',' then s.comma
  else if c == '-' && atSpace rest then s.entry
  else if c == '?' && (flow || atSpace rest) then .error .unsupported
  else if c == ':' && (flow || atSpace rest) then s.colon
  else if c == '\"' || c == '\'' then
    s.scalar false (quoted (c == '\"') .text rest (here.next c) .empty)
  else if canBeginPlain flow c rest then
    let indent := (s.indents.head?.map (· + 1)).getD 0
    s.scalar true (plain flow indent (c :: rest) here false .empty)
  else if beginsUnsupported c then .error .unsupported
  else .error .unexpectedCharacter

/-- The end of the text. -/
def finish (s : Scanner) : Except Malformed (List Token) := do
  let s ← (s.unroll none).dropCandidate
  return s.tokens.reverse

/-- Read all tokens that follow. Each takes at least one character, so as many rounds as
there are characters, and one for the end, are enough. -/
def run : Nat → Scanner → Except Malformed (List Token)
  | 0, _ => .error .unexpectedCharacter
  | rounds + 1, s =>
    match s.advance with
    | .error e => .error e
    | .ok s =>
      match s.cursor.rest with
      | [] => s.finish
      | c :: rest =>
        match s.token c rest with
        | .error e => .error e
        | .ok s => run rounds s

end Scanner

/-- The tokens of a text. -/
def Token.scan (text : List Char) : Except Malformed (List Token) :=
  Scanner.run (text.length + 1) (Scanner.start text)

end Yaml

end Chip8
