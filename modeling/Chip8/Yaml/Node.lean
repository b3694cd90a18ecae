import Chip8.Yaml.Token

/-!
# Nodes

The second half of reading YAML: tokens become a tree of `Chip8.Yaml.Node`. Where a key,
a value or an entry is left out, the tree has an empty plain scalar. A document is read
by `Chip8.Yaml.Node.parse`; a text without any document gives no node.
-/

namespace Chip8

namespace Yaml

/-- A value of a document. -/
inductive Node where
  /-- A text. One that is not quoted is plain, and may stand for something else. -/
  | scalar (text : String) (isPlain : Bool)
  /-- A sequence of values. -/
  | sequence (items : List Node)
  /-- Keys with their values, in order; a key can occur several times. -/
  | mapping (entries : List (Node × Node))

namespace Node

/-- What stands where something is left out. -/
def omitted : Node := scalar "" true

instance : Inhabited Node := ⟨omitted⟩

/-- Whether a value or entry of a block collection is left out before a token. -/
def endsBlockValue : Option Token → Bool
  | some .key | some .value | some .blockEnd => true
  | _ => false

/-- Whether a value or entry of a flow collection is left out before a token. -/
def endsFlowValue : Option Token → Bool
  | some .comma | some .closeBracket | some .closeBrace => true
  | _ => false

/-- Whether a key of a flow collection is left out before a token. -/
def endsFlowKey : Option Token → Bool
  | some .value => true
  | t => endsFlowValue t

mutual

/-- Read a node. Block collections can begin only where `block` allows it, and a block
sequence that is not indented only where `unindented` does. The number bounds the
depth to which the readers call each other. -/
def read : Nat → Bool → Bool → List Token → Except Malformed (Node × List Token)
  | 0, _, _, _ => .error .unexpectedToken
  | n + 1, block, unindented, tokens =>
    match tokens with
    | .scalar text isPlain :: rest => .ok (scalar text isPlain, rest)
    | .openBracket :: rest => do
      let (items, rest) ← flowItems n true rest
      return (sequence items, rest)
    | .openBrace :: rest => do
      let (entries, rest) ← flowEntries n true rest
      return (mapping entries, rest)
    | .blockSequence :: rest =>
      if block then do
        let (items, rest) ← blockItems n rest
        return (sequence items, rest)
      else .error .unexpectedToken
    | .blockMapping :: rest =>
      if block then do
        let (entries, rest) ← blockEntries n rest
        return (mapping entries, rest)
      else .error .unexpectedToken
    | .blockEntry :: _ =>
      if unindented then do
        let (items, rest) ← unindentedItems n tokens
        return (sequence items, rest)
      else .error .unexpectedToken
    | _ => .error .unexpectedToken

/-- Read the entries of a block sequence, to its end. -/
def blockItems : Nat → List Token → Except Malformed (List Node × List Token)
  | 0, _ => .error .unexpectedToken
  | n + 1, tokens =>
    match tokens with
    | .blockEnd :: rest => .ok ([], rest)
    | .blockEntry :: rest => do
      let (item, rest) ←
        if rest.head? == some .blockEntry || rest.head? == some .blockEnd then
          .ok (omitted, rest)
        else read n true false rest
      let (items, rest) ← blockItems n rest
      return (item :: items, rest)
    | _ => .error .unexpectedToken

/-- Read the entries of a block sequence that is not indented, and so has no end of its
own. -/
def unindentedItems : Nat → List Token → Except Malformed (List Node × List Token)
  | 0, _ => .error .unexpectedToken
  | n + 1, tokens =>
    match tokens with
    | .blockEntry :: rest => do
      let (item, rest) ←
        if rest.head? == some .blockEntry || endsBlockValue rest.head? then .ok (omitted, rest)
        else read n true false rest
      let (items, rest) ← unindentedItems n rest
      return (item :: items, rest)
    | _ => .ok ([], tokens)

/-- Read the keys and values of a block mapping, to its end. -/
def blockEntries : Nat → List Token → Except Malformed (List (Node × Node) × List Token)
  | 0, _ => .error .unexpectedToken
  | n + 1, tokens =>
    match tokens with
    | .blockEnd :: rest => .ok ([], rest)
    | .key :: rest => do
      let (key, rest) ←
        if endsBlockValue rest.head? then .ok (omitted, rest) else read n true true rest
      let (value, rest) ←
        match rest with
        | .value :: rest =>
          if endsBlockValue rest.head? then .ok (omitted, rest) else read n true true rest
        | _ => .ok (omitted, rest)
      let (entries, rest) ← blockEntries n rest
      return ((key, value) :: entries, rest)
    | _ => .error .unexpectedToken

/-- Read a key with its value in a flow collection, after the token that announces a
key. -/
def flowPair : Nat → List Token → Except Malformed ((Node × Node) × List Token)
  | 0, _ => .error .unexpectedToken
  | n + 1, tokens => do
    let (key, rest) ←
      if endsFlowKey tokens.head? then .ok (omitted, tokens) else read n false false tokens
    match rest with
    | .value :: rest => do
      let (value, rest) ←
        if endsFlowValue rest.head? then .ok (omitted, rest) else read n false false rest
      return ((key, value), rest)
    | _ => return ((key, omitted), rest)

/-- Read the entries of a flow sequence, to its closing bracket. A key among them is a
mapping of its own. -/
def flowItems : Nat → Bool → List Token → Except Malformed (List Node × List Token)
  | 0, _, _ => .error .unexpectedToken
  | n + 1, first, tokens =>
    match first, tokens with
    | _, .closeBracket :: rest => .ok ([], rest)
    | false, .comma :: .closeBracket :: rest => .ok ([], rest)
    | false, .comma :: .key :: rest | true, .key :: rest => do
      let (pair, rest) ← flowPair n rest
      let (items, rest) ← flowItems n false rest
      return (mapping [pair] :: items, rest)
    | false, .comma :: rest | true, rest => do
      let (item, rest) ← read n false false rest
      let (items, rest) ← flowItems n false rest
      return (item :: items, rest)
    | false, _ => .error .unexpectedToken

/-- Read the keys and values of a flow mapping, to its closing brace. A key can stand
without a value. -/
def flowEntries :
    Nat → Bool → List Token → Except Malformed (List (Node × Node) × List Token)
  | 0, _, _ => .error .unexpectedToken
  | n + 1, first, tokens =>
    match first, tokens with
    | _, .closeBrace :: rest => .ok ([], rest)
    | false, .comma :: .closeBrace :: rest => .ok ([], rest)
    | false, .comma :: .key :: rest | true, .key :: rest => do
      let (pair, rest) ← flowPair n rest
      let (entries, rest) ← flowEntries n false rest
      return (pair :: entries, rest)
    | false, .comma :: rest | true, rest => do
      let (key, rest) ← read n false false rest
      let (entries, rest) ← flowEntries n false rest
      return ((key, omitted) :: entries, rest)
    | false, _ => .error .unexpectedToken

end

/-- Whether the tokens that follow hold nothing of a document. -/
def atDocumentEnd : List Token → Bool
  | [] | .documentStart :: _ | .documentEnd :: _ => true
  | _ => false

/-- Make sure that no second document follows. -/
def expectEnd (node : Node) (tokens : List Token) : Except Malformed (Option Node) :=
  if tokens.all (· == .documentEnd) then .ok (some node)
  else if tokens.head? == some .documentStart then .error .severalDocuments
  else .error .unexpectedToken

/-- The document that tokens make up, if they make up one. Reading an entry takes at most
three calls for each token. -/
def ofTokens (tokens : List Token) : Except Malformed (Option Node) :=
  let bound := 3 * tokens.length + 3
  match tokens with
  | [] => .ok none
  | .documentStart :: rest =>
    if atDocumentEnd rest then expectEnd omitted rest
    else do
      let (node, rest) ← read bound true false rest
      expectEnd node rest
  | _ => do
    let (node, rest) ← read bound true false tokens
    expectEnd node rest

/-- The document in a text, if there is one. -/
def parse (source : String) : Except Malformed (Option Node) := do
  ofTokens (← Token.scan (← characters source))

end Node

end Yaml

end Chip8
