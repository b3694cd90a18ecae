import Chip8.Instruction.Mnemonic
import Chip8.Proofs.Decoding
import Chip8.Proofs.Numeral

/-!
# Mnemonics are read back

A mnemonic is the name of what an instruction does, and its operands
(`Chip8.Instruction.phrase`). This file reads mnemonics: a text is cut into its tokens
(`Chip8.tokensOf`), the first of which is the name, the others are read as operands
(`Chip8.Operand.ofText?`), and name and operands together give the instruction
(`Chip8.Instruction.ofPhrase?`).

The main statement is `Chip8.Instruction.ofTokens?_mnemonic`: whatever instruction a mnemonic
is the text of, it is read as that instruction. It follows that no two words have the same
mnemonic (`Chip8.Instruction.eq_of_mnemonic_eq`), although the name alone says little – four
names are those of several instructions, told apart by the shape of their operands.
-/

namespace Chip8

/-! ### Tokens -/

/-- Whether a character separates the tokens of a text. -/
def isSeparator (c : Char) : Bool := c == ' ' || c == ','

/-- The tokens of a text: what stands between the blanks and commas, unless it is empty. -/
def tokensOf (text : String) : List String :=
  ((text.toList.splitOnP isSeparator).filter (· ≠ [])).map String.ofList

/-- A text that is a single token. -/
structure IsToken (s : String) : Prop where
  /-- It has some character. -/
  nonempty : s.toList ≠ []
  /-- None of its characters separates tokens. -/
  unbroken : ∀ c ∈ s.toList, isSeparator c = false

theorem isToken_iff {s : String} :
    IsToken s ↔ s.toList ≠ [] ∧ s.toList.all (fun c => !isSeparator c) = true := by
  simp only [List.all_eq_true, Bool.not_eq_true']
  exact ⟨fun h => ⟨h.nonempty, h.unbroken⟩, fun h => ⟨h.1, h.2⟩⟩

-- The characters are gone through one by one, those of the text and no others.
instance (s : String) : Decidable (IsToken s) := decidable_of_iff _ isToken_iff.symm

theorem IsToken.append {s t : String} (hs : IsToken s) (ht : IsToken t) : IsToken (s ++ t) := by
  refine ⟨?_, ?_⟩
  · rw [String.toList_append]
    exact List.append_ne_nil_of_left_ne_nil hs.nonempty _
  · intro c hc
    rw [String.toList_append, List.mem_append] at hc
    rcases hc with front | back
    · exact hs.unbroken c front
    · exact ht.unbroken c back

/-- A digit separates nothing, also in upper case. -/
theorem isSeparator_digitChar :
    ∀ digit < 16, isSeparator (Nat.digitChar digit) = false ∧
      isSeparator (Nat.digitChar digit).toUpper = false := by
  decide

theorem isToken_decimal (n : Nat) : IsToken (decimal n) := by
  refine ⟨toList_decimal_ne_nil n, ?_⟩
  intro c hc
  obtain ⟨digit, small, rfl⟩ := exists_digitChar_of_mem_decimal hc
  exact (isSeparator_digitChar digit (by omega)).1

theorem isToken_upperHex (width n : Nat) : IsToken (upperHex width n) := by
  refine ⟨toList_upperHex_ne_nil width n, ?_⟩
  intro c hc
  obtain ⟨digit, small, rfl⟩ := exists_digitChar_of_mem_upperHex hc
  exact (isSeparator_digitChar digit small).2

theorem tokensOf_of_isToken {s : String} (h : IsToken s) : tokensOf s = [s] := by
  rw [tokensOf, List.splitOnP_eq_singleton h.unbroken]
  simp [h.nonempty]

/-- A blank separates tokens. -/
theorem tokensOf_blank (s t : String) : tokensOf (s ++ " " ++ t) = tokensOf s ++ tokensOf t := by
  have chars : (s ++ " " ++ t).toList = s.toList ++ ' ' :: t.toList := by simp
  rw [tokensOf, chars, List.splitOnP_append_cons _ _ rfl, List.filter_append, List.map_append]
  rfl

/-- So does a comma with a blank after it, between which there is nothing. -/
theorem tokensOf_comma (s t : String) : tokensOf (s ++ ", " ++ t) = tokensOf s ++ tokensOf t := by
  have chars : (s ++ ", " ++ t).toList = s.toList ++ ',' :: ([] ++ ' ' :: t.toList) := by simp
  rw [tokensOf, chars, List.splitOnP_append_cons _ _ rfl, List.splitOnP_append_cons _ _ rfl,
    List.filter_append, List.filter_append, List.map_append, List.map_append]
  rfl

/-! ### Operands -/

/-- What is named in a mnemonic besides the general purpose registers. -/
inductive Place where
  /-- The index register. -/
  | index
  /-- The delay timer. -/
  | delay
  /-- The sound timer. -/
  | sound
  /-- The key that is pressed next. -/
  | key
  /-- The glyph of a digit. -/
  | glyph
  /-- The decimal digits of a byte. -/
  | digits
  /-- The memory at the index register. -/
  | memory
  deriving DecidableEq

namespace Place

/-- The name of a place. -/
def text : Place → String
  | index => "I"
  | delay => "DT"
  | sound => "ST"
  | key => "K"
  | glyph => "F"
  | digits => "B"
  | memory => "[I]"

/-- The place that a text names. -/
def ofText? : String → Option Place
  | "I" => some index
  | "DT" => some delay
  | "ST" => some sound
  | "K" => some key
  | "F" => some glyph
  | "B" => some digits
  | "[I]" => some memory
  | _ => none

end Place

/-- An operand of a mnemonic. -/
inductive Operand where
  /-- A register. -/
  | register (x : Register)
  /-- A byte. -/
  | byte (value : UInt8)
  /-- An address. -/
  | target (address : Target)
  /-- Another place. -/
  | place (named : Place)
  deriving DecidableEq

namespace Operand

/-- The text of an operand. -/
def text : Operand → String
  | register x => Register.text x
  | byte value => decimal value.toNat
  | target address => Target.text address
  | place named => named.text

/-- The operand that a text writes. -/
def ofText? (s : String) : Option Operand :=
  match ofDigits? 10 s.toList with
  | some n => if n < 256 then some (byte (UInt8.ofNat n)) else none
  | none =>
    match s.toList with
    | 'v' :: digits =>
      (ofDigits? 16 digits).bind fun n => if h : n < 16 then some (register ⟨n, h⟩) else none
    | '0' :: 'x' :: digits =>
      (ofDigits? 16 digits).bind fun n => if h : n < 4096 then some (target ⟨n, h⟩) else none
    | _ => (Place.ofText? s).map place

theorem isToken_text (operand : Operand) : IsToken operand.text := by
  cases operand with
  | register x => exact IsToken.append (by decide) (isToken_upperHex 1 x.val)
  | byte value => exact isToken_decimal value.toNat
  | target target => exact IsToken.append (by decide) (isToken_upperHex 3 target.val)
  | place place => cases place <;> decide

/-- **An operand is read back.** -/
theorem ofText?_text (operand : Operand) : ofText? operand.text = some operand := by
  cases operand with
  | register x =>
    have small : x.val < UInt64.size := Nat.lt_trans x.isLt (by decide)
    have chars : (Register.text x).toList = 'v' :: (upperHex 1 x.val).toList := by
      simp [Register.text]
    have odd : ofDigits? 10 ('v' :: (upperHex 1 x.val).toList) = none := rfl
    simp only [text, ofText?, chars, odd, ofDigits?_upperHex 1 small, Option.bind_some, x.isLt,
      dite_true]
  | byte value =>
    have small : value.toNat < UInt64.size := Nat.lt_trans value.toNat_lt (by decide)
    have fits : value.toNat < 256 := value.toNat_lt
    simp only [text, ofText?, ofDigits?_decimal small, fits, if_true, UInt8.ofNat_toNat]
  | target target =>
    have small : target.val < UInt64.size := Nat.lt_trans target.isLt (by decide)
    have chars : (Target.text target).toList = '0' :: 'x' :: (upperHex 3 target.val).toList := by
      simp [Target.text]
    have odd : ofDigits? 10 ('0' :: 'x' :: (upperHex 3 target.val).toList) = none := rfl
    simp only [text, ofText?, chars, odd, ofDigits?_upperHex 3 small, Option.bind_some,
      target.isLt, dite_true]
  | place place => cases place <;> rfl

end Operand

/-- All operands are read back. -/
theorem Operand.mapM_ofText?_text (operands : List Operand) :
    (operands.map text).mapM ofText? = some operands := by
  induction operands with
  | nil => rfl
  | cons operand operands ih =>
    rw [List.map_cons, List.mapM_cons, ofText?_text, ih]
    rfl

/-! ### Phrases -/

/-- A name and its operands. -/
structure Phrase where
  /-- The name. -/
  name : String
  /-- The operands. -/
  operands : List Operand
  deriving DecidableEq

namespace Phrase

/-- The text of a phrase: the operands have commas between them. -/
def text : Phrase → String
  | ⟨name, []⟩ => name
  | ⟨name, first :: others⟩ =>
    others.foldl (fun line operand => line ++ ", " ++ operand.text) (name ++ " " ++ first.text)

theorem tokensOf_foldl (line : String) (operands : List Operand) :
    tokensOf (operands.foldl (fun line operand => line ++ ", " ++ operand.text) line) =
      tokensOf line ++ operands.map Operand.text := by
  induction operands generalizing line with
  | nil => exact (List.append_nil _).symm
  | cons operand operands ih =>
    rw [List.foldl_cons, ih, tokensOf_comma, tokensOf_of_isToken operand.isToken_text,
      List.append_assoc]
    rfl

/-- The tokens of a phrase are its name and the texts of its operands. -/
theorem tokensOf_text {phrase : Phrase} (h : IsToken phrase.name) :
    tokensOf phrase.text = phrase.name :: phrase.operands.map Operand.text := by
  obtain ⟨name, _ | ⟨first, others⟩⟩ := phrase
  · exact tokensOf_of_isToken h
  · have head : tokensOf (name ++ " " ++ first.text) = [name, first.text] := by
      rw [tokensOf_blank, tokensOf_of_isToken h, tokensOf_of_isToken first.isToken_text]
      rfl
    rw [text, tokensOf_foldl, head]
    rfl

end Phrase

/-- The operation that a name stands for. -/
def Arithmetic.ofName? : String → Option Arithmetic
  | "LD" => some copy
  | "OR" => some or
  | "AND" => some and
  | "XOR" => some xor
  | "ADD" => some add
  | "SUB" => some subtract
  | "SHR" => some shiftRight
  | "SUBN" => some subtractFrom
  | "SHL" => some shiftLeft
  | _ => none

namespace Instruction

/-- The name of an instruction and its operands. -/
def phrase : Instruction → Phrase
  | clearScreen => ⟨"CLS", []⟩
  | ret => ⟨"RET", []⟩
  | jump target => ⟨"JP", [.target target]⟩
  | call target => ⟨"CALL", [.target target]⟩
  | skip (.equalsByte x byte) => ⟨"SE", [.register x, .byte byte]⟩
  | skip (.differsByte x byte) => ⟨"SNE", [.register x, .byte byte]⟩
  | skip (.equals x y) => ⟨"SE", [.register x, .register y]⟩
  | skip (.differs x y) => ⟨"SNE", [.register x, .register y]⟩
  | skip (.keyDown x) => ⟨"SKP", [.register x]⟩
  | skip (.keyUp x) => ⟨"SKNP", [.register x]⟩
  | loadByte x byte => ⟨"LD", [.register x, .byte byte]⟩
  | addByte x byte => ⟨"ADD", [.register x, .byte byte]⟩
  | combine operation x y => ⟨operation.name, [.register x, .register y]⟩
  | setIndex target => ⟨"LD", [.place .index, .target target]⟩
  | jumpOffset target => ⟨"JP", [.register offsetRegister, .target target]⟩
  | random x mask => ⟨"RND", [.register x, .byte mask]⟩
  | draw x y rows => ⟨"DRW", [.register x, .register y, .byte (UInt8.ofNat rows.val)]⟩
  | readDelay x => ⟨"LD", [.register x, .place .delay]⟩
  | awaitKey x => ⟨"LD", [.register x, .place .key]⟩
  | setDelay x => ⟨"LD", [.place .delay, .register x]⟩
  | setSound x => ⟨"LD", [.place .sound, .register x]⟩
  | addIndex x => ⟨"ADD", [.place .index, .register x]⟩
  | pointGlyph x => ⟨"LD", [.place .glyph, .register x]⟩
  | storeDigits x => ⟨"LD", [.place .digits, .register x]⟩
  | store x => ⟨"LD", [.place .memory, .register x]⟩
  | load x => ⟨"LD", [.register x, .place .memory]⟩

/-- A height fits into a byte. -/
theorem toNat_ofNat_rows (rows : Fin 16) : (UInt8.ofNat rows.val).toNat = rows.val := by
  rw [UInt8.toNat_ofNat']
  omega

/-- A mnemonic is the text of its phrase. -/
theorem text_phrase (i : Instruction) : i.phrase.text = i.mnemonic := by
  cases i with
  | skip condition => cases condition <;> rfl
  | draw x y rows =>
    have height : (Operand.byte (UInt8.ofNat rows.val)).text = decimal rows.val := by
      rw [Operand.text, toNat_ofNat_rows]
    simp only [phrase, Phrase.text, List.foldl_cons, List.foldl_nil, height]
    rfl
  | _ => rfl

/-- The names of instructions. -/
def names : List String :=
  ["CLS", "RET", "JP", "CALL", "SE", "SNE", "SKP", "SKNP", "LD", "OR", "AND", "XOR", "ADD", "SUB",
    "SHR", "SUBN", "SHL", "RND", "DRW"]

theorem name_mem_names (i : Instruction) : i.phrase.name ∈ names := by
  cases i with
  | skip condition => cases condition <;> simp [phrase, names]
  | combine operation x y => cases operation <;> simp [phrase, names, Arithmetic.name]
  | _ => simp [phrase, names]

theorem isToken_name (i : Instruction) : IsToken i.phrase.name := by
  have tokens : ∀ name ∈ names, IsToken name := by decide
  exact tokens _ i.name_mem_names

/-! ### Reading -/

/-- The instruction of a name without operands. -/
def ofName? : String → Option Instruction
  | "CLS" => some clearScreen
  | "RET" => some ret
  | _ => none

/-- The instruction of a name with a single operand. -/
def ofSingle? (name : String) : Operand → Option Instruction
  | .register x =>
    match name with
    | "SKP" => some (skip (.keyDown x))
    | "SKNP" => some (skip (.keyUp x))
    | _ => none
  | .target target =>
    match name with
    | "JP" => some (jump target)
    | "CALL" => some (call target)
    | _ => none
  | _ => none

/-- The instruction of a name with a register and another operand. -/
def ofPair? (name : String) (x : Register) : Operand → Option Instruction
  | .byte byte =>
    match name with
    | "SE" => some (skip (.equalsByte x byte))
    | "SNE" => some (skip (.differsByte x byte))
    | "LD" => some (loadByte x byte)
    | "ADD" => some (addByte x byte)
    | "RND" => some (random x byte)
    | _ => none
  | .register y =>
    match name with
    | "SE" => some (skip (.equals x y))
    | "SNE" => some (skip (.differs x y))
    | _ => (Arithmetic.ofName? name).map (combine · x y)
  | .target target => if name = "JP" ∧ x = offsetRegister then some (jumpOffset target) else none
  | .place place =>
    match name, place with
    | "LD", .delay => some (readDelay x)
    | "LD", .key => some (awaitKey x)
    | "LD", .memory => some (load x)
    | _, _ => none

/-- The instruction of a name with a place and a register. -/
def ofPlace? (name : String) (x : Register) : Place → Option Instruction
  | .index => if name = "ADD" then some (addIndex x) else none
  | .delay => if name = "LD" then some (setDelay x) else none
  | .sound => if name = "LD" then some (setSound x) else none
  | .glyph => if name = "LD" then some (pointGlyph x) else none
  | .digits => if name = "LD" then some (storeDigits x) else none
  | .memory => if name = "LD" then some (store x) else none
  | .key => none

/-- The instruction that a phrase stands for. -/
def ofPhrase? (phrase : Phrase) : Option Instruction :=
  match phrase.operands with
  | [] => ofName? phrase.name
  | [operand] => ofSingle? phrase.name operand
  | [.register x, operand] => ofPair? phrase.name x operand
  | [.place place, .register x] => ofPlace? phrase.name x place
  | [.place .index, .target target] => if phrase.name = "LD" then some (setIndex target) else none
  | [.register x, .register y, .byte rows] =>
    if h : phrase.name = "DRW" ∧ rows.toNat < 16 then some (draw x y ⟨rows.toNat, h.2⟩) else none
  | _ => none

/-- A phrase stands for the instruction that it is the phrase of. -/
theorem ofPhrase?_phrase (i : Instruction) : ofPhrase? i.phrase = some i := by
  cases i with
  | skip condition => cases condition <;> rfl
  | combine operation x y => cases operation <;> rfl
  | draw x y rows =>
    have fits : (UInt8.ofNat rows.val).toNat < 16 := by
      rw [toNat_ofNat_rows]
      exact rows.isLt
    have same : (⟨(UInt8.ofNat rows.val).toNat, fits⟩ : Fin 16) = rows :=
      Fin.ext (toNat_ofNat_rows rows)
    calc ofPhrase? (draw x y rows).phrase
      _ = some (draw x y ⟨(UInt8.ofNat rows.val).toNat, fits⟩) := dif_pos ⟨rfl, fits⟩
      _ = some (draw x y rows) := by rw [same]
  | _ => rfl

/-- The instruction that tokens stand for, the first of which is its name. -/
def ofTokens? : List String → Option Instruction
  | [] => none
  | name :: operands =>
    (operands.mapM Operand.ofText?).bind fun operands => ofPhrase? ⟨name, operands⟩

/-- **A mnemonic is read as the instruction that it is the text of.** -/
theorem ofTokens?_mnemonic (i : Instruction) : ofTokens? (tokensOf i.mnemonic) = some i := by
  rw [← text_phrase, Phrase.tokensOf_text i.isToken_name, ofTokens?, Operand.mapM_ofText?_text]
  exact ofPhrase?_phrase i

/-- **A mnemonic is the text of one word only.** -/
theorem eq_of_mnemonic_eq {w v : UInt16} {i j : Instruction} (hi : decode w = some i)
    (hj : decode v = some j) (same : i.mnemonic = j.mnemonic) : w = v := by
  have read := ofTokens?_mnemonic i
  rw [same, ofTokens?_mnemonic] at read
  obtain rfl := Option.some.inj read
  rw [← encode_of_decode hi, ← encode_of_decode hj]

end Instruction

end Chip8
