import Chip8.Proofs.Mnemonic
import Chip8.Proofs.Text

/-!
# Listings are read back

A listing has the bytes of a program in the second column of its lines, in hexadecimal digits: four
of them where there are two bytes, and two for a last byte that has no partner. So the program can
be read off its listing (`Chip8.Listing.bytes?`), which is the main statement,
`Chip8.Listing.listing_loses_nothing`: there is a line for every two bytes, the lines have their
addresses, their columns are the program, and so programs with the same listing are the same.

What a line shows depends on its two bytes alone, and so the listing of a program in two parts is
that of the first part, and that of the second one with other addresses
(`Chip8.Listing.linesAt_append`), as long as the first part has no byte left over.
-/

namespace Chip8

namespace ListingLine

/-- The address of a line. -/
def address : ListingLine → Nat
  | word address _ => address
  | byte address _ => address

/-- The line with an address that is so much higher. -/
def moveBy (count : Nat) : ListingLine → ListingLine
  | word address w => word (address + count) w
  | byte address b => byte (address + count) b

/-- The bytes of a line. -/
def bytes : ListingLine → List UInt8
  | word _ w => [UInt8.ofNat (w.toNat / 256), UInt8.ofNat (w.toNat % 256)]
  | byte _ b => [b]

/-- A line begins with its address. -/
theorem exists_text_eq (line : ListingLine) :
    ∃ rest, line.text = "0x" ++ upperHex 4 line.address ++ " " ++ rest := by
  cases line with
  | word first w =>
    refine ⟨upperHex 4 w.toNat ++ " " ++ Instruction.shown w, ?_⟩
    rw [text, address, Instruction.shown]
    simp only [String.append_assoc]
  | byte first b => exact ⟨_, rfl⟩

/-- The bytes of a line for two bytes. -/
theorem bytes_word_ofBytes (first : Nat) (high low : UInt8) :
    (word first (Word.ofBytes high low)).bytes = [high, low] := by
  have := low.toNat_lt
  have front : (high.toNat * 256 + low.toNat) / 256 = high.toNat := by omega
  have back : (high.toNat * 256 + low.toNat) % 256 = low.toNat := by omega
  rw [bytes, Word.toNat_ofBytes, front, back, UInt8.ofNat_toNat, UInt8.ofNat_toNat]

end ListingLine

/-! ### Reading a line -/

/-- The bytes that hexadecimal digits write: four digits write two, and two digits one. -/
def bytesOfDigits? (digits : String) : Option (List UInt8) :=
  match digits.length with
  | 4 => (ofDigits? 16 digits.toList).map fun n => [UInt8.ofNat (n / 256), UInt8.ofNat (n % 256)]
  | 2 => (ofDigits? 16 digits.toList).map fun n => [UInt8.ofNat n]
  | _ => none

/-- The bytes that the second column of a line writes. -/
def bytesOfLine? (line : String) : Option (List UInt8) :=
  (tokensOf line)[1]?.bind bytesOfDigits?

theorem bytesOfDigits?_word (w : UInt16) :
    bytesOfDigits? (upperHex 4 w.toNat) =
      some [UInt8.ofNat (w.toNat / 256), UInt8.ofNat (w.toNat % 256)] := by
  have small : w.toNat < UInt64.size := Nat.lt_trans w.toNat_lt (by decide)
  simp only [bytesOfDigits?, length_upperHex_word, ofDigits?_upperHex 4 small, Option.map_some]

theorem bytesOfDigits?_byte (b : UInt8) : bytesOfDigits? (upperHex 2 b.toNat) = some [b] := by
  have small : b.toNat < UInt64.size := Nat.lt_trans b.toNat_lt (by decide)
  simp only [bytesOfDigits?, length_upperHex_byte, ofDigits?_upperHex 2 small, Option.map_some,
    UInt8.ofNat_toNat]

/-- **A line is read as the bytes that it shows.** -/
theorem bytesOfLine?_text (line : ListingLine) : bytesOfLine? line.text = some line.bytes := by
  have head (first : Nat) : tokensOf ("0x" ++ upperHex 4 first) = ["0x" ++ upperHex 4 first] :=
    tokensOf_of_isToken (IsToken.append (by decide) (isToken_upperHex 4 first))
  have second (first column : String) (rest : List String) :
      ([first] ++ [column] ++ rest)[1]? = some column := rfl
  cases line with
  | word first w =>
    rw [bytesOfLine?, ListingLine.text, tokensOf_blank, tokensOf_blank, head,
      tokensOf_of_isToken (isToken_upperHex 4 w.toNat), second, Option.bind_some,
      bytesOfDigits?_word, ListingLine.bytes]
  | byte first b =>
    rw [bytesOfLine?, ListingLine.text, tokensOf_blank, head,
      tokensOf_of_isToken (isToken_upperHex 2 b.toNat), ← List.append_nil ([_] ++ [_]), second,
      Option.bind_some, bytesOfDigits?_byte, ListingLine.bytes]

namespace Listing

/-- The bytes that lines write, one line after the other. -/
def bytes? : List String → Option (List UInt8)
  | [] => some []
  | line :: rest => (bytesOfLine? line).bind fun front => (bytes? rest).map (front ++ ·)

/-! ### Lines of a program -/

variable {address : Nat}

/-- **The lines for a program are read as the program.** -/
theorem bytes?_linesAt (address : Nat) (program : List UInt8) :
    bytes? ((linesAt address program).map ListingLine.text) = some program := by
  fun_induction linesAt address program with
  | case1 => rfl
  | case2 first last =>
    rw [List.map_singleton, bytes?, bytesOfLine?_text]
    rfl
  | case3 first high low rest ih =>
    rw [List.map_cons, bytes?, bytesOfLine?_text, ih, ListingLine.bytes_word_ofBytes]
    rfl

theorem length_linesAt (address : Nat) (program : List UInt8) :
    (linesAt address program).length = (program.length + 1) / 2 := by
  fun_induction linesAt address program with
  | case1 => rfl
  | case2 first last => simp
  | case3 first high low rest ih =>
    rw [List.length_cons, ih, List.length_cons, List.length_cons]
    omega

/-- A line for every two addresses. -/
theorem address_of_getElem?_linesAt {program : List UInt8} {k : Nat} {line : ListingLine}
    (found : (linesAt address program)[k]? = some line) : line.address = address + 2 * k := by
  fun_induction linesAt address program generalizing k with
  | case1 => contradiction
  | case2 first last =>
    -- The byte that is left over has the only line.
    cases k with
    | zero =>
      cases found
      rfl
    | succ k => contradiction
  | case3 first high low rest ih =>
    cases k with
    | zero =>
      cases found
      rfl
    | succ k =>
      rw [ih found]
      omega

/-- **A listing goes on after an even number of bytes.** -/
theorem linesAt_append {program : List UInt8} (even : program.length % 2 = 0)
    (others : List UInt8) :
    linesAt address (program ++ others) =
      linesAt address program ++ linesAt (address + program.length) others := by
  fun_induction linesAt address program with
  | case1 => rfl
  | case2 => contradiction
  | case3 first high low rest ih =>
    rw [List.length_cons, List.length_cons] at even ⊢
    rw [List.cons_append, List.cons_append, linesAt, ih (by omega), List.cons_append]
    congr 3
    omega

/-- The lines of a program at a higher address are the same lines with higher addresses. -/
theorem linesAt_add (address count : Nat) (program : List UInt8) :
    linesAt (address + count) program =
      (linesAt address program).map (ListingLine.moveBy count) := by
  fun_induction linesAt address program with
  | case1 | case2 => rfl
  | case3 first high low rest ih =>
    rw [linesAt, List.map_cons, ← ih, Nat.add_right_comm]
    rfl

theorem text_append (lines others : List ListingLine) :
    text (lines ++ others) = text lines ++ text others := by
  rw [text, List.map_append, String.join_append]
  rfl

/-! ### Listings -/

/-- **A listing loses nothing.** It has a line for every two bytes of the program, whatever its
length, and nothing after the last one. The lines begin with their addresses, two apart, and their
second columns write the program, so that no other program has the same listing. And if bytes of an
even number stand before the program, the listing is that of these bytes and, after it, that of the
program with higher addresses. -/
theorem listing_loses_nothing (program : List UInt8) :
    ∃ rows, linesOf (ofProgram program) = rows ++ [""] ∧
      rows.length = (program.length + 1) / 2 ∧
      (∀ k row, rows[k]? = some row →
        ∃ rest, row = "0x" ++ upperHex 4 (0x200 + 2 * k) ++ " " ++ rest) ∧
      bytes? rows = some program ∧
      (∀ other, ofProgram other = ofProgram program → other = program) ∧
      ∀ before, before.length % 2 = 0 →
        ofProgram (before ++ program) =
          ofProgram before ++ text ((lines program).map (ListingLine.moveBy before.length)) := by
  have read := bytes?_linesAt Memory.programStart
  refine ⟨(lines program).map ListingLine.text, linesOf_text _, ?_, ?_, read program, ?_, ?_⟩
  · rw [List.length_map]
    exact length_linesAt _ program
  · intro k row found
    rw [List.getElem?_map, Option.map_eq_some_iff] at found
    obtain ⟨line, found, rfl⟩ := found
    have place : line.address = 0x200 + 2 * k := address_of_getElem?_linesAt found
    rw [← place]
    exact line.exists_text_eq
  · intro other same
    have rows : (lines other).map ListingLine.text = (lines program).map ListingLine.text := by
      refine List.append_cancel_right ((linesOf_text (lines other)).symm.trans ?_)
      rw [← linesOf_text]
      exact congrArg linesOf same
    have value : some other = some program := by
      rw [← read other, ← read program]
      exact congrArg bytes? rows
    exact Option.some.inj value
  · intro before even
    rw [ofProgram, lines, linesAt_append even, text_append, linesAt_add]
    rfl

example : ofProgram [0xA2, 0xF0, 0x00, 0x00, 0x12] =
    "0x0200 A2F0 LD I, 0x2F0\n0x0202 0000 ??\n0x0204 12\n" := by
  decide +kernel

end Listing

end Chip8
