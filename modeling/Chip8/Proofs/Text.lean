import Chip8.Listing
import Chip8.Proofs.Numeral

/-!
# Lines of text

A listing is one text, and its lines are what stands between the line breaks
(`Chip8.linesOf`). That these are the lines it was made of
(`Chip8.linesOf_join`) is due to none of them having a line break inside: numerals
consist of digits (`Chip8.isLine_decimal`, `Chip8.isLine_upperHex`), and mnemonics of names
and numerals (`Chip8.Instruction.isLine_mnemonic`).
-/

namespace Chip8

/-! ### Texts without line breaks -/

/-- A text without line breaks. -/
def IsLine (s : String) : Prop := '\n' ∉ s.toList

instance (s : String) : Decidable (IsLine s) := inferInstanceAs (Decidable ('\n' ∉ s.toList))

theorem IsLine.append {s t : String} (hs : IsLine s) (ht : IsLine t) : IsLine (s ++ t) := by
  rw [IsLine, String.toList_append, List.mem_append]
  exact not_or.mpr ⟨hs, ht⟩

/-- A digit is no line break, also in upper case. -/
theorem digitChar_ne_break :
    ∀ digit < 16, Nat.digitChar digit ≠ '\n' ∧ (Nat.digitChar digit).toUpper ≠ '\n' := by
  decide

theorem isLine_decimal (n : Nat) : IsLine (decimal n) := by
  intro broken
  obtain ⟨digit, small, h⟩ := exists_digitChar_of_mem_decimal broken
  exact (digitChar_ne_break digit (by omega)).1 h

theorem isLine_upperHex (width n : Nat) : IsLine (upperHex width n) := by
  intro broken
  obtain ⟨digit, small, h⟩ := exists_digitChar_of_mem_upperHex broken
  exact (digitChar_ne_break digit small).2 h

/-! ### Mnemonics -/

theorem Register.isLine_text (x : Register) : IsLine (Register.text x) :=
  .append (by decide) (isLine_upperHex _ _)

theorem Target.isLine_text (target : Target) : IsLine (Target.text target) :=
  .append (by decide) (isLine_upperHex _ _)

theorem isLine_binaryText {name first second : String} (hn : IsLine name) (hf : IsLine first)
    (hs : IsLine second) : IsLine (binaryText name first second) :=
  (((hn.append (by decide)).append hf).append (by decide)).append hs

theorem Arithmetic.isLine_name (operation : Arithmetic) : IsLine operation.name := by
  cases operation <;> decide

theorem Condition.isLine_mnemonic (condition : Condition) : IsLine condition.mnemonic := by
  cases condition with
  | equalsByte x byte | differsByte x byte =>
    exact isLine_binaryText (by decide) (Register.isLine_text x) (isLine_decimal _)
  | equals x y | differs x y =>
    exact isLine_binaryText (by decide) (Register.isLine_text x) (Register.isLine_text y)
  | keyDown x | keyUp x => exact .append (by decide) (Register.isLine_text x)

namespace Instruction

/-- A mnemonic has no line break inside. -/
theorem isLine_mnemonic (i : Instruction) : IsLine i.mnemonic := by
  cases i with
  | clearScreen | ret => decide
  | jump target | call target => exact .append (by decide) (Target.isLine_text target)
  | skip condition => exact condition.isLine_mnemonic
  | loadByte x byte | addByte x byte | random x byte =>
    exact isLine_binaryText (by decide) (Register.isLine_text x) (isLine_decimal _)
  | combine operation x y =>
    exact isLine_binaryText operation.isLine_name (Register.isLine_text x)
      (Register.isLine_text y)
  | setIndex target | jumpOffset target =>
    exact isLine_binaryText (by decide) (by decide) (Target.isLine_text target)
  | draw x y rows =>
    exact ((isLine_binaryText (by decide) (Register.isLine_text x) (Register.isLine_text y)).append
      (by decide)).append (isLine_decimal _)
  | readDelay x | awaitKey x | load x =>
    exact isLine_binaryText (by decide) (Register.isLine_text x) (by decide)
  | setDelay x | setSound x | addIndex x | pointGlyph x | storeDigits x | store x =>
    exact isLine_binaryText (by decide) (by decide) (Register.isLine_text x)

/-- The question marks that stand for an unknown instruction are no mnemonic. -/
theorem mnemonic_ne_unknown (i : Instruction) : i.mnemonic ≠ "??" := by
  intro unknown
  have first := congrArg (·.toList.head?) unknown
  cases i with
  | skip condition =>
    cases condition <;> simp [mnemonic, Condition.mnemonic, binaryText] at first
  | combine operation x y =>
    cases operation <;> simp [mnemonic, Arithmetic.name, binaryText] at first
  | _ => simp [mnemonic, binaryText] at first

/-- What a listing shows of a word: its mnemonic, or question marks. -/
def shown (word : UInt16) : String := ((decode word).map mnemonic).getD "??"

/-- Question marks are shown for the words that do not decode. -/
theorem shown_eq_unknown_iff {word : UInt16} : shown word = "??" ↔ decode word = none := by
  unfold shown
  cases decode word with
  | none => simp
  | some i => simp [i.mnemonic_ne_unknown]

end Instruction

/-! ### Lines -/

/-- The lines of a text, the last one being what stands after the last line break. -/
def linesOf (text : String) : List String := (text.toList.splitOn '\n').map String.ofList

/-- A line that comes first is the first line. -/
theorem linesOf_append {line rest : String} (h : IsLine line) :
    linesOf (line ++ "\n" ++ rest) = line :: linesOf rest := by
  have chars : (line ++ "\n" ++ rest).toList = line.toList ++ '\n' :: rest.toList := by simp
  rw [linesOf, chars, List.splitOn_append_cons_self_of_not_mem h, List.map_cons,
    String.ofList_toList]
  rfl

theorem ListingLine.isLine_text (line : ListingLine) : IsLine line.text := by
  have hex : IsLine "0x" := by decide
  have head (address : Nat) : IsLine ("0x" ++ upperHex 4 address ++ " ") :=
    (hex.append (isLine_upperHex 4 address)).append (by decide)
  cases line with
  | word address w =>
    refine (((head address).append (isLine_upperHex 4 _)).append (by decide)).append ?_
    cases Instruction.decode w with
    | none =>
      show IsLine "??"
      decide
    | some i => exact i.isLine_mnemonic
  | byte address b => exact (head address).append (isLine_upperHex 2 _)

/-- **The lines of a text are the lines it was made of**, and nothing stands after the last
one. -/
theorem linesOf_join {lines : List String} (whole : ∀ line ∈ lines, IsLine line) :
    linesOf (String.join (lines.map (· ++ "\n"))) = lines ++ [""] := by
  induction lines with
  | nil => rfl
  | cons line lines ih =>
    rw [List.forall_mem_cons] at whole
    rw [List.map_cons, String.join_cons, linesOf_append whole.1, ih whole.2]
    rfl

/-- The lines of a listing have no line break inside. -/
theorem Listing.linesOf_text (lines : List ListingLine) :
    linesOf (text lines) = lines.map ListingLine.text ++ [""] := by
  have rows : text lines = String.join ((lines.map ListingLine.text).map (· ++ "\n")) := by
    rw [List.map_map]
    rfl
  rw [rows]
  exact linesOf_join (List.forall_mem_map.mpr fun line _ => line.isLine_text)

end Chip8
