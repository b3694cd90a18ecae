import Chip8.Numeral
import Mathlib.Data.Nat.Digits.Defs

/-!
# Numerals are read back

Numbers are written by `Chip8.decimal` and `Chip8.upperHex`, and digits are read by
`Chip8.ofDigits?`. The main statements are that a number comes back when it is written and
read again, in decimal (`Chip8.ofDigits?_decimal`) and in hexadecimal
(`Chip8.ofDigits?_upperHex`), where neither the zeros in front nor the case of the letters
count. Both are one statement about digits, `Chip8.ofDigitsAfter?_toDigits`, by induction on
the number as its numeral grows from the left.

What else there is to know about a numeral as a text is which characters it has
(`Chip8.exists_digitChar_of_mem_decimal`, `Chip8.exists_digitChar_of_mem_upperHex`), and of the
numerals of words and bytes how many (`Chip8.length_upperHex`). A hexadecimal numeral is made digit
by digit (`Chip8.upperHex_succ`).
-/

namespace Chip8

/-! ### The characters of a numeral -/

/-- A numeral consists of digits below its base. -/
theorem exists_digitChar_of_mem_toDigits {base n : Nat} {c : Char} (h : 1 < base)
    (hc : c ∈ Nat.toDigits base n) : ∃ digit < base, Nat.digitChar digit = c := by
  induction n using Nat.strongRecOn with
  | ind n ih =>
    by_cases small : n < base
    · rw [Nat.toDigits_of_lt_base small] at hc
      exact ⟨n, small, (List.mem_singleton.mp hc).symm⟩
    · -- The remainder gives the last digit, and the quotient the others.
      have large := Nat.not_lt.mp small
      rw [Nat.toDigits_of_base_le h large, List.mem_append] at hc
      rcases hc with front | last
      · exact ih (n / base) (Nat.div_lt_self (by omega) h) front
      · exact ⟨n % base, Nat.mod_lt n (by omega), (List.mem_singleton.mp last).symm⟩

theorem exists_digitChar_of_mem_decimal {n : Nat} {c : Char} (hc : c ∈ (decimal n).toList) :
    ∃ digit < 10, Nat.digitChar digit = c := by
  rw [decimal, String.toList_ofList] at hc
  exact exists_digitChar_of_mem_toDigits (by decide) hc

/-- The zeros in front are digits as well. -/
theorem exists_digitChar_of_mem_upperHex {width n : Nat} {c : Char}
    (hc : c ∈ (upperHex width n).toList) :
    ∃ digit < 16, (Nat.digitChar digit).toUpper = c := by
  rw [upperHex, String.toList_ofList, List.leftpad, List.mem_append, List.mem_map] at hc
  rcases hc with padding | ⟨c, hc, rfl⟩
  · exact ⟨0, by decide, (List.eq_of_mem_replicate padding).symm⟩
  · obtain ⟨digit, small, rfl⟩ := exists_digitChar_of_mem_toDigits (by decide) hc
    exact ⟨digit, small, rfl⟩

theorem toList_decimal_ne_nil (n : Nat) : (decimal n).toList ≠ [] := by
  rw [decimal, String.toList_ofList]
  exact Nat.toDigits_ne_nil

theorem toList_upperHex_ne_nil (width n : Nat) : (upperHex width n).toList ≠ [] := by
  rw [upperHex, String.toList_ofList, List.leftpad]
  simp [Nat.toDigits_ne_nil]

/-- A hexadecimal numeral has as many digits as it is padded to, unless the number needs more. -/
theorem length_upperHex {width n : Nat} (digits : (Nat.toDigits 16 n).length ≤ width) :
    (upperHex width n).length = width := by
  rw [upperHex, String.length_ofList, List.leftpad, List.length_append, List.length_replicate,
    List.length_map]
  omega

/-- The hexadecimal numeral of a word has four digits, -/
theorem length_upperHex_word (w : UInt16) : (upperHex 4 w.toNat).length = 4 :=
  length_upperHex (Nat.toDigits_length 16 w.toNat 4 (by decide) w.toNat_lt)

/-- and that of a byte two. -/
theorem length_upperHex_byte (b : UInt8) : (upperHex 2 b.toNat).length = 2 :=
  length_upperHex (Nat.toDigits_length 16 b.toNat 2 (by decide) b.toNat_lt)

/-- A hexadecimal numeral of two digits or more ends with the digit of the remainder. -/
theorem upperHex_succ (width n : Nat) :
    upperHex (width + 2) n = upperHex (width + 1) (n / 16) ++ upperHex 1 (n % 16) := by
  have last : n % 16 < 16 := Nat.mod_lt n (by decide)
  rw [upperHex, upperHex, upperHex, ← String.ofList_append, Nat.toDigits_of_lt_base last]
  congr 1
  by_cases small : n < 16
  · -- The quotient is a zero, like those that stand in front of it.
    have zero : n / 16 = 0 := by omega
    have digit : n % 16 = n := by omega
    have padding : List.leftpad (width + 1) '0' ((Nat.toDigits 16 0).map Char.toUpper) =
        List.replicate (width + 1) '0' := List.replicate_succ'.symm
    rw [zero, digit, padding, Nat.toDigits_of_lt_base small]
    rfl
  · have padding (front : List Char) (c : Char) :
        List.leftpad (width + 2) '0' (front ++ [c]) =
          List.leftpad (width + 1) '0' front ++ [c] := by
      have missing : width + 2 - (front.length + 1) = width + 1 - front.length := by omega
      rw [List.leftpad, List.leftpad, List.length_append, List.length_singleton, missing,
        List.append_assoc]
    rw [Nat.toDigits_of_base_le (by decide) (Nat.not_lt.mp small), List.map_append,
      List.map_singleton, padding]
    rfl

/-! ### Reading digits -/

/-- Digits are read one part after the other. -/
theorem ofDigitsAfter?_append (base value : Nat) (front back : List Char) :
    ofDigitsAfter? base value (front ++ back) =
      (ofDigitsAfter? base value front).bind fun value => ofDigitsAfter? base value back := by
  induction front generalizing value with
  | nil => rfl
  | cons c front ih =>
    rw [List.cons_append, ofDigitsAfter?, ofDigitsAfter?]
    cases digitValue? c with
    | none => rfl
    | some digit =>
      simp only
      split
      · exact ih _
      · rfl

/-- A digit adds to the value of those before it. -/
theorem ofDigitsAfter?_digit {base digit : Nat} {c : Char} (value : Nat)
    (h : digitValue? c = some digit) (small : digit < base) :
    ofDigitsAfter? base value [c] = some (value * base + digit) := by
  simp only [ofDigitsAfter?, h, small, if_true]

/-- **The digits of a number give the number**, in whatever style they are written, as long as
each of them alone is read as what it stands for. -/
theorem ofDigitsAfter?_toDigits {base : Nat} (style : Char → Char) (h : 1 < base)
    (read : ∀ digit < base, digitValue? (style (Nat.digitChar digit)) = some digit) (n : Nat) :
    ofDigitsAfter? base 0 ((Nat.toDigits base n).map style) = some n := by
  induction n using Nat.strongRecOn with
  | ind n ih =>
    by_cases small : n < base
    · rw [Nat.toDigits_of_lt_base small, List.map_singleton,
        ofDigitsAfter?_digit 0 (read n small) small, Nat.zero_mul, Nat.zero_add]
    · have below : n % base < base := Nat.mod_lt n (by omega)
      rw [Nat.toDigits_of_base_le h (Nat.not_lt.mp small), List.map_append, List.map_singleton,
        ofDigitsAfter?_append, ih (n / base) (Nat.div_lt_self (by omega) h), Option.bind_some,
        ofDigitsAfter?_digit _ (read _ below) below, Nat.div_add_mod']

/-- Zeros in front do not count. -/
theorem ofDigitsAfter?_zeros {base : Nat} (h : 0 < base) (count : Nat) (digits : List Char) :
    ofDigitsAfter? base 0 (List.replicate count '0' ++ digits) = ofDigitsAfter? base 0 digits := by
  have zero : digitValue? '0' = some 0 := rfl
  induction count with
  | zero => rfl
  | succ count ih =>
    rw [List.replicate_succ, List.cons_append, ofDigitsAfter?, zero]
    simp only [h, if_true, Nat.zero_mul, Nat.zero_add]
    exact ih

/-! ### Reading what was written -/

/-- Digits that are read as a number of sixty-four bits are read as such. -/
theorem ofDigits?_of_ofDigitsAfter? {base n : Nat} {digits : List Char} (nonempty : digits ≠ [])
    (read : ofDigitsAfter? base 0 digits = some n) (small : n < UInt64.size) :
    ofDigits? base digits = some n := by
  cases digits with
  | nil => contradiction
  | cons c digits => simp [ofDigits?, read, small]

theorem digitValue?_digitChar :
    ∀ digit < 16, digitValue? (Nat.digitChar digit) = some digit ∧
      digitValue? (Nat.digitChar digit).toUpper = some digit := by
  decide

/-- **A decimal numeral is read back.** -/
theorem ofDigits?_decimal {n : Nat} (small : n < UInt64.size) :
    ofDigits? 10 (decimal n).toList = some n := by
  refine ofDigits?_of_ofDigitsAfter? (toList_decimal_ne_nil n) ?_ small
  have read : ∀ digit < 10, digitValue? (id (Nat.digitChar digit)) = some digit :=
    fun digit below => (digitValue?_digitChar digit (by omega)).1
  have digits := ofDigitsAfter?_toDigits id (by decide) read n
  rw [List.map_id] at digits
  rw [decimal, String.toList_ofList, digits]

/-- **A hexadecimal numeral is read back**, whatever the width to which it was padded. -/
theorem ofDigits?_upperHex (width : Nat) {n : Nat} (small : n < UInt64.size) :
    ofDigits? 16 (upperHex width n).toList = some n := by
  refine ofDigits?_of_ofDigitsAfter? (toList_upperHex_ne_nil width n) ?_ small
  have digits := ofDigitsAfter?_toDigits Char.toUpper (by decide)
    (fun digit below => (digitValue?_digitChar digit below).2) n
  rw [upperHex, String.toList_ofList, List.leftpad, ofDigitsAfter?_zeros (by decide), digits]

end Chip8
