/-!
# Numerals

How numbers are written in listings, dumps and messages: `Chip8.decimal` for
quantities, `Chip8.upperHex` for words, addresses and register numbers – padded
with zeros to a least width, and wider where the number needs it –, and
`Chip8.lowerHex` for keys. And how they are read, by `Chip8.ofDigits?`, in
configurations and on the command line.
-/

namespace Chip8

/-! ### Writing -/

/-- The decimal text of a number, without leading zeros. -/
def decimal (n : Nat) : String := String.ofList (Nat.toDigits 10 n)

/-- The upper-case hexadecimal text of a number, padded with zeros on the left to
at least `width` digits. -/
def upperHex (width n : Nat) : String :=
  String.ofList (((Nat.toDigits 16 n).map Char.toUpper).leftpad width '0')

/-- The lower-case hexadecimal text of a number, without leading zeros. -/
def lowerHex (n : Nat) : String := String.ofList (Nat.toDigits 16 n)

/-! ### Reading -/

/-- The value of a digit, of which there are sixteen. -/
def digitValue? (c : Char) : Option Nat :=
  if '0' ≤ c ∧ c ≤ '9' then some (c.toNat - 48)
  else if 'A' ≤ c ∧ c ≤ 'F' then some (c.toNat - 55)
  else if 'a' ≤ c ∧ c ≤ 'f' then some (c.toNat - 87)
  else none

/-- The number that digits of a base write, after digits that write `value`. -/
def ofDigitsAfter? (base value : Nat) : List Char → Option Nat
  | [] => some value
  | c :: rest =>
    match digitValue? c with
    | none => none
    | some d => if d < base then ofDigitsAfter? base (value * base + d) rest else none

/-- The number of sixty-four bits that one or more digits of a base write. -/
def ofDigits? (base : Nat) (digits : List Char) : Option Nat :=
  match digits with
  | [] => none
  | _ => (ofDigitsAfter? base 0 digits).filter (· < UInt64.size)

/-- A number without the plus sign that may stand before it. -/
def dropPlus : List Char → List Char
  | '+' :: digits => digits
  | digits => digits

/-- The number of sixty-four bits that a text writes: decimal digits, after a plus sign
or none. -/
def ofDecimal? (text : String) : Option Nat := ofDigits? 10 (dropPlus text.toList)

end Chip8
