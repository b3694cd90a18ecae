import Chip8.Numeral

/-!
# The keypad

Sixteen keys, `0` to `F`, each of which is up or down. Programs and callers name
keys by numbers of which only the first sixteen are keys: any other number reads
as a key that is up, and setting it changes nothing (`Chip8.Keypad.isDown`,
`Chip8.Keypad.set`).
-/

namespace Chip8

/-- A key of the keypad. -/
abbrev Key := Fin 16

/-- A number that names no key. -/
structure InvalidKey where
  /-- The number. -/
  code : UInt8
  deriving DecidableEq

/-- What is said of a number that names no key. -/
def InvalidKey.message (e : InvalidKey) : String :=
  "keycode must be in range 0 <= keycode < 16, got " ++ decimal e.code.toNat

namespace Key

/-- The number of keys. -/
def count : Nat := 16

/-- The name of a key. -/
def text (k : Key) : String := "k" ++ lowerHex k.val

/-- The key that a number names. -/
def ofCode (code : UInt8) : Except InvalidKey Key :=
  if h : code.toNat < 16 then .ok ⟨code.toNat, h⟩ else .error ⟨code⟩

end Key

/-- Which keys are down. -/
structure Keypad where
  /-- Whether each key is down. -/
  keys : Vector Bool 16
  deriving DecidableEq

namespace Keypad

/-- No key is down. -/
def released : Keypad := ⟨Vector.replicate 16 false⟩

/-- Whether the key with a number is down. -/
def isDown (p : Keypad) (code : Nat) : Bool := p.keys[code]?.getD false

/-- Move the key with a number down or up. -/
def set (p : Keypad) (code : Nat) (down : Bool) : Keypad := ⟨p.keys.setIfInBounds code down⟩

/-- The keys that are down, in ascending order. -/
def downKeys (p : Keypad) : List Key := (List.finRange 16).filter fun k => p.isDown k.val

/-- Whether any key is down. -/
def anyDown (p : Keypad) : Bool := p.keys.any id

/-- The keypad as a number of sixteen bits, bit `k` for the key `k`. -/
def mask (p : Keypad) : Nat := p.downKeys.foldl (fun mask k => mask ||| 1 <<< k.val) 0

/-- The names of the keys that are down, or nothing if there are none. -/
def text (p : Keypad) : String :=
  if p.anyDown then p.downKeys.foldl (fun line k => line ++ " " ++ k.text) "keys:" else ""

@[simp] theorem isDown_released (code : Nat) : released.isDown code = false := by
  simp only [isDown, released, Vector.getElem?_replicate]
  split <;> rfl

theorem isDown_set (p : Keypad) (code other : Nat) (down : Bool) :
    (p.set code down).isDown other =
      if code = other ∧ code < 16 then down else p.isDown other := by
  grind [isDown, set]

/-- A number reads as a key that is down if it names one. -/
theorem isDown_eq_true_iff {p : Keypad} {code : Nat} :
    p.isDown code = true ↔ ∃ k : Key, k.val = code ∧ p.isDown k.val = true := by
  constructor
  · intro down
    by_cases small : code < 16
    · exact ⟨⟨code, small⟩, rfl, down⟩
    · simp [isDown, small] at down
  · rintro ⟨k, rfl, down⟩
    exact down

theorem anyDown_iff {p : Keypad} : p.anyDown = true ↔ ∃ k : Key, p.isDown k.val = true := by
  rw [anyDown, Vector.any_eq_true]
  constructor
  · rintro ⟨code, small, down⟩
    refine ⟨⟨code, small⟩, ?_⟩
    rw [isDown, Vector.getElem?_eq_getElem small]
    exact down
  · rintro ⟨k, down⟩
    rw [isDown, Vector.getElem?_eq_getElem k.isLt] at down
    exact ⟨k.val, k.isLt, down⟩

/-! ### The keypad as a number -/

/-- Keys add their bits to those of a number. -/
theorem testBit_foldl_keys (keys : List Key) (start place : Nat) :
    (keys.foldl (fun mask k => mask ||| 1 <<< k.val) start).testBit place =
      (start.testBit place || keys.any fun k => k.val == place) := by
  induction keys generalizing start with
  | nil => simp
  | cons k keys ih =>
    rw [List.foldl_cons, ih, List.any_cons, Nat.testBit_or, Nat.one_shiftLeft,
      Nat.testBit_two_pow, Bool.or_assoc]
    rfl

/-- The number has the bits of the keys that are down. -/
theorem testBit_mask (p : Keypad) (place : Nat) : p.mask.testBit place = p.isDown place := by
  rw [mask, testBit_foldl_keys, Nat.zero_testBit, Bool.false_or, Bool.eq_iff_iff,
    List.any_eq_true]
  simp only [downKeys, List.mem_filter, List.mem_finRange, true_and, beq_iff_eq]
  constructor
  · rintro ⟨k, down, rfl⟩
    exact down
  · intro down
    obtain ⟨k, rfl, down⟩ := isDown_eq_true_iff.mp down
    exact ⟨k, down, rfl⟩

end Keypad

end Chip8
