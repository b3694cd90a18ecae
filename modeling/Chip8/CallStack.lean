/-!
# The call stack

The addresses of the calls that have not returned yet, in an array of slots that is
filled from below. At most `Chip8.CallStack.capacity` calls can be open:
`Chip8.CallStack.push?` has no result on a full stack, and `Chip8.CallStack.pop?` has
none on an empty one. A return leaves its slot as it is, to be overwritten by the next
call; the calls that are open, and nothing else, are `Chip8.CallStack.toList`.
-/

namespace Chip8

/-- The open calls. -/
structure CallStack where
  /-- The slots, the outermost call in the first. -/
  slots : Vector UInt16 16
  /-- The number of open calls, which is the number of slots in use. -/
  depth : Nat
  /-- No more calls are open than the machine has room for. -/
  bounded : depth ≤ 16
  deriving DecidableEq

namespace CallStack

/-- The number of calls that can be open at once. -/
def capacity : Nat := 16

/-- The stack without open calls, all its slots zero. -/
def empty : CallStack := ⟨Vector.replicate 16 0, 0, Nat.zero_le _⟩

/-- The addresses of the open calls, the outermost first. -/
def toList (s : CallStack) : List UInt16 := s.slots.toList.take s.depth

/-- The stack with the given open calls, the outermost first, and zero in the slots
above them. Calls beyond the capacity are dropped. -/
def ofList (sites : List UInt16) : CallStack :=
  ⟨Vector.ofFn fun k => sites[k.val]?.getD 0, min sites.length 16, Nat.min_le_right _ _⟩

/-- Open a call at an address. -/
def push? (s : CallStack) (site : UInt16) : Option CallStack :=
  if h : s.depth < 16 then some ⟨s.slots.set s.depth site, s.depth + 1, h⟩ else none

/-- The address of the innermost open call, and the stack without it. -/
def pop? (s : CallStack) : Option (UInt16 × CallStack) :=
  match s with
  | ⟨_, 0, _⟩ => none
  | ⟨slots, depth + 1, h⟩ => some (slots[depth], ⟨slots, depth, Nat.le_of_succ_le h⟩)

/-! ### The open calls as a list -/

@[simp] theorem length_toList (s : CallStack) : s.toList.length = s.depth := by
  have := s.bounded
  simp only [toList, List.length_take, Vector.length_toList]
  omega

/-! ### Calls -/

theorem push?_eq_none_iff {s : CallStack} {site : UInt16} :
    s.push? site = none ↔ s.depth = capacity := by
  have := s.bounded
  simp only [push?, capacity, dite_eq_right_iff, reduceCtorEq, imp_false]
  omega

/-- A call is opened where there is room for it. -/
theorem depth_ne_of_push? {s t : CallStack} {site : UInt16} (h : s.push? site = some t) :
    s.depth ≠ capacity := by
  intro full
  rw [push?_eq_none_iff.mpr full] at h
  contradiction

/-- A call is opened above the calls that are open already. -/
theorem toList_of_push? {s t : CallStack} {site : UInt16} (h : s.push? site = some t) :
    t.toList = s.toList ++ [site] := by
  simp only [push?] at h
  split at h
  case isTrue room =>
    cases h
    have held : s.depth < s.slots.toList.length := by
      rw [Vector.length_toList]
      exact room
    -- The slot that is written is the first one that was not in use.
    simp only [toList, Vector.toList_set, List.take_add_one, List.take_set,
      List.getElem?_set_self held]
    rw [List.set_eq_of_length_le (List.length_take_le _ _)]
    rfl
  case isFalse => contradiction

/-! ### Returns -/

theorem pop?_eq_none_iff {s : CallStack} : s.pop? = none ↔ s.depth = 0 := by
  obtain ⟨slots, depth, h⟩ := s
  cases depth <;> simp [pop?]

/-- A return closes the call that was opened last. -/
theorem toList_of_pop? {s t : CallStack} {site : UInt16} (h : s.pop? = some (site, t)) :
    s.toList = t.toList ++ [site] := by
  obtain ⟨slots, depth, bounded⟩ := s
  cases depth with
  | zero => simp [pop?] at h
  | succ depth =>
    simp only [pop?, Option.some.injEq, Prod.mk.injEq] at h
    obtain ⟨rfl, rfl⟩ := h
    have held : depth < slots.toList.length := by
      rw [Vector.length_toList]
      exact bounded
    simp only [toList, List.take_add_one, List.getElem?_eq_getElem held]
    rfl

end CallStack

end Chip8
