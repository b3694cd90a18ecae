import Chip8.Proofs.Listing
import Chip8.Proofs.Readback

/-!
# A dump shows what is fetched

A dump of program memory shows the bytes at two addresses on each line. The machine fetches words,
from wherever its program counter points, and a listing shows the words of a program. All three are
about the same bytes: the main statement, `Chip8.Machine.dump_agrees`, is that a dump has on each
line the word that the machine would fetch there, and after a program was loaded, the word that
its listing has on the same line. Only a last byte that has no partner is shown in two ways, by a
listing alone and by a dump together with the zero that follows it in memory.

A dump is made digit by digit of bytes, and a listing of words, so what there is to know is that the
four digits of a word are those of its two bytes (`Chip8.upperHex_ofBytes`). A dump goes through the
addresses one by one and shows every second of them (`Chip8.Memory.getElem?_dumpAddresses`).
-/

namespace Chip8

/-- **The digits of a word are the digits of its bytes.** -/
theorem upperHex_ofBytes (high low : UInt8) :
    upperHex 4 (Word.ofBytes high low).toNat = upperHex 2 high.toNat ++ upperHex 2 low.toNat := by
  have value := Word.toNat_ofBytes high low
  have := low.toNat_lt
  have front : (Word.ofBytes high low).toNat / 16 / 16 = high.toNat := by omega
  have third : (Word.ofBytes high low).toNat / 16 % 16 = low.toNat / 16 := by omega
  have last : (Word.ofBytes high low).toNat % 16 = low.toNat % 16 := by omega
  rw [upperHex_succ 2, upperHex_succ 1, front, third, last, String.append_assoc,
    upperHex_succ 0 low.toNat]

/-! ### Every second entry -/

theorem length_everySecond {α : Type} (l : List α) :
    (everySecond l).length = (l.length + 1) / 2 := by
  fun_induction everySecond l with
  | case1 => simp
  | case2 last => simp
  | case3 entry other rest ih =>
    rw [List.length_cons, ih, List.length_cons, List.length_cons]
    omega

/-- The entry at a place is the one at twice the place. -/
theorem getElem?_everySecond {α : Type} (l : List α) (k : Nat) :
    (everySecond l)[k]? = l[2 * k]? := by
  fun_induction everySecond l generalizing k with
  | case1 => rfl
  | case2 last =>
    cases k with
    | zero => rfl
    | succ k => rfl
  | case3 entry other rest ih =>
    cases k with
    | zero => rfl
    | succ k =>
      have twice : 2 * (k + 1) = 2 * k + 1 + 1 := by omega
      rw [List.getElem?_cons_succ, ih, twice, List.getElem?_cons_succ, List.getElem?_cons_succ]

/-! ### The lines of a dump -/

namespace Memory

/-- A line of a dump, without its line break. -/
def dumpRow (m : Memory) (address : Nat) : String :=
  upperHex 4 address ++ ": " ++ upperHex 4 (m.readWord address).toNat

theorem dumpLine_eq (m : Memory) (address : Nat) :
    m.dumpLine address = m.dumpRow address ++ "\n" := by
  rw [dumpLine, dumpRow, readWord, upperHex_ofBytes]
  simp only [String.append_assoc]

theorem isLine_dumpRow (m : Memory) (address : Nat) : IsLine (m.dumpRow address) :=
  ((isLine_upperHex 4 address).append (by decide)).append (isLine_upperHex 4 _)

/-- The lines of a dump. -/
def dumpRows (m : Memory) (count : Nat) : List String := (dumpAddresses count).map m.dumpRow

/-- A dump has a line for every address it shows, and nothing after the last one. -/
theorem linesOf_dump (m : Memory) (count : Nat) :
    linesOf (m.dump count) = m.dumpRows count ++ [""] := by
  have rows : m.dumpLines count = (m.dumpRows count).map (· ++ "\n") := by
    rw [dumpLines, dumpRows, List.map_map]
    exact List.map_congr_left fun address _ => m.dumpLine_eq address
  rw [dump, rows]
  refine linesOf_join fun row member => ?_
  obtain ⟨address, -, rfl⟩ := List.mem_map.mp member
  exact m.isLine_dumpRow address

/-- There is an address for every two bytes, -/
theorem length_dumpAddresses (count : Nat) :
    (dumpAddresses count).length = (min count 3584 + 1) / 2 := by
  rw [dumpAddresses, length_everySecond, List.length_take, List.length_drop, List.length_range]
  rfl

/-- each two further than the one before. -/
theorem getElem?_dumpAddresses {count k : Nat} (inside : k < (min count 3584 + 1) / 2) :
    (dumpAddresses count)[k]? = some (0x200 + 2 * k) := by
  have taken : 2 * k < count := by omega
  have there : programStart + 2 * k < size := by
    rw [programStart, size]
    omega
  rw [dumpAddresses, getElem?_everySecond, List.getElem?_take_of_lt taken, List.getElem?_drop,
    List.getElem?_range there, programStart]

theorem length_dumpRows (m : Memory) (count : Nat) :
    (m.dumpRows count).length = (min count 3584 + 1) / 2 := by
  rw [dumpRows, List.length_map, length_dumpAddresses]

theorem getElem?_dumpRows (m : Memory) {count k : Nat} (inside : k < (min count 3584 + 1) / 2) :
    (m.dumpRows count)[k]? = some (m.dumpRow (0x200 + 2 * k)) := by
  rw [dumpRows, List.getElem?_map, getElem?_dumpAddresses inside, Option.map_some]

/-- The word at a place is made of the bytes of the program, where two of them are. -/
theorem IsLoaded.readWord {m : Memory} {program : List UInt8} (loaded : m.IsLoaded program)
    {k : Nat} (inside : 2 * k + 1 < program.length) :
    ∃ high low, program[2 * k]? = some high ∧ program[2 * k + 1]? = some low ∧
      m.readWord (0x200 + 2 * k) = Word.ofBytes high low :=
  ⟨_, _, loaded.stored (2 * k) (by omega), loaded.stored (2 * k + 1) inside, rfl⟩

/-- A last byte that has no partner is followed by a zero. -/
theorem IsLoaded.readWord_last {m : Memory} {program : List UInt8} (loaded : m.IsLoaded program)
    (fits : program.length ≤ programCapacity) {k : Nat} (odd : program.length = 2 * k + 1) :
    ∃ last, program[2 * k]? = some last ∧ m.readWord (0x200 + 2 * k) = Word.ofBytes last 0 := by
  have size : program.length ≤ 3584 := fits
  refine ⟨_, loaded.stored (2 * k) (by omega), ?_⟩
  rw [Memory.readWord, loaded.above (0x200 + 2 * k + 1) (by omega) (by omega)]

end Memory

/-! ### Dumps, listings and the machine -/

namespace Machine

/-- The word that is fetched after the program counter was set. -/
theorem fetch_setPc (m : Machine) (address : UInt16) :
    (m.apply (.edit (.setPc address))).machine.processor.fetch =
      m.processor.memory.readWord address.toNat := rfl

/-- **A dump agrees with the machine and with a listing.** Whatever a machine did, a dump of so many
bytes has a line for every two of them, as far as program memory goes, and nothing after the last
one. Each line has an address, two further than the line before, and the word that the machine
would fetch if its program counter were set there, in four digits each. After a program was
loaded, in whatever way, a dump of its size and its listing have as many lines. They show the same
addresses and the same words; but if a last byte has no partner, the listing shows it alone, and
the dump shows it with two zeros after it. -/
theorem dump_agrees (m : Machine) :
    (∀ count, ∃ rows : List String,
      linesOf (m.processor.memory.dump count) = rows ++ [""] ∧
      rows.length = (min count 3584 + 1) / 2 ∧
      ∀ k < rows.length,
        let n := (m.apply (.edit (.setPc (UInt16.ofNat (0x200 + 2 * k))))).machine
        n.processor.pc.toNat = 0x200 + 2 * k ∧
        rows[k]? = some (upperHex 4 n.processor.pc.toNat ++ ": " ++
          upperHex 4 n.processor.fetch.toNat)) ∧
    (∀ w : UInt16, (upperHex 4 w.toNat).length = 4) ∧
    ∀ operation program, Operation.loading? operation = some (.ok program) →
      ∃ rows lines : List String,
        linesOf ((m.apply operation).machine.processor.memory.dump program.length) =
          rows ++ [""] ∧
        linesOf (Listing.ofProgram program) = lines ++ [""] ∧
        rows.length = (program.length + 1) / 2 ∧ lines.length = (program.length + 1) / 2 ∧
        (∀ k, 2 * k + 1 < program.length → ∃ (word : UInt16) (text : String),
          rows[k]? = some (upperHex 4 (0x200 + 2 * k) ++ ": " ++ upperHex 4 word.toNat) ∧
          lines[k]? = some ("0x" ++ upperHex 4 (0x200 + 2 * k) ++ " " ++ upperHex 4 word.toNat ++
            " " ++ text)) ∧
        ∀ k, program.length = 2 * k + 1 → ∃ last : UInt8,
          program[2 * k]? = some last ∧
          rows[k]? = some (upperHex 4 (0x200 + 2 * k) ++ ": " ++ upperHex 2 last.toNat ++ "00") ∧
          lines[k]? = some ("0x" ++ upperHex 4 (0x200 + 2 * k) ++ " " ++
            upperHex 2 last.toNat) := by
  refine ⟨?_, length_upperHex_word, ?_⟩
  · intro count
    refine ⟨_, Memory.linesOf_dump _ count, Memory.length_dumpRows _ count, ?_⟩
    intro k inside n
    rw [Memory.length_dumpRows] at inside
    have set : (UInt16.ofNat (0x200 + 2 * k)).toNat = 0x200 + 2 * k := by
      rw [UInt16.toNat_ofNat']
      omega
    have fetched : n.processor.fetch = m.processor.memory.readWord (0x200 + 2 * k) := by
      rw [fetch_setPc, set]
    have place : n.processor.pc.toNat = 0x200 + 2 * k := set
    refine ⟨place, ?_⟩
    rw [Memory.getElem?_dumpRows _ inside, place, fetched]
    rfl
  · intro operation program loads
    have loaded := isLoaded_of_loading (m := m) loads
    have fits := fits_of_loading loads
    have size : min program.length 3584 = program.length := Nat.min_eq_left fits
    refine ⟨_, (Listing.lines program).map ListingLine.text, Memory.linesOf_dump _ _,
      Listing.linesOf_text _, ?_, ?_, ?_, ?_⟩
    · rw [Memory.length_dumpRows, size]
    · rw [List.length_map]
      exact Listing.length_linesAt _ program
    · intro k inside
      obtain ⟨high, low, hh, hl, word⟩ := loaded.readWord inside
      have line : (Listing.lines program)[k]? = some _ := Listing.getElem?_linesAt hh hl
      rw [Memory.getElem?_dumpRows _ (by omega), Memory.dumpRow, word, List.getElem?_map, line]
      exact ⟨_, _, rfl, rfl⟩
    · intro k odd
      obtain ⟨last, found, word⟩ := loaded.readWord_last fits odd
      have line : (Listing.lines program)[k]? = some _ := Listing.getElem?_linesAt_last odd found
      rw [Memory.getElem?_dumpRows _ (by omega), Memory.dumpRow, word, upperHex_ofBytes,
        List.getElem?_map, line, ← String.append_assoc]
      exact ⟨last, found, rfl, rfl⟩

/-- A program of three bytes, loaded in the place of another one: the last byte is shown in two
ways. -/
theorem dump_agrees_odd :
    let m := (create .standard 0).machine.run [.load [0xFF, 0xFF, 0xFF, 0xFF], .step]
    let program : List UInt8 := [0x00, 0xE0, 0x12]
    let loaded := (m.apply (.load program)).machine.processor.memory
    ∃ rows lines : List String,
      linesOf (loaded.dump 3) = rows ++ [""] ∧
      linesOf (Listing.ofProgram program) = lines ++ [""] ∧
      rows[1]? = some "0202: 1200" ∧ lines[1]? = some "0x0202 12" := by
  intro m program loaded
  obtain ⟨-, -, listed⟩ := m.dump_agrees
  obtain ⟨rows, lines, dump, listing, -, -, -, odd⟩ := listed (.load program) program rfl
  obtain ⟨last, found, row, line⟩ := odd 1 rfl
  obtain rfl : 0x12 = last := Option.some.inj found
  exact ⟨rows, lines, dump, listing, row.trans (by decide +kernel), line.trans (by decide +kernel)⟩

end Machine

end Chip8
