import Chip8.Proofs.RegisterBlock

/-!
# Decimal digits and their glyphs

To show a number on the screen, a program stores its decimal digits in memory, loads them into
registers, and points the index register at the glyph of one of them. The main statement,
`Chip8.Machine.digits_become_glyphs`, is that this works, as long as the digits are not stored where
the font lies: the registers hold the digits of the number, and the index register points at the
glyph of the one that was asked for.

That the font lies where it should (`Chip8.Memory.HoldsFont`) is all that matters about the rest
of memory. The glyphs stand one after the other, so the place of a glyph is a multiple of its
height (`Chip8.Memory.HoldsFont.glyph`).
-/

namespace Chip8

/-! ### The font in memory -/

namespace Memory

/-- Memory that holds the font where it belongs. -/
def HoldsFont (m : Memory) : Prop := ∀ address < 80, Font.bytes[address]? = some (m.read address)

instance (m : Memory) : Decidable m.HoldsFont :=
  inferInstanceAs (Decidable (∀ address < 80, _))

/-- Memory that holds the glyph of a digit at an address. -/
def HoldsGlyph (m : Memory) (address digit : Nat) : Prop :=
  ∀ row < Font.glyphHeight,
    Font.bytes[digit * Font.glyphHeight + row]? = some (m.read (address + row))

variable {m : Memory}

/-- Of every digit there is a glyph in the font. -/
theorem HoldsFont.glyph (font : m.HoldsFont) {digit : Nat} (small : digit < 16) :
    m.HoldsGlyph (Font.start + digit * Font.glyphHeight) digit := by
  intro row inside
  unfold Font.glyphHeight at inside
  have place : digit * Font.glyphHeight + row < 80 := by
    unfold Font.glyphHeight
    omega
  rw [font _ place, Font.start, Nat.zero_add]

/-- The font stays where it is if nothing is stored below its end. -/
theorem HoldsFont.writeBytes (font : m.HoldsFont) {first : Nat} {bytes : List UInt8}
    (fits : bytes.length ≤ 4096) (above : ∀ k < bytes.length, 80 ≤ (first + k) % 4096) :
    (m.writeBytes first bytes).HoldsFont := by
  intro address low
  rw [font address low, read_writeBytes_of_disjoint fits]
  intro k inside same
  have := above k inside
  omega

end Memory

/-! ### Digits of a byte -/

namespace Processor

/-- The decimal digits of a byte are three digits, and make it up again. -/
theorem decimalDigits_spec (byte : UInt8) :
    ∃ hundreds tens ones, decimalDigits byte = [hundreds, tens, ones] ∧
      (∀ digit ∈ [hundreds, tens, ones], digit.toNat ≤ 9) ∧
      100 * hundreds.toNat + 10 * tens.toNat + ones.toNat = byte.toNat := by
  have := byte.toNat_lt
  have hundreds : (byte / 100).toNat = byte.toNat / 100 := UInt8.toNat_div _ _
  have tens : (byte / 10 % 10).toNat = byte.toNat / 10 % 10 := by
    rw [UInt8.toNat_mod, UInt8.toNat_div]
    rfl
  have ones : (byte % 10).toNat = byte.toNat % 10 := UInt8.toNat_mod _ _
  refine ⟨_, _, _, rfl, ?_, ?_⟩
  · simp only [List.forall_mem_cons, List.not_mem_nil, false_imp_iff, implies_true, and_true]
    omega
  · omega

end Processor

namespace Machine

variable {m : Machine}

/-- Storing digits moves on and writes them. -/
theorem execute_storeDigits (ready : m.IsReady) (x : Register) :
    m.execute (Instruction.storeDigits x).encode =
      ⟨.ok .next,
        { m with processor := { m.processor with
            pc := m.processor.pc + 2
            memory := m.processor.memory.writeBytes m.processor.index.toNat
              (Processor.decimalDigits (m.processor.register x)) } },
        [m.traceOf (.storeDigits x)]⟩ :=
  execute_of_decode ready (Instruction.decode_encode _) rfl rfl

/-- Pointing at a glyph moves on and sets the index register. -/
theorem execute_pointGlyph (ready : m.IsReady) (x : Register) :
    m.execute (Instruction.pointGlyph x).encode =
      ⟨.ok .next,
        { m with processor := { m.processor with
            pc := m.processor.pc + 2
            index := UInt16.ofNat
              (Font.start + (m.processor.register x).toNat * Font.glyphHeight) } },
        [m.traceOf (.pointGlyph x)]⟩ :=
  execute_of_decode ready (Instruction.decode_encode _) rfl rfl

/-- What is done to have the glyph of a decimal digit: the digits of a register are stored and
loaded again, and the index register is pointed at the glyph of what one register then holds. -/
def showDigit (x d : Register) : List Operation :=
  [.execute (Instruction.storeDigits x).encode,
    .execute (Instruction.load (registerOf 2)).encode, .execute (Instruction.pointGlyph d).encode]

/-- What comes of it, part by part. -/
theorem run_showDigit (ready : m.IsReady) (x d : Register) :
    let p := m.processor
    let q := (m.run (showDigit x d)).processor
    (m.responses (showDigit x d)).map Response.answer =
      [.flow .next, .flow .next, .flow .next] ∧
    q.memory = p.memory.writeBytes p.index.toNat (Processor.decimalDigits (p.register x)) ∧
    (∀ r ≤ 2, q.register r = q.memory.read (p.index.toNat + r.val)) ∧
    q.index = UInt16.ofNat (Font.start + (q.register d).toNat * Font.glyphHeight) := by
  intro p q
  let k := (m.execute (Instruction.storeDigits x).encode).machine
  let l := (k.execute (Instruction.load (registerOf 2)).encode).machine
  have first := execute_storeDigits ready x
  have stored : k = _ := congrArg Response.machine first
  have storedReady : k.IsReady := by
    rw [stored]
    exact ⟨ready.unstopped, ready.unblocked⟩
  have second := execute_load storedReady (registerOf 2)
  have loaded : l = _ := congrArg Response.machine second
  have loadedReady : l.IsReady := by
    rw [loaded]
    exact ⟨storedReady.unstopped, storedReady.unblocked⟩
  have third := execute_pointGlyph loadedReady d
  have last : q = (l.execute (Instruction.pointGlyph d).encode).machine.processor := rfl
  have answers : (m.responses (showDigit x d)).map Response.answer =
      [.ofExecution (m.execute (Instruction.storeDigits x).encode).answer,
        .ofExecution (k.execute (Instruction.load (registerOf 2)).encode).answer,
        .ofExecution (l.execute (Instruction.pointGlyph d).encode).answer] := rfl
  rw [answers, last, first, second, third, loaded, stored]
  exact ⟨rfl, rfl, fun r below =>
    (Processor.register_loadRegisters _ (registerOf 2) r).trans (if_pos below), rfl⟩

/-- **Decimal digits become glyphs.** A machine that is ready and has the font in memory stores the
digits of a register, loads them and asks for the glyph of one of them. If none of the digits is
stored where the font lies, they are digits, and they make up again what the register held, also if
it is one of those that they are loaded into. The index register points at the glyph of the digit
that was asked for, and memory is as it was but for the three places where the digits are. -/
theorem digits_become_glyphs (ready : m.IsReady) (font : m.processor.memory.HoldsFont)
    (above : ∀ k < 3, 80 ≤ (m.processor.index.toNat + k) % 4096) (x d : Register) (asked : d ≤ 2) :
    let p := m.processor
    let q := (m.run (showDigit x d)).processor
    (m.responses (showDigit x d)).map Response.answer =
      [.flow .next, .flow .next, .flow .next] ∧
    (q.register 0).toNat ≤ 9 ∧ (q.register 1).toNat ≤ 9 ∧ (q.register 2).toNat ≤ 9 ∧
    100 * (q.register 0).toNat + 10 * (q.register 1).toNat + (q.register 2).toNat =
      (p.register x).toNat ∧
    q.memory.HoldsGlyph q.index.toNat (q.register d).toNat ∧
    ∀ address, (∀ k < 3, (p.index.toNat + k) % 4096 ≠ address % 4096) →
      q.memory.read address = p.memory.read address := by
  intro p q
  obtain ⟨answers, memory, loaded, index⟩ := run_showDigit ready x d
  obtain ⟨hundreds, tens, ones, digits, small, value⟩ :=
    Processor.decimalDigits_spec (p.register x)
  rw [digits] at memory
  have fits : [hundreds, tens, ones].length ≤ 4096 := by simp
  have held {r : Register} {digit : UInt8} (below : r ≤ 2)
      (found : [hundreds, tens, ones][r.val]? = some digit) : q.register r = digit := by
    rw [loaded r below, memory]
    exact Memory.read_writeBytes_add _ _ fits found
  have first : q.register 0 = hundreds := held (by decide) rfl
  have second : q.register 1 = tens := held (by decide) rfl
  have third : q.register 2 = ones := held (by decide) rfl
  have digit : (q.register d).toNat ≤ 9 := by
    have inside : d.val < [hundreds, tens, ones].length := Nat.lt_succ_of_le asked
    rw [held asked (List.getElem?_eq_getElem inside)]
    exact small _ (List.getElem_mem inside)
  have place : q.index.toNat = Font.start + (q.register d).toNat * Font.glyphHeight := by
    have narrow : Font.start + (q.register d).toNat * Font.glyphHeight < UInt16.size := by
      unfold Font.start Font.glyphHeight UInt16.size
      omega
    rw [index]
    exact UInt16.toNat_ofNat_of_lt narrow
  refine ⟨answers, ?_, ?_, ?_, ?_, ?_, ?_⟩
  · rw [first]
    exact small _ (by simp)
  · rw [second]
    exact small _ (by simp)
  · rw [third]
    exact small _ (by simp)
  · rw [first, second, third, value]
  · -- The digits are stored above the font, and so the glyph is where it was.
    rw [place, memory]
    exact (font.writeBytes fits above).glyph (by omega)
  · intro address apart
    rw [memory, Memory.read_writeBytes_of_disjoint fits apart]

/-- The digits of a register are stored right after the font, by an index register that has more
than twelve bits, and the register is one of those that they are loaded into. -/
theorem digits_become_glyphs_four :
    let m := (create .standard 0).machine.run [.edit (.setIndex 0xF050), .execute 0x61FE]
    let q := (m.run (showDigit 1 2)).processor
    m.IsReady ∧ m.processor.memory.HoldsFont ∧
      (∀ k < 3, 80 ≤ (m.processor.index.toNat + k) % 4096) ∧
      (q.register 0).toNat = 2 ∧ (q.register 1).toNat = 5 ∧ (q.register 2).toNat = 4 ∧
      q.memory.HoldsGlyph q.index.toNat 4 := by
  intro m q
  have ready : m.IsReady := by decide +kernel
  have font : m.processor.memory.HoldsFont := by decide +kernel
  have above : ∀ k < 3, 80 ≤ (m.processor.index.toNat + k) % 4096 := by decide +kernel
  have before : (m.processor.register 1).toNat = 254 := by decide +kernel
  obtain ⟨-, small, small', small'', value, glyph, -⟩ :=
    digits_become_glyphs ready font above 1 2 (by decide)
  have sum : 100 * (q.register 0).toNat + 10 * (q.register 1).toNat + (q.register 2).toNat = 254 :=
    value.trans before
  have limits : (q.register 0).toNat ≤ 9 ∧ (q.register 1).toNat ≤ 9 ∧ (q.register 2).toNat ≤ 9 :=
    ⟨small, small', small''⟩
  have ones : (q.register 2).toNat = 4 := by omega
  have shown : q.memory.HoldsGlyph q.index.toNat (q.register 2).toNat := glyph
  rw [ones] at shown
  exact ⟨ready, font, above, by omega, by omega, ones, shown⟩

end Machine

end Chip8
