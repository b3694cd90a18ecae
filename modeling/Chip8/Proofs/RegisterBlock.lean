import Chip8.Proofs.Decoding
import Chip8.Proofs.Frame

/-!
# Registers are kept in memory

A program that needs its registers for something else stores them as a block of memory and loads
them again later. The main statement, `Chip8.Machine.registers_come_back`, is that they come back,
or as many of them as are loaded, whatever was done in the meantime to everything but the block
and the index register; and that to load a block and store it again makes no difference to memory.

The block may begin at any address and go round the end of memory. As it is no longer than memory,
no byte of it is written over another one (`Chip8.Memory.read_writeBytes_add`).
-/

namespace Chip8

/-! ### Blocks of memory -/

namespace Memory

/-- The bytes of a block lie as far behind its start as they stand in the list. -/
theorem distance_add {first k : Nat} (inside : k < 4096) : distance first (first + k) = k := by
  unfold distance
  omega

/-- **A block is read as it was written.** -/
theorem read_writeBytes_add (m : Memory) (first : Nat) {bytes : List UInt8}
    (fits : bytes.length ≤ 4096) {k : Nat} {byte : UInt8} (found : bytes[k]? = some byte) :
    (m.writeBytes first bytes).read (first + k) = byte := by
  have inside : k < bytes.length := (List.getElem?_eq_some_iff.mp found).1
  rw [read_writeBytes _ _ _ _ fits, distance_add (by omega), found]
  rfl

theorem write_read (m : Memory) (address : Nat) : m.write address (m.read address) = m := by
  unfold write read
  rw [Vector.set_getElem_self]

/-- Bytes that are written where they are read already leave memory as it was. -/
theorem writeBytes_of_read {m : Memory} {first : Nat} {bytes : List UInt8}
    (same : ∀ k byte, bytes[k]? = some byte → m.read (first + k) = byte) :
    m.writeBytes first bytes = m := by
  induction bytes generalizing first with
  | nil => rfl
  | cons byte bytes ih =>
    have here : m.read first = byte := same 0 byte rfl
    rw [writeBytes, ← here, write_read]
    refine ih fun k other found => ?_
    rw [Nat.add_assoc, Nat.add_comm 1]
    exact same (k + 1) other found

end Memory

/-! ### Registers as a block -/

namespace Processor

variable {p : Processor} {x r : Register}

/-- The bytes that are stored for registers are their values, in order. -/
theorem getElem?_stored_store (within : r ≤ x) :
    (p.stored (.store x))[r.val]? = some (p.register r) := by
  have inside : r.val < x.val + 1 := Nat.lt_succ_of_le within
  rw [stored, List.getElem?_take_of_lt inside, Vector.getElem?_toList]
  exact Vector.getElem?_eq_getElem r.isLt

/-- A register that is stored is found at its place in the block. -/
theorem read_store (within : r ≤ x) :
    (p.memory.writeBytes p.index.toNat (p.stored (.store x))).read (p.index.toNat + r.val) =
      p.register r :=
  Memory.read_writeBytes_add _ _ (Nat.le_trans (p.length_stored _) (by decide))
    (getElem?_stored_store within)

/-- Storing registers makes no difference to memory if they hold what is there. -/
theorem writeBytes_store_of_read
    (held : ∀ r ≤ x, p.register r = p.memory.read (p.index.toNat + r.val)) :
    p.memory.writeBytes p.index.toNat (p.stored (.store x)) = p.memory := by
  refine Memory.writeBytes_of_read fun k byte found => ?_
  have size : (p.stored (.store x)).length = x.val + 1 := p.length_stored_eq _
  have inside : k < x.val + 1 := by
    rw [← size]
    exact (List.getElem?_eq_some_iff.mp found).1
  let r : Register := ⟨k, Nat.lt_of_lt_of_le inside x.isLt⟩
  have within : r ≤ x := Nat.le_of_lt_succ inside
  have value := (getElem?_stored_store within).symm.trans found
  rw [← held r within]
  exact Option.some.inj value

end Processor

namespace Machine

variable {m : Machine}

/-- Storing registers moves on and writes the block. -/
theorem execute_store (ready : m.IsReady) (x : Register) :
    m.execute (Instruction.store x).encode =
      ⟨.ok .next,
        { m with processor := { m.processor with
            pc := m.processor.pc + 2
            memory :=
              m.processor.memory.writeBytes m.processor.index.toNat
                (m.processor.stored (.store x)) } },
        [m.traceOf (.store x)]⟩ :=
  execute_of_decode ready (Instruction.decode_encode _) rfl rfl

/-- Loading registers moves on and sets them. -/
theorem execute_load (ready : m.IsReady) (x : Register) :
    m.execute (Instruction.load x).encode =
      ⟨.ok .next,
        { m with processor := { m.processor with
            pc := m.processor.pc + 2
            registers := (m.processor.loadRegisters x).registers } },
        [m.traceOf (.load x)]⟩ := by
  refine execute_of_decode ready (Instruction.decode_encode _) rfl ?_
  simp only [Processor.execute, Processor.advance, Processor.loadRegisters]

/-- **Registers that were stored come back when they are loaded.** A machine that is ready stores
its registers up to `x`. Then take any machine with the same index register and the same bytes in
the block; it may be what became of the first one when it used its registers for something else. If
it is ready and loads the registers up to `y`, and these are no more, they hold what they held when
they were stored. The other registers are as they were just before, and so are the index register
and memory. The other way round, a machine that loads registers and then stores them, or the first
ones of them, has the memory that it had. -/
theorem registers_come_back (ready : m.IsReady) {x y : Register} (within : y ≤ x) :
    let stored := m.execute (Instruction.store x).encode
    stored.answer = .ok .next ∧ stored.machine.processor.index = m.processor.index ∧
    (∀ n : Machine, n.IsReady → n.processor.index = m.processor.index →
      (∀ k ≤ x.val, n.processor.memory.read (m.processor.index.toNat + k) =
        stored.machine.processor.memory.read (m.processor.index.toNat + k)) →
      let loaded := n.execute (Instruction.load y).encode
      loaded.answer = .ok .next ∧
      (∀ r ≤ y, loaded.machine.processor.register r = m.processor.register r) ∧
      (∀ r, y < r → loaded.machine.processor.register r = n.processor.register r) ∧
      loaded.machine.processor.index = m.processor.index ∧
      loaded.machine.processor.memory = n.processor.memory) ∧
    let loaded := m.execute (Instruction.load x).encode
    let restored := loaded.machine.execute (Instruction.store y).encode
    loaded.answer = .ok .next ∧ restored.answer = .ok .next ∧
      restored.machine.processor.index = m.processor.index ∧
      restored.machine.processor.memory = m.processor.memory := by
  intro stored
  have store : stored = _ := execute_store ready x
  refine ⟨?_, ?_, ?_, ?_⟩
  · rw [store]
  · rw [store]
  · intro n settled index block loaded
    have load : loaded = _ := execute_load settled y
    rw [load]
    refine ⟨rfl, fun r below => ?_, fun r above => ?_, index, rfl⟩
    · have kept := block r.val (Fin.le_trans below within)
      rw [store] at kept
      calc (n.processor.loadRegisters y).register r
        _ = n.processor.memory.read (m.processor.index.toNat + r.val) := by
          rw [Processor.register_loadRegisters, if_pos below, index]
        _ = _ := kept
        _ = m.processor.register r := Processor.read_store (Fin.le_trans below within)
    · exact Processor.register_loadRegisters_of_not_le (Fin.not_le.mpr above)
  · intro loaded restored
    have load : loaded = _ := execute_load ready x
    have settled : loaded.machine.IsReady := by
      rw [load]
      exact ⟨ready.unstopped, ready.unblocked⟩
    have restore : restored = _ := execute_store settled y
    have held : ∀ r ≤ y, loaded.machine.processor.register r =
        loaded.machine.processor.memory.read (loaded.machine.processor.index.toNat + r.val) := by
      intro r below
      rw [load]
      exact (m.processor.register_loadRegisters x r).trans (if_pos (Fin.le_trans below within))
    rw [restore, Processor.writeBytes_store_of_read held, load]
    exact ⟨rfl, rfl, rfl, rfl⟩

/-- Four registers are stored across the end of memory, from an index register that has more than
twelve bits. Then they are used for something else, and three of them are loaded again. -/
theorem registers_come_back_round :
    let m := (create .standard 0).machine.run
      [.edit (.setIndex 0x1FFE), .execute 0x600A, .execute 0x6114, .execute 0x621E,
        .execute 0x6328]
    let stored := m.execute 0xF355
    let n := stored.machine.run [.edit (.setRegister 0 99), .execute 0x7105, .execute 0x6309]
    let loaded := n.execute 0xF265
    m.IsReady ∧ n.IsReady ∧ stored.machine.processor.memory.read 0 = 30 ∧
      (∀ k ≤ 3, n.processor.memory.read (0x1FFE + k) =
        stored.machine.processor.memory.read (0x1FFE + k)) ∧
      loaded.answer = .ok .next ∧ loaded.machine.processor.register 0 = 10 ∧
      loaded.machine.processor.register 1 = 20 ∧ loaded.machine.processor.register 2 = 30 ∧
      loaded.machine.processor.register 3 = 9 ∧
      ((m.execute 0xF365).machine.execute 0xF255).machine.processor.memory =
        m.processor.memory := by
  intro m stored n loaded
  have ready : m.IsReady := by decide +kernel
  have settled : n.IsReady := by decide +kernel
  have index : n.processor.index = m.processor.index := by decide +kernel
  -- What the registers are used for in between stores nothing.
  have untouched : n.processor.memory = stored.machine.processor.memory := rfl
  have block : ∀ k ≤ 3, n.processor.memory.read (0x1FFE + k) =
      stored.machine.processor.memory.read (0x1FFE + k) := by
    intro k inside
    rw [untouched]
  obtain ⟨-, -, back, -, -, -, kept⟩ := registers_come_back ready (x := 3) (y := 2) (by decide)
  obtain ⟨answer, below, above, -, -⟩ := back n settled index block
  have before : m.processor.register 0 = 10 ∧ m.processor.register 1 = 20 ∧
      m.processor.register 2 = 30 ∧ n.processor.register 3 = 9 := by decide +kernel
  obtain ⟨zero, one, two, three⟩ := before
  exact ⟨ready, settled, by decide +kernel, block, answer, (below 0 (by decide)).trans zero,
    (below 1 (by decide)).trans one, (below 2 (by decide)).trans two,
    (above 3 (by decide)).trans three, kept⟩

end Machine

end Chip8
