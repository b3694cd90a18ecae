import Chip8.Proofs.Lockstep
import Mathlib.Data.Nat.ModEq

/-!
# The address space

An address has sixteen bits, but the memory answers to twelve of them. The main
statement is `Chip8.Machine.addresses_wrap`: machines that agree on everything except
that the program counter, the index register and the addresses of the open calls need
only point to the same bytes (`Chip8.Machine.AddressEquiv`) answer alike to everything
that drives them, and agree in the same way afterwards. So no wider address can be told
from the twelve bits of it that count (`Chip8.Machine.addressEquiv_narrow`).

The relation is carried through an instruction by its effects, one after the other
(`Chip8.Processor.AddressEquiv.advance` and the lemmas after it), which is why
`Chip8.Processor.AddressEquiv.execute` is a list of them, one entry for each
instruction. Two facts make the effects respect it: memory is only ever asked for the
remainder of an address, and sixteen bits wrap at a multiple of the size of the memory.
From instructions to operations it is carried by `Chip8.Machine.Lockstep`.
-/

namespace Chip8

/-! ### Addresses of the same byte -/

/-- Two addresses of the same byte in memory. -/
def SameByte (a b : UInt16) : Prop := a.toNat ≡ b.toNat [MOD Memory.size]

namespace SameByte

variable {a b c : UInt16}

theorem refl (a : UInt16) : SameByte a a := Nat.ModEq.refl _

/-- A sum points where the sum of the numbers points, although it wraps. -/
theorem toNat_add (a b : UInt16) : (a + b).toNat ≡ a.toNat + b.toNat [MOD Memory.size] := by
  -- A sum loses a multiple of the size of the memory, if anything.
  have wraps : Memory.size ∣ 2 ^ 16 := by decide
  rw [UInt16.toNat_add]
  exact (Nat.mod_modEq _ _).of_dvd wraps

theorem add (h : SameByte a b) (offset : UInt16) : SameByte (a + offset) (b + offset) :=
  ((toNat_add a offset).trans (Nat.ModEq.add_right _ h)).trans (toNat_add b offset).symm

end SameByte

namespace Memory

variable (m : Memory) {a b : Nat}

theorem read_congr (h : a ≡ b [MOD size]) : m.read a = m.read b := by
  rw [← m.read_mod a, ← m.read_mod b]
  exact congrArg m.read h

theorem write_congr (h : a ≡ b [MOD size]) (byte : UInt8) : m.write a byte = m.write b byte := by
  have place : a % 4096 = b % 4096 := h
  simp only [write, place]

theorem readBytes_congr (h : a ≡ b [MOD size]) (count : Nat) :
    m.readBytes a count = m.readBytes b count :=
  List.map_congr_left fun k _ => m.read_congr (h.add_right k)

theorem readWord_congr (h : a ≡ b [MOD size]) : m.readWord a = m.readWord b := by
  rw [readWord, readWord, m.read_congr h, m.read_congr (h.add_right 1)]

theorem writeBytes_congr (h : a ≡ b [MOD size]) (bytes : List UInt8) :
    m.writeBytes a bytes = m.writeBytes b bytes := by
  induction bytes generalizing m a b with
  | nil => rfl
  | cons byte bytes ih =>
    rw [writeBytes, writeBytes, m.write_congr h]
    exact ih _ (h.add_right 1)

end Memory

/-! ### Call stacks -/

namespace CallStack

/-- Two stacks with as many open calls, whose addresses are of the same bytes. What is
left in the slots above them does not count. -/
def AddressEquiv (s t : CallStack) : Prop := List.Forall₂ SameByte s.toList t.toList

namespace AddressEquiv

variable {s t : CallStack}

theorem depth (h : s.AddressEquiv t) : s.depth = t.depth := by
  rw [← s.length_toList, ← t.length_toList]
  exact h.length_eq

/-- Calls can be opened on both stacks or on neither. -/
theorem push? (h : s.AddressEquiv t) {a b : UInt16} (site : SameByte a b) :
    Option.Rel AddressEquiv (s.push? a) (t.push? b) := by
  cases hs : s.push? a with
  | none =>
    have full : t.push? b = none := by
      rw [push?_eq_none_iff, ← h.depth]
      exact push?_eq_none_iff.mp hs
    rw [full]
    exact .none
  | some s' =>
    cases ht : t.push? b with
    | none =>
      have full : s.push? a = none := by
        rw [push?_eq_none_iff, h.depth]
        exact push?_eq_none_iff.mp ht
      rw [hs] at full
      contradiction
    | some t' =>
      refine .some ?_
      rw [AddressEquiv, toList_of_push? hs, toList_of_push? ht]
      exact List.rel_append h (.cons site .nil)

/-- Both stacks have a call to return from, or neither has. -/
theorem pop? (h : s.AddressEquiv t) :
    Option.Rel (fun x y => SameByte x.1 y.1 ∧ x.2.AddressEquiv y.2) s.pop? t.pop? := by
  cases hs : s.pop? with
  | none =>
    have none_open : t.pop? = none := by
      rw [pop?_eq_none_iff, ← h.depth]
      exact pop?_eq_none_iff.mp hs
    rw [none_open]
    exact .none
  | some x =>
    cases ht : t.pop? with
    | none =>
      rw [pop?_eq_none_iff, ← h.depth, ← pop?_eq_none_iff, hs] at ht
      contradiction
    | some y =>
      -- the innermost calls are at the ends of the lists
      rw [AddressEquiv, toList_of_pop? hs, toList_of_pop? ht, ← List.forall₂_reverse_iff,
        List.reverse_append, List.reverse_append] at h
      cases h with
      | cons site others => exact .some ⟨site, List.forall₂_reverse_iff.mp others⟩

end AddressEquiv

end CallStack

/-! ### Processors -/

namespace Processor

/-- Two processors that agree on everything except that their addresses need only be of
the same bytes. -/
structure AddressEquiv (p q : Processor) : Prop where
  /-- The program counters point to the same byte. -/
  pc : SameByte p.pc q.pc
  /-- The index registers point to the same byte. -/
  index : SameByte p.index q.index
  /-- The open calls are at the same bytes. -/
  stack : p.stack.AddressEquiv q.stack
  /-- The rest is the same. -/
  others : { p with pc := q.pc, index := q.index, stack := q.stack } = q

namespace AddressEquiv

variable {p q : Processor} (h : p.AddressEquiv q)

include h

theorem registers : p.registers = q.registers := by rw [← h.others]

theorem register (x : Register) : p.register x = q.register x :=
  congrArg (·[x]) h.registers

theorem awaiting : p.awaiting = q.awaiting := by rw [← h.others]

theorem memory : p.memory = q.memory := by rw [← h.others]

theorem fetch : p.fetch = q.fetch := by
  rw [Processor.fetch, Processor.fetch, ← h.memory]
  exact p.memory.readWord_congr h.pc

theorem holds (condition : Condition) : condition.holds p = condition.holds q := by
  have keypad : p.keypad = q.keypad := by rw [← h.others]
  cases condition <;> simp only [Condition.holds, h.register, keypad]

theorem setPc {a b : UInt16} (target : SameByte a b) :
    AddressEquiv { p with pc := a } { q with pc := b } :=
  ⟨target, h.index, h.stack, congrArg (fun r => { r with pc := b }) h.others⟩

theorem setIndex {a b : UInt16} (target : SameByte a b) :
    AddressEquiv { p with index := a } { q with index := b } :=
  ⟨h.pc, target, h.stack, congrArg (fun r => { r with index := b }) h.others⟩

theorem setStack {s t : CallStack} (calls : s.AddressEquiv t) :
    AddressEquiv { p with stack := s } { q with stack := t } :=
  ⟨h.pc, h.index, calls, congrArg (fun r => { r with stack := t }) h.others⟩

theorem advance (count : UInt16) : (p.advance count).AddressEquiv (q.advance count) :=
  h.setPc (h.pc.add count)

theorem setRegisters {v w : Vector UInt8 16} (same : v = w) :
    AddressEquiv { p with registers := v } { q with registers := w } :=
  ⟨h.pc, h.index, h.stack, same ▸ congrArg (fun r => { r with registers := v }) h.others⟩

theorem setMemory {m n : Memory} (same : m = n) :
    AddressEquiv { p with memory := m } { q with memory := n } :=
  ⟨h.pc, h.index, h.stack, same ▸ congrArg (fun r => { r with memory := m }) h.others⟩

theorem setRegister (x : Register) (value : UInt8) :
    (p.setRegister x value).AddressEquiv (q.setRegister x value) :=
  h.setRegisters (by rw [h.registers])

theorem setResult (x : Register) (result : UInt8 × Option Bool) :
    (p.setResult x result).AddressEquiv (q.setResult x result) := by
  obtain ⟨value, flag⟩ := result
  cases flag with
  | none => exact h.setRegister x value
  | some flag => exact (h.setRegister flagRegister _).setRegister x value

theorem clearScreen : p.clearScreen.AddressEquiv q.clearScreen :=
  ⟨h.pc, h.index, h.stack, congrArg Processor.clearScreen h.others⟩

theorem drawSprite (x y : Register) (rows : Nat) :
    (p.drawSprite x y rows).AddressEquiv (q.drawSprite x y rows) := by
  have sprite : p.memory.readBytes p.index.toNat rows = p.memory.readBytes q.index.toNat rows :=
    p.memory.readBytes_congr h.index rows
  refine ⟨h.pc, h.index, h.stack, ?_⟩
  simp only [Processor.drawSprite, sprite]
  exact congrArg (Processor.drawSprite · x y rows) h.others

theorem storeBytes (bytes : List UInt8) :
    (p.storeBytes bytes).AddressEquiv (q.storeBytes bytes) :=
  h.setMemory (by rw [h.memory, q.memory.writeBytes_congr h.index])

theorem loadRegisters (x : Register) :
    (p.loadRegisters x).AddressEquiv (q.loadRegisters x) := by
  have byte (r : Register) :
      p.memory.read (p.index.toNat + r.val) = q.memory.read (q.index.toNat + r.val) := by
    rw [h.memory]
    exact q.memory.read_congr (Nat.ModEq.add_right _ h.index)
  exact h.setRegisters (by simp only [byte, h.register])

theorem countDown : p.countDown.AddressEquiv q.countDown :=
  ⟨h.pc, h.index, h.stack, congrArg Processor.countDown h.others⟩

theorem releaseKey (key : Key) : (p.releaseKey key).AddressEquiv (q.releaseKey key) :=
  ⟨h.pc, h.index, h.stack, congrArg (Processor.releaseKey · key) h.others⟩

theorem releaseKeys : p.releaseKeys.AddressEquiv q.releaseKeys :=
  ⟨h.pc, h.index, h.stack, congrArg Processor.releaseKeys h.others⟩

theorem pressKey (key : Key) : (p.pressKey key).AddressEquiv (q.pressKey key) := by
  cases hq : q.awaiting with
  | none =>
    rw [pressKey_of_not_awaiting (h.awaiting.trans hq), pressKey_of_not_awaiting hq]
    exact ⟨h.pc, h.index, h.stack,
      congrArg (fun r => { r with keypad := r.keypad.set key.val true }) h.others⟩
  | some x =>
    have resumed : AddressEquiv { p with keypad := p.keypad.set key.val true, awaiting := none }
        { q with keypad := q.keypad.set key.val true, awaiting := none } :=
      ⟨h.pc, h.index, h.stack,
        congrArg (fun r => { r with keypad := r.keypad.set key.val true, awaiting := none })
          h.others⟩
    rw [pressKey_of_awaiting (h.awaiting.trans hq), pressKey_of_awaiting hq]
    exact (resumed.setRegister x _).advance 2

/-- **An instruction does not look past the twelve bits of an address that count.** -/
theorem execute (shift : ShiftRule) (noise : UInt8) (i : Instruction) :
    (p.execute shift noise i).1 = (q.execute shift noise i).1 ∧
      (p.execute shift noise i).2.AddressEquiv (q.execute shift noise i).2 := by
  cases i with
  | clearScreen => exact ⟨rfl, h.clearScreen.advance 2⟩
  | ret =>
    have popped := h.stack.pop?
    simp only [Processor.execute]
    generalize p.stack.pop? = left, q.stack.pop? = right at popped
    cases popped with
    | none => exact ⟨rfl, h⟩
    | some top => exact ⟨rfl, (h.setStack top.2).setPc (top.1.add 2)⟩
  -- An address that stands in the instruction is the same for both.
  | jump target => exact ⟨rfl, h.setPc (.refl _)⟩
  | call target =>
    have pushed := h.stack.push? h.pc
    simp only [Processor.execute]
    generalize p.stack.push? p.pc = left, q.stack.push? q.pc = right at pushed
    cases pushed with
    | none => exact ⟨rfl, h⟩
    | some calls => exact ⟨rfl, (h.setStack calls).setPc (.refl _)⟩
  | skip condition =>
    refine ⟨rfl, ?_⟩
    simp only [Processor.execute, h.holds]
    exact h.advance _
  | loadByte x byte => exact ⟨rfl, (h.setRegister x byte).advance 2⟩
  | addByte x byte =>
    refine ⟨rfl, ?_⟩
    simp only [Processor.execute, h.register]
    exact (h.setRegister x _).advance 2
  | combine operation x y =>
    refine ⟨rfl, ?_⟩
    simp only [Processor.execute, h.register]
    exact (h.setResult x _).advance 2
  | setIndex target => exact ⟨rfl, (h.setIndex (.refl _)).advance 2⟩
  | jumpOffset target =>
    refine ⟨rfl, ?_⟩
    simp only [Processor.execute, h.register]
    exact h.setPc (.refl _)
  | random x mask => exact ⟨rfl, (h.setRegister x (mask &&& noise)).advance 2⟩
  | draw x y rows => exact ⟨rfl, (h.drawSprite x y rows.val).advance 2⟩
  | readDelay x =>
    have delay : p.delay = q.delay := by rw [← h.others]
    refine ⟨rfl, ?_⟩
    simp only [Processor.execute, delay]
    exact (h.setRegister x q.delay).advance 2
  | awaitKey x =>
    exact ⟨rfl, h.pc, h.index, h.stack,
      congrArg (fun r => { r with awaiting := some x }) h.others⟩
  | setDelay x =>
    exact ⟨rfl, h.pc.add 2, h.index, h.stack,
      congrArg (fun r => { r with delay := r.register x }.advance 2) h.others⟩
  | setSound x =>
    exact ⟨rfl, h.pc.add 2, h.index, h.stack,
      congrArg (fun r => { r with sound := r.register x }.advance 2) h.others⟩
  | addIndex x =>
    refine ⟨rfl, ?_⟩
    simp only [Processor.execute, h.register]
    exact (h.setIndex (h.index.add _)).advance 2
  | pointGlyph x =>
    refine ⟨rfl, ?_⟩
    simp only [Processor.execute, h.register]
    exact (h.setIndex (.refl _)).advance 2
  | storeDigits x =>
    refine ⟨rfl, ?_⟩
    simp only [Processor.execute, h.register]
    exact (h.storeBytes _).advance 2
  | store x =>
    refine ⟨rfl, ?_⟩
    simp only [Processor.execute, h.registers]
    exact (h.storeBytes _).advance 2
  | load x => exact ⟨rfl, (h.loadRegisters x).advance 2⟩

end AddressEquiv

end Processor

/-! ### Machines -/

/-- Two faults of the same kind and word, found at the same byte. -/
structure Fault.AddressEquiv (f g : Fault) : Prop where
  /-- The reasons are the same. -/
  kind : f.kind = g.kind
  /-- The places point to the same byte. -/
  pc : SameByte f.pc g.pc
  /-- The words are the same. -/
  word : f.word = g.word

theorem Fault.AddressEquiv.of_sameByte {a b : UInt16} (place : SameByte a b) (kind : FaultKind)
    (word : UInt16) : AddressEquiv ⟨kind, a, word⟩ ⟨kind, b, word⟩ :=
  ⟨rfl, place, rfl⟩

/-- Two machines that agree on everything except that the addresses of their processors
and of their faults need only be of the same bytes. -/
structure Machine.AddressEquiv (m n : Machine) : Prop where
  /-- The processors agree up to addresses. -/
  processor : m.processor.AddressEquiv n.processor
  /-- The machines were stopped by faults that agree up to addresses, or by none. -/
  fault : Option.Rel Fault.AddressEquiv m.fault n.fault
  /-- The rest is the same. -/
  others : { m with processor := n.processor, fault := n.fault } = n

/-- Two responses with the same answer, or with faults that agree up to addresses, after
which the machines agree up to addresses. The diagnostics tell addresses, and may differ. -/
abbrev Response.AddressEquiv (r s : Response Answer) : Prop :=
  Response.Related (SameAnswer Fault.AddressEquiv) Machine.AddressEquiv (fun _ _ => True) r s

namespace Machine

namespace AddressEquiv

variable {m n : Machine} (h : m.AddressEquiv n)

include h

theorem settings : m.settings = n.settings := by rw [← h.others]

theorem random : m.random = n.random := by rw [← h.others]

theorem clock : m.clock = n.clock := by rw [← h.others]

theorem timer : m.timer = n.timer := by rw [← h.others]

theorem setProcessor {p q : Processor} (same : p.AddressEquiv q) :
    AddressEquiv { m with processor := p } { n with processor := q } :=
  ⟨same, h.fault, congrArg (fun k => { k with processor := q }) h.others⟩

theorem setClock (gate : Gate) :
    AddressEquiv { m with clock := gate } { n with clock := gate } :=
  ⟨h.processor, h.fault, congrArg (fun k => { k with clock := gate }) h.others⟩

theorem setTimer (gate : Gate) :
    AddressEquiv { m with timer := gate } { n with timer := gate } :=
  ⟨h.processor, h.fault, congrArg (fun k => { k with timer := gate }) h.others⟩

theorem setRandom (stream : RandomStream) :
    AddressEquiv { m with random := stream } { n with random := stream } :=
  ⟨h.processor, h.fault, congrArg (fun k => { k with random := stream }) h.others⟩

theorem perform (i : Instruction) :
    (m.perform i).1 = (n.perform i).1 ∧ (m.perform i).2.AddressEquiv (n.perform i).2 := by
  have shift : m.settings.shift = n.settings.shift := by rw [h.settings]
  simp only [Machine.perform, shift, h.random]
  -- both machines have the same random byte next in line
  generalize (if i.drawsRandom then n.random.draw else (0, n.random)) = drawn
  obtain ⟨noise, random⟩ := drawn
  obtain ⟨result, processor⟩ := h.processor.execute n.settings.shift noise i
  exact ⟨result, (h.setRandom random).setProcessor processor⟩

theorem halt {f g : Fault} (same : f.AddressEquiv g) (emitted emitted' : List Diagnostic) :
    Response.Related (SameOutcome Fault.AddressEquiv) AddressEquiv (fun _ _ => True)
      (m.halt f emitted) (n.halt g emitted') :=
  ⟨.failed same,
    ⟨h.processor, .some same, congrArg (fun k => { k with fault := some g }) h.others⟩, trivial⟩

theorem dispatch (word : UInt16) :
    Response.Related (SameOutcome Fault.AddressEquiv) AddressEquiv (fun _ _ => True)
      (m.dispatch word) (n.dispatch word) := by
  refine dispatch_related h trivial (fun _ => trivial) ?_ fun i _ => h.perform i
  intro m' n' lines lines' kind next _
  exact next.halt (.of_sameByte h.processor.pc kind word) lines lines'

omit h in
/-- Machines that agree up to addresses are driven in lockstep. -/
theorem lockstep :
    Lockstep AddressEquiv Fault.AddressEquiv (fun _ _ => True) fun _ _ => True where
  fault h := h.fault
  awaiting h := h.processor.awaiting
  fetch h := h.processor.fetch
  clock h := h.clock
  timer h := h.timer
  setClock gate h := h.setClock gate
  setTimer gate h := h.setTimer gate
  countDown h := h.setProcessor h.processor.countDown
  silent := trivial
  dispatch word h _ := h.dispatch word

/-- **Machines that agree up to addresses answer alike to what drives them, and agree up
to addresses afterwards.** -/
theorem apply {operation : Operation} (drives : operation.Drives) :
    (m.apply operation).AddressEquiv (n.apply operation) := by
  cases drives with
  | step => exact lockstep.apply_step h fun _ _ => trivial
  | execute word => exact lockstep.apply_execute h word fun _ _ => trivial
  | tick now => exact lockstep.apply_tick h now fun _ _ => trivial
  | pressKey key => exact ⟨.same .done, h.setProcessor (h.processor.pressKey key), trivial⟩
  | releaseKey key => exact ⟨.same .done, h.setProcessor (h.processor.releaseKey key), trivial⟩
  | releaseKeys => exact ⟨.same .done, h.setProcessor h.processor.releaseKeys, trivial⟩

end AddressEquiv

end Machine

/-! ### Narrow addresses -/

/-- The twelve bits of an address that count. -/
def narrow (a : UInt16) : UInt16 := UInt16.ofNat (a.toNat % Memory.size)

/-- The stack with the twelve bits that count of each of its addresses. -/
def CallStack.narrow (s : CallStack) : CallStack := { s with slots := s.slots.map Chip8.narrow }

/-- The processor with the twelve bits that count of each of its addresses. -/
def Processor.narrow (p : Processor) : Processor :=
  { p with pc := Chip8.narrow p.pc, index := Chip8.narrow p.index, stack := p.stack.narrow }

/-- The fault with the twelve bits that count of its place. -/
def Fault.narrow (f : Fault) : Fault := { f with pc := Chip8.narrow f.pc }

/-- The machine with the twelve bits that count of each of its addresses. -/
def Machine.narrow (m : Machine) : Machine :=
  { m with processor := m.processor.narrow, fault := m.fault.map Fault.narrow }

theorem toNat_narrow (a : UInt16) : (narrow a).toNat = a.toNat % Memory.size := by
  have small : a.toNat % Memory.size < Memory.size := Nat.mod_lt _ (by decide)
  rw [narrow, UInt16.toNat_ofNat_of_lt' (small.trans (by decide))]

theorem sameByte_narrow (a : UInt16) : SameByte a (narrow a) := by
  rw [SameByte, toNat_narrow]
  exact (Nat.mod_modEq _ _).symm

theorem CallStack.addressEquiv_narrow (s : CallStack) : s.AddressEquiv s.narrow := by
  have calls : s.narrow.toList = s.toList.map Chip8.narrow := by
    simp only [CallStack.narrow, toList, Vector.toList_map, List.map_take]
  rw [AddressEquiv, calls, List.forall₂_map_right_iff, List.forall₂_same]
  exact fun site _ => sameByte_narrow site

namespace Machine

variable {m n : Machine}

theorem addressEquiv_narrow (m : Machine) : m.AddressEquiv m.narrow := by
  refine ⟨⟨sameByte_narrow _, sameByte_narrow _, CallStack.addressEquiv_narrow _, rfl⟩, ?_, rfl⟩
  simp only [Machine.narrow]
  cases m.fault with
  | none => exact .none
  | some f => exact .some ⟨rfl, sameByte_narrow f.pc, rfl⟩

/-- **Addresses count up to the size of the memory.** Machines that agree up to addresses
answer alike to every operation that drives them and agree up to addresses afterwards;
so they do in every run of such operations. In particular a machine agrees with the one
that has but the twelve bits of its addresses that count, and a sum that wraps points
where the twelve bits of the full sum point. -/
theorem addresses_wrap (h : m.AddressEquiv n) {operations : List Operation}
    (drives : ∀ operation ∈ operations, operation.Drives) :
    (∀ operation : Operation, operation.Drives →
      (m.apply operation).AddressEquiv (n.apply operation)) ∧
    List.Forall₂ Response.AddressEquiv (m.responses operations) (n.responses operations) ∧
    (m.run operations).AddressEquiv (n.run operations) ∧
    m.AddressEquiv m.narrow ∧
    ∀ a b : UInt16, SameByte (a + b) (UInt16.ofNat ((a.toNat + b.toNat) % Memory.size)) := by
  obtain ⟨responses, last⟩ := forall₂_responses (S := AddressEquiv)
    (R := Response.AddressEquiv) (fun _ _ _ drives h => h.apply drives)
    (fun _ _ same => same.machine) operations drives h
  refine ⟨fun _ drives => h.apply drives, responses, last, addressEquiv_narrow m, fun a b => ?_⟩
  have small : (a.toNat + b.toNat) % Memory.size < Memory.size := Nat.mod_lt _ (by decide)
  rw [SameByte, UInt16.toNat_ofNat_of_lt' (small.trans (by decide))]
  exact (SameByte.toNat_add a b).trans (Nat.mod_modEq _ _).symm

/-- A call from beyond the twelve bits goes where the call from within them goes, and
returns to the byte after it. -/
theorem addresses_wrap_call :
    let n := (create .standard 0).machine
    let m : Machine := { n with processor := { n.processor with pc := 0x1200, index := 0xF005 } }
    let k : Machine := { n with processor := { n.processor with index := 0x0005 } }
    m.AddressEquiv k ∧
      (m.run [.execute 0x2300, .execute 0x00EE]).AddressEquiv
        (k.run [.execute 0x2300, .execute 0x00EE]) ∧
      (m.run [.execute 0x2300, .execute 0x00EE]).processor.pc = 0x1202 ∧
      (k.run [.execute 0x2300, .execute 0x00EE]).processor.pc = 0x0202 := by
  intro n m k
  have pc : SameByte 0x1200 0x0200 := by
    unfold SameByte
    decide
  have index : SameByte 0xF005 0x0005 := by
    unfold SameByte
    decide
  have h : m.AddressEquiv k := ⟨⟨pc, index, .nil, rfl⟩, .none, rfl⟩
  have drives : ∀ operation ∈ [.execute 0x2300, .execute 0x00EE], Operation.Drives operation :=
    List.forall_mem_cons.mpr ⟨.execute 0x2300, List.forall_mem_singleton.mpr (.execute 0x00EE)⟩
  obtain ⟨-, -, last, -, -⟩ := addresses_wrap h drives
  exact ⟨h, last, rfl, rfl⟩

end Machine

end Chip8
