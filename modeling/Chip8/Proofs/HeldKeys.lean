import Chip8.Proofs.Effects
import Chip8.Proofs.Ticking
import Mathlib.Data.List.Induction

/-!
# Keys that are down

A key is down or up because something moved it there, and nothing else has a say. The main
statement is `Chip8.Machine.keys_as_last_moved`: after anything that was done to a new machine, a
key is down exactly if the last operation that moved it moved it down. All else that there is to
ask of the keypad follows: what programs see of it when they skip on a key, whether any key is
down, and how the keys that are down are written.

The keypad of the machine is kept as a word of sixteen bits. This has no bearing on what is read
from it, which is part of the statement.
-/

namespace Chip8

/-! ### The keypad -/

namespace Keypad

/-- A number that names no key reads as a key that is up. -/
theorem isDown_of_large (p : Keypad) {code : Nat} (large : 16 ≤ code) : p.isDown code = false := by
  rw [isDown, Vector.getElem?_eq_none large, Option.getD_none]

/-- Moving such a key changes nothing. -/
theorem set_of_large (p : Keypad) {code : Nat} (large : 16 ≤ code) (down : Bool) :
    p.set code down = p := by
  rw [set, Vector.setIfInBounds_eq_of_size_le large]

/-- Keys write their names after a line, one by one. -/
theorem foldl_text (keys : List Key) (line : String) :
    keys.foldl (fun line k => line ++ " " ++ k.text) line =
      line ++ String.join (keys.map fun k => " k" ++ lowerHex k.val) := by
  induction keys generalizing line with
  | nil => exact String.append_empty.symm
  | cons k keys ih =>
    have name : " " ++ k.text = " k" ++ lowerHex k.val := (String.append_assoc ..).symm
    calc (k :: keys).foldl (fun line k => line ++ " " ++ k.text) line
      _ = line ++ " " ++ k.text ++ String.join (keys.map fun k => " k" ++ lowerHex k.val) := ih _
      _ = line ++ ((" " ++ k.text) ++ String.join (keys.map fun k => " k" ++ lowerHex k.val)) := by
        simp only [String.append_assoc]
      _ = line ++ String.join ((k :: keys).map fun k => " k" ++ lowerHex k.val) := by
        rw [name, List.map_cons, String.join_cons]

/-- The keys that are down are written in their order, after a heading; if there are none, not
even that is written. -/
theorem text_of_anyDown {p : Keypad} (held : p.anyDown = true) :
    p.text = "keys:" ++ String.join (p.downKeys.map fun k => " k" ++ lowerHex k.val) := by
  rw [text, if_pos held, foldl_text]

theorem text_eq_empty_iff {p : Keypad} : p.text = "" ↔ p.anyDown = false := by
  constructor
  · intro empty
    rcases Bool.eq_false_or_eq_true p.anyDown with held | released
    · rw [text_of_anyDown held, String.append_eq_empty_iff] at empty
      exact absurd empty.1 (by decide)
    · exact released
  · intro released
    rw [text, released, if_neg Bool.false_ne_true]

end Keypad

/-! ### Operations that move keys -/

namespace Operation

/-- Where an operation moves a key: down, up, or nowhere. Whatever starts a machine over moves
all keys up. -/
def keyMove? (k : Key) : Operation → Option Bool
  | .pressKey key => if key = k then some true else none
  | .releaseKey key => if key = k then some false else none
  | .releaseKeys => some false
  | .edit (.setKey code down) => if code.toNat = k.val then some down else none
  | .edit .replace => some false
  | operation => if operation.Restarts then some false else none

/-- Whether the last operation that moves a key moves it down. -/
def leaveDown (operations : List Operation) (k : Key) : Bool :=
  (operations.filterMap (keyMove? k)).getLast? == some true

end Operation

namespace Machine

variable {m n : Machine} {operation : Operation}

/-- Executing something moves no key. -/
theorem keypad_apply_of_executes (executes : operation.Executes) :
    (m.apply operation).machine.processor.keypad = m.processor.keypad :=
  processor_apply_of_executes (I := fun p => p.keypad = m.processor.keypad) (fun _ h => h)
    executes (fun _ executed => Processor.keypad_execute executed) rfl

/-- A key that is moved under one condition is where it was moved, or else where it was. -/
theorem isDown_set_of_iff {p : Keypad} {code : Nat} {k : Key} (down : Bool) {P : Prop}
    [Decidable P] (h : P ↔ code = k.val) :
    (p.set code down).isDown k.val = (if P then some down else none).getD (p.isDown k.val) := by
  have small (here : code = k.val) : code < 16 := by
    rw [here]
    exact k.isLt
  rw [Keypad.isDown_set]
  by_cases here : code = k.val
  · rw [if_pos ⟨here, small here⟩, if_pos (h.mpr here), Option.getD_some]
  · rw [if_neg (fun both => here both.1), if_neg (fun moved => here (h.mp moved)),
      Option.getD_none]

/-- **After an operation, a key is where the operation moved it**, and where it was before if the
operation did not move it. -/
theorem isDown_apply (m : Machine) (operation : Operation) (k : Key) :
    (m.apply operation).machine.processor.keypad.isDown k.val =
      (operation.keyMove? k).getD (m.processor.keypad.isDown k.val) := by
  have executed (executes : operation.Executes) :
      (m.apply operation).machine.processor.keypad.isDown k.val =
        m.processor.keypad.isDown k.val := by
    rw [keypad_apply_of_executes executes]
  have loaded {outcome : Except LoadError (List UInt8)}
      (loads : operation.loading? = some outcome) :
      (m.apply operation).machine.processor.keypad.isDown k.val =
        (if operation.Restarts then some false else none).getD
          (m.processor.keypad.isDown k.val) := by
    by_cases restarts : operation.Restarts
    · obtain ⟨program, succeeds⟩ : ∃ program, operation.loading? = some (.ok program) := by
        cases restarts with
        | reset => contradiction
        | loads succeeds => exact ⟨_, succeeds⟩
      obtain ⟨-, anew⟩ := (m.apply_of_loading succeeds).of_ok
      rw [anew, if_pos restarts]
      exact Keypad.isDown_released k.val
    · rw [machine_apply_of_loading loads restarts, if_neg restarts]
      rfl
  cases operation with
  | reset => exact Keypad.isDown_released k.val
  | load _ | loadFrom _ | loadFile _ _ => exact loaded rfl
  | step => exact executed .step
  | execute word => exact executed (.execute word)
  | tick now => exact executed (.tick now)
  | pressKey key =>
    have pressed : (m.apply (.pressKey key)).machine.processor.keypad =
        m.processor.keypad.set key.val true := m.processor.keypad_pressKey key
    rw [pressed]
    exact isDown_set_of_iff true Fin.ext_iff
  | releaseKey key => exact isDown_set_of_iff false Fin.ext_iff
  | releaseKeys => exact Keypad.isDown_released k.val
  | markPainted | takeRepaint => rfl
  | edit change =>
    cases change with
    | replace => exact Keypad.isDown_released k.val
    | setKey code down => exact isDown_set_of_iff down Iff.rfl
    | _ => rfl

/-- **After a run, a key is where it was moved last.** -/
theorem isDown_run (m : Machine) (operations : List Operation) (k : Key) :
    (m.run operations).processor.keypad.isDown k.val =
      (operations.filterMap (Operation.keyMove? k)).getLast?.getD
        (m.processor.keypad.isDown k.val) := by
  induction operations using List.reverseRecOn with
  | nil => rfl
  | append_singleton operations operation ih =>
    rw [run_append, run_cons, run_nil, isDown_apply, ih, List.filterMap_append,
      List.getLast?_append]
    cases moved : operation.keyMove? k with
    | none => rw [List.filterMap_cons_none moved]; rfl
    | some down => rw [List.filterMap_cons_some moved]; rfl

/-- A new machine has all keys up, so that its keys are down only if something moved them there. -/
theorem isDown_run_create (settings : Settings) (entropy : UInt64) (operations : List Operation)
    (k : Key) :
    ((create settings entropy).machine.run operations).processor.keypad.isDown k.val =
      Operation.leaveDown operations k := by
  have start : (create settings entropy).machine.processor.keypad.isDown k.val = false :=
    Keypad.isDown_released k.val
  rw [isDown_run, start, Operation.leaveDown]
  rcases (operations.filterMap (Operation.keyMove? k)).getLast? with _ | _ | _ <;> rfl

/-- To move a key that there is not leaves the machine as it was. -/
theorem machine_setKey_of_large {code : UInt8} (large : 16 ≤ code.toNat) (m : Machine)
    (down : Bool) : (m.apply (.edit (.setKey code down))).machine = m := by
  simp only [apply, done, Processor.edit, Keypad.set_of_large _ large]

/-! ### Skipping on a condition -/

/-- A skip passes over the next instruction if its condition holds. -/
theorem pc_apply_of_skip {condition : Condition}
    (executed : m.executed? operation = some (.skip condition)) :
    (m.apply operation).machine.processor.pc =
      m.processor.pc + if condition.holds m.processor then 4 else 2 := by
  obtain ⟨word, dispatched, decoded⟩ := Option.bind_eq_some_iff.mp executed
  obtain ⟨-, clock, -, processor⟩ := apply_of_dispatched dispatched
  have result : (({ m with clock } : Machine).dispatch word).machine.processor =
      m.processor.advance (if condition.holds m.processor then 4 else 2) :=
    congrArg (·.machine.processor) (dispatch_of_decode decoded rfl rfl)
  rcases processor with same | counted
  · rw [same, result]
    rfl
  · rw [counted, result]
    rfl

/-- Two families of words skip on a key. -/
theorem decode_skipKey (x : Register) :
    Instruction.decode (Word.ofRegisterByte 0xE x 0x9E) = some (.skip (.keyDown x)) ∧
      Instruction.decode (Word.ofRegisterByte 0xE x 0xA1) = some (.skip (.keyUp x)) :=
  ⟨Instruction.decode_encode (.skip (.keyDown x)), Instruction.decode_encode (.skip (.keyUp x))⟩

/-! ### What there is to ask of a keypad -/

/-- **A key is down if it was moved down last.** Do anything to a new machine. A key is down
exactly if the last operation that moved it moved it down, and the word in which the machine
keeps its keys reads the same. Numbers that name no key read as keys that are up, and moving them
changes nothing. A machine that can execute something can execute the words `Ex9E` and `ExA1`,
and however they are executed, they go on by four bytes or by two, depending on whether the
register names a key that is down. Any key is down if one of them is, which can be told from the
word as well; and the keys that are down, and no others, are written in ascending order. -/
theorem keys_as_last_moved (settings : Settings) (entropy : UInt64)
    (operations : List Operation) :
    let m := (create settings entropy).machine.run operations
    let down := Operation.leaveDown operations
    let held (x : Register) : Prop :=
      ∃ k : Key, k.val = (m.processor.register x).toNat ∧ down k = true
    (create settings entropy).machine.raw.run operations = some m.raw ∧
    (∀ k : Key, m.processor.keypad.isDown k.val = down k ∧
      m.raw.processor.isDown k.val = some (down k)) ∧
    (∀ code : UInt8, 16 ≤ code.toNat →
      m.processor.keypad.isDown code.toNat = false ∧
      m.raw.processor.isDown code.toNat = some false ∧
      ∀ state, (m.apply (.edit (.setKey code state))).machine = m) ∧
    (m.IsReady → ∀ x : Register,
      m.executed? (.execute (Word.ofRegisterByte 0xE x 0x9E)) = some (.skip (.keyDown x)) ∧
      m.executed? (.execute (Word.ofRegisterByte 0xE x 0xA1)) = some (.skip (.keyUp x))) ∧
    (∀ operation x, m.executed? operation = some (.skip (.keyDown x)) →
      (m.apply operation).machine.processor.pc = m.processor.pc + if held x then 4 else 2) ∧
    (∀ operation x, m.executed? operation = some (.skip (.keyUp x)) →
      (m.apply operation).machine.processor.pc = m.processor.pc + if held x then 2 else 4) ∧
    (m.processor.keypad.anyDown = true ↔ ∃ k, down k = true) ∧
    (m.raw.processor.anyDown = true ↔ ∃ k, down k = true) ∧
    (m.processor.keypad.text = "" ↔ ∀ k, down k = false) ∧
    ((∃ k, down k = true) → m.processor.keypad.text = "keys:" ++
      String.join (((List.finRange 16).filter down).map fun k => " k" ++ lowerHex k.val)) := by
  intro m down held
  have isDown (k : Key) : m.processor.keypad.isDown k.val = down k :=
    isDown_run_create settings entropy operations k
  have named (x : Register) :
      m.processor.keypad.isDown (m.processor.register x).toNat = decide (held x) := by
    rw [Bool.eq_iff_iff, decide_eq_true_iff, Keypad.isDown_eq_true_iff]
    simp only [isDown, held]
  have anyDown : m.processor.keypad.anyDown = true ↔ ∃ k, down k = true := by
    simp only [Keypad.anyDown_iff, isDown]
  have rawAnyDown : m.raw.processor.anyDown = true ↔ ∃ k, down k = true :=
    (Bool.eq_iff_iff.mp m.processor.raw_anyDown).trans anyDown
  refine ⟨raw_run _ operations, ?_, ?_, ?_, ?_, ?_, anyDown, rawAnyDown, ?_, ?_⟩
  · intro k
    exact ⟨isDown k, (m.processor.raw_isDown k.val).trans (congrArg some (isDown k))⟩
  · intro code large
    have up := m.processor.keypad.isDown_of_large large
    exact ⟨up, (m.processor.raw_isDown code.toNat).trans (congrArg some up),
      machine_setKey_of_large large m⟩
  · intro ready x
    obtain ⟨keyDown, keyUp⟩ := decode_skipKey x
    simp only [executed?, dispatched?, ready, if_true, Option.bind_some, keyDown, keyUp, and_self]
  · intro operation x executed
    rw [pc_apply_of_skip executed, Condition.holds, named]
    simp only [decide_eq_true_eq]
  · intro operation x executed
    rw [pc_apply_of_skip executed, Condition.holds, named]
    by_cases h : held x <;> simp [h]
  · rw [Keypad.text_eq_empty_iff, Bool.eq_false_iff, ne_eq, anyDown]
    simp only [not_exists, Bool.not_eq_true]
  · intro someDown
    have keys : m.processor.keypad.downKeys = (List.finRange 16).filter down := by
      simp only [Keypad.downKeys, isDown]
    rw [Keypad.text_of_anyDown (anyDown.mpr someDown), keys]

/-- Keys are pressed and released, a number that names no key is moved, and a program fails to
load: two keys are down in the end. The word `E09E` skips if the first register names one of
them. -/
theorem keys_as_last_moved_two :
    let operations : List Operation :=
      [.pressKey 10, .pressKey 1, .pressKey 4, .edit (.setKey 20 true), .releaseKey 4,
        .execute 0x6001, .loadFile "game" (.error .notFound)]
    let m := (create .standard 0).machine.run operations
    m.processor.keypad.text = "keys: k1 ka" ∧
      (m.apply (.execute 0xE09E)).machine.processor.pc = m.processor.pc + 4 := by
  intro operations m
  obtain ⟨-, -, -, executes, skips, -, -, -, -, text⟩ := keys_as_last_moved .standard 0 operations
  have ready : m.IsReady := by decide +kernel
  refine ⟨(text ⟨1, by decide⟩).trans (by decide +kernel), ?_⟩
  have executed := skips _ 0 (executes ready 0).1
  rwa [if_pos ⟨1, by decide +kernel, by decide⟩] at executed

end Machine

end Chip8
