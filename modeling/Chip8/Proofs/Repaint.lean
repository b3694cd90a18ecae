import Chip8.Proofs.Effects
import Chip8.Proofs.Loading
import Mathlib.Data.List.Induction

/-!
# When the screen is to be painted

A machine notes that its screen may be different from when it was last painted, and whoever
paints it asks for this note. The main statement is `Chip8.Machine.repaint_tells`: as long as
there is no such note, the screen is still the one that was painted last, so a painter who
copies the screen when told to, and at no other time, is never behind.

What this comes down to is that no operation changes the screen in silence
(`Chip8.Processor.Announces`). Replacing the processor from outside would, and is left out.
-/

namespace Chip8

/-! ### Changes that are announced -/

namespace Processor

variable {p q : Processor} {shift : ShiftRule} {noise : UInt8} {i : Instruction} {flow : Flow}

/-- A processor comes from another one without a change of the screen in silence: the screen is
due to be painted, or it is the same, and due to be painted if it was before. -/
def Announces (p q : Processor) : Prop :=
  q.repaint = true ∨ q.screen = p.screen ∧ q.repaint = p.repaint

theorem announces_refl (p : Processor) : p.Announces p := Or.inr ⟨rfl, rfl⟩

/-- Neither time nor the keypad changes the screen. -/
theorem isSteady_announces (p : Processor) : IsSteady p.Announces where
  countDown _ h := h
  pressKey q key h := by
    unfold pressKey
    cases q.awaiting <;> exact h
  releaseKey _ _ h := h
  releaseKeys _ h := h

theorem announces_setResult (p : Processor) (x : Register) (result : UInt8 × Option Bool) :
    p.Announces (p.setResult x result) := by
  rw [setResult_eq]
  exact p.announces_refl

/-- **No instruction changes the screen in silence.** -/
theorem announces_execute (h : p.execute shift noise i = (.ok flow, q)) : p.Announces q := by
  cases i
  case clearScreen =>
    cases h
    exact Or.inl rfl
  case draw x y rows =>
    cases h
    exact Or.inl rfl
  case ret =>
    obtain ⟨-, site, stack, -, rfl⟩ := execute_ret h
    exact p.announces_refl
  case call target =>
    obtain ⟨-, stack, -, rfl⟩ := execute_call h
    exact p.announces_refl
  case combine operation x y =>
    cases h
    exact p.announces_setResult x _
  all_goals
    cases h
    simp [Announces, advance, setRegister, storeBytes, loadRegisters]

/-- The only change from outside that is not announced is to replace the processor. -/
theorem announces_edit (p : Processor) {change : Edit} (kept : change ≠ .replace) :
    p.Announces (p.edit change) := by
  cases change with
  | replace => exact absurd rfl kept
  | clearScreen => exact Or.inl rfl
  | _ => simp [Announces, edit, setRegister, countDown]

end Processor

/-- The operations that note that the screen has been painted. -/
def Operation.notesPainting : Operation → Bool
  | .markPainted | .takeRepaint => true
  | _ => false

namespace Machine

variable {m n : Machine} {operation : Operation} {operations : List Operation}

/-- **No operation changes the screen in silence**, if it leaves the processor in its place and
does not take the note down. -/
theorem announces_apply (kept : operation ≠ .edit .replace)
    (silent : operation.notesPainting = false) :
    m.processor.Announces (m.apply operation).machine.processor := by
  have driven (drives : operation.Drives) :
      m.processor.Announces (m.apply operation).machine.processor :=
    apply_of_isSteady m.processor.isSteady_announces drives
      (fun _ executed => Processor.announces_execute executed) m.processor.announces_refl
  have loaded {outcome : Except LoadError (List UInt8)}
      (loads : operation.loading? = some outcome) :
      m.processor.Announces (m.apply operation).machine.processor := by
    cases outcome with
    | error cause =>
      rw [machine_apply_of_loadsNothing loads]
      exact m.processor.announces_refl
    | ok program =>
      obtain ⟨-, anew⟩ := (m.apply_of_loading loads).of_ok
      rw [anew]
      exact Or.inl rfl
  cases operation with
  | reset => exact Or.inl rfl
  | load _ | loadFrom _ | loadFile _ _ => exact loaded rfl
  | step => exact driven .step
  | execute word => exact driven (.execute word)
  | tick now => exact driven (.tick now)
  | pressKey key => exact driven (.pressKey key)
  | releaseKey key => exact driven (.releaseKey key)
  | releaseKeys => exact driven .releaseKeys
  | markPainted | takeRepaint => contradiction
  | edit change =>
    refine m.processor.announces_edit ?_
    rintro rfl
    exact kept rfl

/-! ### Screens that are seen along a run -/

/-- The screen that is noted as painted by an operation, if it notes that. -/
def paintedAt? (m : Machine) (operation : Operation) : Option Screen :=
  if operation.notesPainting then some m.processor.screen else none

/-- The screens that are noted as painted along a run. -/
def painted (m : Machine) (operations : List Operation) : List Screen :=
  m.collect paintedAt? operations

/-- The screen that a painter copies after an operation, if the operation was to ask whether the
screen is to be painted, and the answer was that it is. -/
def copiedAt? (m : Machine) (operation : Operation) : Option Screen :=
  if operation = .takeRepaint ∧ (m.apply operation).answer = .flag true then
    some (m.apply operation).machine.processor.screen
  else none

/-- The copies of the screen that a painter makes along a run. -/
def copied (m : Machine) (operations : List Operation) : List Screen :=
  m.collect copiedAt? operations

/-- What is seen at an operation keeps up with the machine: it is the screen after the operation,
or nothing, and then the operation does not change the screen in silence. -/
def KeepsUp (see : Machine → Operation → Option Screen) (m : Machine) (operation : Operation) :
    Prop :=
  see m operation = some (m.apply operation).machine.processor.screen ∨
    see m operation = none ∧ m.processor.Announces (m.apply operation).machine.processor

theorem keepsUp_paintedAt? (kept : operation ≠ .edit .replace) :
    m.KeepsUp paintedAt? operation := by
  cases noted : operation.notesPainting with
  | true =>
    refine Or.inl ?_
    rw [paintedAt?, noted, if_pos rfl]
    cases operation with
    | markPainted | takeRepaint => rfl
    | _ => contradiction
  | false =>
    refine Or.inr ⟨?_, announces_apply kept noted⟩
    rw [paintedAt?, noted, if_neg Bool.false_ne_true]

theorem keepsUp_copiedAt? (kept : operation ≠ .edit .replace)
    (asked : operation ≠ .markPainted) : m.KeepsUp copiedAt? operation := by
  by_cases told : operation = .takeRepaint ∧ (m.apply operation).answer = .flag true
  · exact Or.inl (if_pos told)
  · refine Or.inr ⟨if_neg told, ?_⟩
    cases noted : operation.notesPainting with
    | false => exact announces_apply kept noted
    | true =>
      cases operation with
      | markPainted => exact absurd rfl asked
      | takeRepaint =>
        -- The answer was that there is nothing to paint, and so it stays.
        have clean : m.processor.repaint = false := by
          rcases Bool.eq_false_or_eq_true m.processor.repaint with due | clean
          · exact absurd ⟨rfl, congrArg Answer.flag due⟩ told
          · exact clean
        exact Or.inr ⟨rfl, clean.symm⟩
      | _ => contradiction

/-- **When nothing is due to be painted, what was seen last is the screen**, provided that what
is seen keeps up with the machine, and that everything is due to be painted at the start. -/
theorem getLast?_collect_of_clean {see : Machine → Operation → Option Screen}
    (begun : n.processor.repaint = true)
    (keepsUp : ∀ m, ∀ operation ∈ operations, KeepsUp see m operation)
    (clean : (n.run operations).processor.repaint = false) :
    (n.collect see operations).getLast? = some (n.run operations).processor.screen := by
  induction operations using List.reverseRecOn with
  | nil => exact absurd (begun.symm.trans clean) nofun
  | append_singleton operations operation ih =>
    have last : n.collect see (operations ++ [operation]) =
        n.collect see operations ++ (see (n.run operations) operation).toList := by
      rw [collect_append, collect, collect, List.append_nil]
    rw [run_append, run_cons, run_nil] at clean ⊢
    rw [last]
    rcases keepsUp (n.run operations) operation (List.mem_append_right _ List.mem_cons_self) with
      seen | ⟨unseen, announced⟩
    · rw [seen, Option.toList_some, List.getLast?_concat]
    · rw [unseen, Option.toList_none, List.append_nil]
      rcases announced with due | ⟨screen, repaint⟩
      · exact absurd (due.symm.trans clean) nofun
      · rw [screen]
        exact ih (fun m operation member => keepsUp m operation (List.mem_append_left _ member))
          (repaint.symm.trans clean)

/-- **The note that the screen is to be painted never comes too late.** Do anything to a new
machine but replace its processor. The screen is due to be painted until it is noted as painted
for the first time; and whenever it is not due, it is the screen that was noted as painted last.
If a painter is told of the screen by asking alone, and copies it whenever the answer is that it
is to be painted, then after every question the last copy is the screen of the machine. -/
theorem repaint_tells (settings : Settings) (entropy : UInt64)
    (kept : ∀ operation ∈ operations, operation ≠ .edit .replace) :
    let n := (create settings entropy).machine
    let m := n.run operations
    (n.painted operations = [] → m.processor.repaint = true) ∧
    (m.processor.repaint = false → (n.painted operations).getLast? = some m.processor.screen) ∧
    ((∀ operation ∈ operations, operation ≠ .markPainted) →
      (n.copied (operations ++ [Operation.takeRepaint])).getLast? =
        some (m.apply .takeRepaint).machine.processor.screen) := by
  intro n m
  have paintedLast (clean : m.processor.repaint = false) :
      (n.painted operations).getLast? = some m.processor.screen :=
    getLast?_collect_of_clean rfl
      (fun _ operation member => keepsUp_paintedAt? (kept operation member)) clean
  refine ⟨?_, paintedLast, ?_⟩
  · intro never
    rcases Bool.eq_false_or_eq_true m.processor.repaint with due | clean
    · exact due
    · have last := paintedLast clean
      rw [never] at last
      contradiction
  · intro asked
    have after :
        n.run (operations ++ [Operation.takeRepaint]) = (m.apply .takeRepaint).machine := by
      rw [run_append]
      rfl
    rw [← after]
    refine getLast?_collect_of_clean rfl (fun _ operation member => ?_) (by rw [after]; rfl)
    rcases List.mem_append.mp member with before | last
    · exact keepsUp_copiedAt? (kept operation before) (asked operation before)
    · rw [List.mem_singleton.mp last]
      exact keepsUp_copiedAt? nofun nofun

/-- A new machine draws a glyph after its screen was painted; a program that is not there, a key
and a change of the index register then leave the screen alone. The painter has two copies in
the end, the last of which shows the glyph. -/
theorem repaint_tells_glyph :
    let n := (create .standard 0).machine
    let operations : List Operation :=
      [.takeRepaint, .execute 0xD005, .takeRepaint, .loadFile "game" (.error .notFound),
        .pressKey 3, .edit (.setIndex 5)]
    let m := n.run operations
    m.processor.repaint = false ∧ m.processor.screen.litCount = 14 ∧
      (n.painted operations).getLast? = some m.processor.screen ∧
      (n.copied (operations ++ [Operation.takeRepaint])).length = 2 ∧
      (n.copied (operations ++ [Operation.takeRepaint])).getLast? =
        some (m.apply .takeRepaint).machine.processor.screen := by
  intro n operations m
  have kept : ∀ operation ∈ operations, operation ≠ .edit .replace := by decide
  have clean : m.processor.repaint = false := by decide +kernel
  obtain ⟨-, painted, copied⟩ := repaint_tells .standard 0 kept
  exact ⟨clean, by decide +kernel, painted clean, by decide +kernel, copied (by decide)⟩

end Machine

end Chip8
