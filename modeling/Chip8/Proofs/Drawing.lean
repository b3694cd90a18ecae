import Chip8.Proofs.Decoding
import Chip8.Proofs.Effects
import Mathlib.Data.List.Nodup
import Mathlib.Data.Nat.Bits

/-!
# Drawing as addition modulo two

A sprite is drawn by toggling pixels, so all there is to know of a pixel after any number of
sprites is whether an odd number of them covers it. This rests on a sprite meeting no pixel
twice, which its shape warrants (`Chip8.Sprite.nodup_points`): a row of eight ends well before
the next row of the screen begins, also where it runs past the right edge.

`Chip8.Placement` says where a sprite is found and where it is drawn,
`Chip8.Placement.Covers` which pixels it covers, and `Chip8.DrawCommand` is a way to have a
machine draw it. The main statement is `Chip8.Machine.drawing_toggles`: the order of the
commands does not count, two commands to draw the same sprite in the same place cancel out,
and memory stays as it was.
-/

namespace Chip8

/-! ### Toggling pixels -/

namespace Screen

/-- Screens with the same pixels lit are the same. -/
theorem eq_of_isLit {s t : Screen} (same : ∀ point < area, s.isLit point = t.isLit point) :
    s = t := by
  obtain ⟨pixels⟩ := s
  obtain ⟨others⟩ := t
  congr 1
  refine Vector.ext fun point inside => ?_
  have lit := same point inside
  simpa only [isLit, Vector.getElem?_eq_getElem inside, Option.getD_some] using lit

/-- Whether lit pixels are met has no bearing on the screen that is drawn. -/
theorem fst_draw (s : Screen) (points : List Nat) : (s.draw points).1 = points.foldl toggle s := by
  unfold draw
  generalize false = collided
  induction points generalizing s collided with
  | nil => rfl
  | cons point points ih => exact ih (s.toggle point) (collided || s.isLit point)

/-- **A pixel is toggled as often as it is drawn.** -/
theorem isLit_draw (s : Screen) (points : List Nat) {point : Nat} (inside : point < area) :
    (s.draw points).1.isLit point = (s.isLit point ^^ (points.count point).bodd) := by
  rw [fst_draw]
  induction points generalizing s with
  | nil =>
    rw [List.count_nil, Nat.bodd_zero, Bool.xor_false]
    rfl
  | cons first points ih =>
    have toggled := isLit_toggle s first point
    rw [List.foldl_cons, ih, toggled, List.count_cons, Nat.bodd_add]
    by_cases here : first = point
    · subst here
      have within : first < 2048 := inside
      simp [within]
    · simp [here]

end Screen

/-! ### The points of a sprite -/

namespace Sprite

theorem mem_rowPoints {first point : Nat} {row : UInt8} :
    point ∈ rowPoints first row ↔
      ∃ column < 8, row.toNat.testBit (7 - column) ∧ point = first + column := by
  simp only [rowPoints, List.mem_map, List.mem_filter, List.mem_range]
  constructor
  · rintro ⟨column, ⟨inside, bit⟩, rfl⟩
    exact ⟨column, inside, bit, rfl⟩
  · rintro ⟨column, inside, bit, rfl⟩
    exact ⟨column, ⟨inside, bit⟩, rfl⟩

theorem nodup_rowPoints (first : Nat) (row : UInt8) : (rowPoints first row).Nodup :=
  (List.nodup_range.filter _).map fun _ _ => Nat.add_left_cancel

/-- Different bits of a sprite fall on different pixels, wherever it is drawn. -/
theorem place_injective {x y row row' column column' : Nat} (inside : column < 8)
    (inside' : column' < 8)
    (same : (y + row) * Screen.width + x + column = (y + row') * Screen.width + x + column') :
    row = row' ∧ column = column' := by
  -- Eight columns are fewer than the pixels from one row to the next.
  unfold Screen.width at same
  omega

/-- **So a sprite meets no pixel twice.** -/
theorem nodup_points (x y : Nat) (read : Nat → UInt8) (rows : Nat) :
    (points x y ((List.range rows).map read)).Nodup := by
  rw [points_eq_flatMap, List.nodup_flatMap]
  refine ⟨fun k _ => nodup_rowPoints _ _, ?_⟩
  refine List.nodup_range.imp ?_
  rintro k l apart point inFirst inSecond
  obtain ⟨column, inside, -, rfl⟩ := mem_rowPoints.mp inFirst
  obtain ⟨other, within, -, same⟩ := mem_rowPoints.mp inSecond
  exact apart (place_injective inside within same).1

end Sprite

/-! ### Where sprites are drawn -/

/-- Where a sprite is found and where it is drawn. -/
structure Placement where
  /-- The address of its first row. -/
  index : UInt16
  /-- The column of its left edge. -/
  x : UInt8
  /-- The row of its top edge. -/
  y : UInt8
  /-- The number of its rows. -/
  rows : Fin 16
  deriving DecidableEq

namespace Placement

/-- A placed sprite covers a pixel if one of its bits is set that falls on it. -/
def Covers (memory : Memory) (d : Placement) (point : Nat) : Prop :=
  ∃ row < d.rows.val, ∃ column < 8,
    (memory.read (d.index.toNat + row)).toNat.testBit (7 - column) ∧
      point = (d.y.toNat + row) * Screen.width + d.x.toNat + column

instance (memory : Memory) (d : Placement) (point : Nat) : Decidable (d.Covers memory point) :=
  inferInstanceAs (Decidable (∃ row < d.rows.val, ∃ column < 8, _ ∧ _))

/-- The points that are toggled when a sprite is drawn. -/
def points (memory : Memory) (d : Placement) : List Nat :=
  Sprite.points d.x.toNat d.y.toNat (memory.readBytes d.index.toNat d.rows.val)

theorem mem_points {memory : Memory} {d : Placement} {point : Nat} :
    point ∈ d.points memory ↔ d.Covers memory point := by
  rw [points, Memory.readBytes, Sprite.points_eq_flatMap]
  simp only [List.mem_flatMap, List.mem_range, Sprite.mem_rowPoints]
  rfl

/-- A sprite toggles the pixels that it covers, each once. -/
theorem count_points (memory : Memory) (d : Placement) (point : Nat) :
    (d.points memory).count point = if d.Covers memory point then 1 else 0 := by
  have distinct : (d.points memory).Nodup := Sprite.nodup_points _ _ _ _
  simp only [distinct.count, mem_points]

end Placement

/-! ### Drawing commands -/

/-- A way to have a machine draw a sprite: two registers that are to hold its place, neither of
which is the flag register. -/
structure DrawCommand where
  /-- The sprite and its place. -/
  placement : Placement
  /-- The register for the column. -/
  left : Register
  /-- The register for the row. -/
  top : Register
  /-- The registers are different. -/
  left_ne_top : left ≠ top
  /-- The first is not the flag register. -/
  left_ne_flag : left ≠ flagRegister
  /-- The second is not the flag register. -/
  top_ne_flag : top ≠ flagRegister

namespace DrawCommand

/-- The instruction that draws. -/
def instruction (c : DrawCommand) : Instruction := .draw c.left c.top c.placement.rows

/-- What is done to a machine: the index register and the two registers are set, and the
instruction is executed. -/
def operations (c : DrawCommand) : List Operation :=
  [.edit (.setIndex c.placement.index),
    .edit (.setRegister c.left.val c.placement.x),
    .edit (.setRegister c.top.val c.placement.y),
    .execute c.instruction.encode]

/-- What is done to a machine for commands one after the other. -/
def drawing (commands : List DrawCommand) : List Operation := commands.flatMap operations

/-- How many of the commands cover a pixel, when memory is this. -/
def coverage (memory : Memory) (commands : List DrawCommand) (point : Nat) : Nat :=
  commands.countP fun c => c.placement.Covers memory point

/-- The order of the commands has no bearing on how many cover a pixel. -/
theorem coverage_of_perm {commands others : List DrawCommand} (memory : Memory)
    (perm : (others.map placement).Perm (commands.map placement))
    (point : Nat) : coverage memory others point = coverage memory commands point := by
  have counted (commands : List DrawCommand) : coverage memory commands point =
      (commands.map placement).countP fun d => d.Covers memory point := by
    rw [List.countP_map]
    rfl
  rw [counted, counted]
  exact perm.countP_eq _

/-- Two commands for the same sprite in the same place cover a pixel twice or not at all. -/
theorem bodd_coverage_of_twice {first second : DrawCommand} (memory : Memory)
    (alike : first.placement = second.placement) (before between after : List DrawCommand)
    (point : Nat) :
    (coverage memory (before ++ first :: between ++ second :: after) point).bodd =
      (coverage memory (before ++ between ++ after) point).bodd := by
  simp only [coverage, List.countP_append, List.countP_cons, Nat.bodd_add, alike]
  by_cases covers : second.placement.Covers memory point
  · simp [covers]
  · simp [covers]

end DrawCommand

namespace Processor

/-- The processor with its registers set for a sprite to be drawn. -/
def aim (p : Processor) (c : DrawCommand) : Processor :=
  ((p.edit (.setIndex c.placement.index)).edit (.setRegister c.left.val c.placement.x)).edit
    (.setRegister c.top.val c.placement.y)

theorem register_aim_left (p : Processor) (c : DrawCommand) :
    (p.aim c).register c.left = c.placement.x := by
  have apart : c.top.val ≠ c.left.val := fun same => c.left_ne_top (Fin.ext same.symm)
  simp [aim, edit, register, setRegister, apart]

theorem register_aim_top (p : Processor) (c : DrawCommand) :
    (p.aim c).register c.top = c.placement.y := by
  simp [aim, edit, register, setRegister]

/-- The sprite is drawn where it is to be drawn. -/
theorem screen_drawSprite_aim (p : Processor) (c : DrawCommand) :
    ((p.aim c).drawSprite c.left c.top c.placement.rows.val).screen =
      (p.screen.draw (c.placement.points p.memory)).1 := by
  unfold drawSprite
  rw [register_aim_left, register_aim_top]
  rfl

end Processor

namespace Machine

open DrawCommand (drawing coverage)

variable {m : Machine} {commands : List DrawCommand}

/-- A drawing instruction draws, and the machine moves on. -/
theorem execute_of_draw (ready : m.IsReady) {word : UInt16} {x y : Register} {rows : Fin 16}
    (decoded : Instruction.decode word = some (.draw x y rows)) :
    m.execute word =
      ⟨.ok .draw, { m with processor := (m.processor.drawSprite x y rows.val).advance 2 },
        [m.traceOf (.draw x y rows)]⟩ :=
  execute_of_decode ready decoded rfl rfl

/-- **What a drawing command does**: it is executed, it draws, and it stores nothing. -/
theorem run_operations (ready : m.IsReady) (c : DrawCommand) :
    (m.responses c.operations).map Response.answer = [.done, .done, .done, .flow .draw] ∧
      (m.run c.operations).IsReady ∧
      (m.run c.operations).processor.memory = m.processor.memory ∧
      (m.run c.operations).processor.screen =
        (m.processor.screen.draw (c.placement.points m.processor.memory)).1 := by
  let k : Machine := { m with processor := m.processor.aim c }
  have aimed : k.IsReady := ⟨ready.unstopped, ready.unblocked⟩
  have executed : k.apply (.execute c.instruction.encode) =
      ⟨.flow .draw,
        { k with
          processor := (k.processor.drawSprite c.left c.top c.placement.rows.val).advance 2 },
        [k.traceOf c.instruction]⟩ := by
    have decoded := Instruction.decode_encode (.draw c.left c.top c.placement.rows)
    simp only [apply, Response.map, DrawCommand.instruction, execute_of_draw aimed decoded]
    rfl
  have last : m.run c.operations = (k.apply (.execute c.instruction.encode)).machine := rfl
  refine ⟨?_, ?_⟩
  · have answers : (m.responses c.operations).map Response.answer =
        [.done, .done, .done, (k.apply (.execute c.instruction.encode)).answer] := rfl
    rw [answers, executed]
  · rw [last, executed]
    exact ⟨⟨ready.unstopped, ready.unblocked⟩, rfl, m.processor.screen_drawSprite_aim c⟩

/-- **What drawing commands do**: all of them draw, they store nothing, and a pixel is as
before if an even number of them covers it. -/
theorem run_drawing (ready : m.IsReady) (commands : List DrawCommand) :
    (m.responses (drawing commands)).map Response.answer =
        commands.flatMap (fun _ => [.done, .done, .done, .flow .draw]) ∧
      (m.run (drawing commands)).IsReady ∧
      (m.run (drawing commands)).processor.memory = m.processor.memory ∧
      ∀ point < Screen.area, (m.run (drawing commands)).processor.screen.isLit point =
        (m.processor.screen.isLit point ^^
          (coverage m.processor.memory commands point).bodd) := by
  induction commands generalizing m with
  | nil =>
    refine ⟨rfl, ready, rfl, fun point inside => ?_⟩
    rw [coverage, List.countP_nil, Nat.bodd_zero, Bool.xor_false]
    rfl
  | cons c commands ih =>
    obtain ⟨answers, next, memory, screen⟩ := run_operations ready c
    obtain ⟨rest, last, kept, lit⟩ := ih next
    have split : drawing (c :: commands) = c.operations ++ drawing commands := rfl
    rw [split, run_append, responses_append, List.map_append, answers, rest]
    refine ⟨rfl, last, kept.trans memory, fun point inside => ?_⟩
    rw [lit point inside, screen, Screen.isLit_draw _ _ inside, Placement.count_points, memory,
      coverage, coverage, List.countP_cons, Nat.bodd_add, Bool.xor_assoc]
    by_cases covers : c.placement.Covers m.processor.memory point
    · simp [covers, Bool.xor_comm]
    · simp [covers]

/-- Drawing leaves the same screen if every pixel is covered as often, up to an even number. -/
theorem screen_drawing_eq (ready : m.IsReady) {others : List DrawCommand}
    (alike : ∀ point, (coverage m.processor.memory others point).bodd =
      (coverage m.processor.memory commands point).bodd) :
    (m.run (drawing others)).processor.screen = (m.run (drawing commands)).processor.screen := by
  obtain ⟨-, -, -, lit⟩ := run_drawing ready others
  obtain ⟨-, -, -, lit'⟩ := run_drawing ready commands
  refine Screen.eq_of_isLit fun point inside => ?_
  rw [lit point inside, lit' point inside, alike]

/-- **Drawing is addition modulo two.** On a machine that is ready, all drawing commands draw,
and in the end a pixel is as it was at the start if an even number of them covers it, and the
other way otherwise. So the order of the commands does not count, and two commands for the
same sprite in the same place can be left out, wherever they are. Memory is as it was. -/
theorem drawing_toggles (ready : m.IsReady) (commands : List DrawCommand) :
    let final (commands : List DrawCommand) := m.run (drawing commands)
    (m.responses (drawing commands)).map Response.answer =
      commands.flatMap (fun _ => [.done, .done, .done, .flow .draw]) ∧
    (∀ point < Screen.area, (final commands).processor.screen.isLit point =
      (m.processor.screen.isLit point ^^ (coverage m.processor.memory commands point).bodd)) ∧
    (∀ others : List DrawCommand,
      (others.map DrawCommand.placement).Perm (commands.map DrawCommand.placement) →
      (final others).processor.screen = (final commands).processor.screen) ∧
    (∀ before between after first second, first.placement = second.placement →
      commands = before ++ first :: between ++ second :: after →
      (final (before ++ between ++ after)).processor.screen =
        (final commands).processor.screen) ∧
    (final commands).processor.memory = m.processor.memory := by
  intro final
  obtain ⟨answers, -, memory, lit⟩ := run_drawing ready commands
  refine ⟨answers, lit, ?_, ?_, memory⟩
  · intro others perm
    refine screen_drawing_eq ready fun point => ?_
    rw [DrawCommand.coverage_of_perm m.processor.memory perm]
  · rintro before between after first second alike rfl
    refine screen_drawing_eq ready fun point => ?_
    exact (DrawCommand.bodd_coverage_of_twice m.processor.memory alike before between after
      point).symm

/-- A glyph that runs past the right edge and the last row is drawn twice, through different
registers, and another sprite in between, whose bytes go round the end of memory. -/
theorem drawing_toggles_glyph :
    let m := (create .standard 0).machine
    let glyph : Placement := ⟨0, 62, 29, 5⟩
    let once : DrawCommand := ⟨glyph, 0, 1, by decide, by decide, by decide⟩
    let again : DrawCommand := ⟨glyph, 3, 2, by decide, by decide, by decide⟩
    let round : DrawCommand := ⟨⟨0xFFFE, 250, 3, 15⟩, 4, 0, by decide, by decide, by decide⟩
    let final (commands : List DrawCommand) := m.run (drawing commands)
    m.IsReady ∧ coverage m.processor.memory [once, round, again] 1918 = 2 ∧
      (final [once, round, again]).processor.screen.isLit 1918 = false ∧
      (final [round]).processor.screen = (final [once, round, again]).processor.screen ∧
      (final [again, once, round]).processor.screen =
        (final [once, round, again]).processor.screen ∧
      (final [once, round, again]).processor.memory = m.processor.memory := by
  intro m glyph once again round final
  have ready : m.IsReady := by decide +kernel
  obtain ⟨-, lit, perm, twice, memory⟩ := drawing_toggles ready [once, round, again]
  have covered : coverage m.processor.memory [once, round, again] 1918 = 2 := by decide +kernel
  have pixel := lit 1918 (by decide)
  rw [covered] at pixel
  have dark : m.processor.screen.isLit 1918 = false := by decide +kernel
  refine ⟨ready, covered, ?_, ?_, ?_, memory⟩
  · rw [dark] at pixel
    exact pixel
  · exact twice [] [round] [] once again rfl rfl
  · exact perm [again, once, round] (List.Perm.cons glyph (List.Perm.swap _ _ []))

end Machine

end Chip8
