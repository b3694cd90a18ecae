import Chip8.Proofs.Drawing

/-!
# Drawing pixel by pixel

A sprite is drawn row by row and bit by bit, and whether a lit pixel is met is noted on the way.
The main statement, `Chip8.Machine.draws_pointwise`, is what comes of this, without an order: a
pixel that the sprite covers is toggled, one that it does not cover is not, and the flag register
says whether a covered pixel was lit (`Chip8.Placement.Meets`). Nothing else changes, except that
the machine moves on and that the screen is due to be painted.

For the flag it matters that a sprite meets no pixel twice: otherwise it could meet a pixel that
it has lit itself. It does not, because different bits of the sprite fall on different pixels
(`Chip8.Placement.pixel_injective`).
-/

namespace Chip8

/-! ### Meeting lit pixels -/

namespace Screen

/-- There are no lit pixels off the screen. -/
theorem lt_area_of_isLit {s : Screen} {point : Nat} (lit : s.isLit point = true) :
    point < area := by
  by_contra outside
  have beyond : s.pixels[point]? = none := Vector.getElem?_eq_none (Nat.not_lt.mp outside)
  rw [isLit, beyond] at lit
  contradiction

/-- To toggle one pixel makes no difference to whether others are lit. -/
theorem any_isLit_toggle {s : Screen} {first : Nat} {points : List Nat} (apart : first ∉ points) :
    points.any (s.toggle first).isLit = points.any s.isLit := by
  rw [Bool.eq_iff_iff, List.any_eq_true, List.any_eq_true]
  refine exists_congr fun point => and_congr_right fun member => ?_
  have other : first ≠ point := by
    rintro rfl
    exact apart member
  rw [isLit_toggle, if_neg fun here => other here.1]

/-- **A lit pixel is met if one of the points was lit at the start**, provided that they are all
different. -/
theorem snd_draw (s : Screen) {points : List Nat} (distinct : points.Nodup) :
    (s.draw points).2 = points.any s.isLit := by
  -- The induction is on the points that are left, with what has been noted so far.
  rw [← Bool.false_or (points.any s.isLit)]
  unfold draw
  generalize false = collided
  induction points generalizing s collided with
  | nil => simp
  | cons first points ih =>
    rw [List.nodup_cons] at distinct
    rw [List.foldl_cons, ih _ distinct.2, any_isLit_toggle distinct.1, List.any_cons,
      Bool.or_assoc]

end Screen

namespace Placement

/-! ### The bits of a sprite -/

/-- The pixel that a bit of a placed sprite falls on, by its row and its column. -/
def pixel (d : Placement) (row column : Nat) : Nat :=
  (d.y.toNat + row) * Screen.width + d.x.toNat + column

/-- **Different bits fall on different pixels.** -/
theorem pixel_injective (d : Placement) {row row' column column' : Nat} (inside : column < 8)
    (inside' : column' < 8) (same : d.pixel row column = d.pixel row' column') :
    row = row' ∧ column = column' :=
  Sprite.place_injective inside inside' same

/-- A placed sprite meets a lit pixel if it covers one. -/
def Meets (memory : Memory) (d : Placement) (s : Screen) : Prop :=
  ∃ point < Screen.area, d.Covers memory point ∧ s.isLit point = true

variable {memory : Memory} {d : Placement} {s : Screen}

theorem any_points_iff : (d.points memory).any s.isLit = true ↔ d.Meets memory s := by
  simp only [List.any_eq_true, mem_points]
  constructor
  · rintro ⟨point, covers, lit⟩
    exact ⟨point, Screen.lt_area_of_isLit lit, covers, lit⟩
  · rintro ⟨point, -, covers, lit⟩
    exact ⟨point, covers, lit⟩

instance (memory : Memory) (d : Placement) (s : Screen) : Decidable (d.Meets memory s) :=
  decidable_of_iff _ any_points_iff

/-- When a sprite is drawn, it is noted whether it meets a lit pixel, -/
theorem snd_draw_points (memory : Memory) (d : Placement) (s : Screen) :
    (s.draw (d.points memory)).2 = decide (d.Meets memory s) := by
  have distinct : (d.points memory).Nodup := Sprite.nodup_points _ _ _ _
  rw [Screen.snd_draw s distinct, Bool.eq_iff_iff, any_points_iff, decide_eq_true_iff]

/-- and the pixels that it covers are toggled. -/
theorem isLit_draw_points (memory : Memory) (d : Placement) (s : Screen) (point : Nat) :
    (s.draw (d.points memory)).1.isLit point =
      if point < Screen.area then s.isLit point ^^ decide (d.Covers memory point) else false := by
  by_cases inside : point < Screen.area
  · rw [if_pos inside, Screen.isLit_draw _ _ inside, count_points]
    by_cases covers : d.Covers memory point
    · simp [covers]
    · simp [covers]
  · rw [if_neg inside, Bool.eq_false_iff]
    exact fun lit => inside (Screen.lt_area_of_isLit lit)

end Placement

namespace Processor

/-! ### One instruction -/

/-- Where a drawing instruction finds its sprite and where it draws it. -/
def placement (p : Processor) (x y : Register) (rows : Fin 16) : Placement :=
  ⟨p.index, p.register x, p.register y, rows⟩

/-- What drawing touches. -/
theorem drawSprite_eq (p : Processor) (x y : Register) (rows : Fin 16) :
    p.drawSprite x y rows.val =
      { p with
        registers := p.registers.set flagRegister
          (if (p.placement x y rows).Meets p.memory p.screen then 1 else 0)
        screen := (p.screen.draw ((p.placement x y rows).points p.memory)).1
        repaint := true } := by
  have drawn : p.drawSprite x y rows.val =
      { p with
        screen := (p.screen.draw ((p.placement x y rows).points p.memory)).1
        repaint := true }.setFlag (p.screen.draw ((p.placement x y rows).points p.memory)).2 := rfl
  rw [drawn, Placement.snd_draw_points]
  simp only [setFlag, setRegister, decide_eq_true_eq]

end Processor

namespace Machine

variable {m : Machine} {word : UInt16} {x y : Register} {rows : Fin 16}

/-- **Drawing, pixel by pixel.** A machine that is ready and executes a drawing instruction
toggles the pixels that the sprite covers and leaves the others alone; there is nothing off the
screen. No two bits of the sprite fall on the same pixel. The flag register then says whether a
covered pixel was lit before, also if it is one of the registers for the place of the sprite, which
are looked at first. The machine has moved on to the next instruction, its screen is due to be
painted, and everything else is as it was. -/
theorem draws_pointwise (ready : m.IsReady)
    (decoded : Instruction.decode word = some (.draw x y rows)) :
    let p := m.processor
    let d := p.placement x y rows
    let r := m.execute word
    r.answer = .ok .draw ∧
    (∀ point, r.machine.processor.screen.isLit point =
      if point < Screen.area then p.screen.isLit point ^^ decide (d.Covers p.memory point)
      else false) ∧
    (∀ row row' column column', column < 8 → column' < 8 →
      d.pixel row column = d.pixel row' column' → row = row' ∧ column = column') ∧
    r.machine =
      { m with processor :=
        { p with
          pc := p.pc + 2
          registers := p.registers.set flagRegister (if d.Meets p.memory p.screen then 1 else 0)
          screen := r.machine.processor.screen
          repaint := true } } := by
  intro p d r
  have executed : r = _ := execute_of_draw ready decoded
  rw [executed, Processor.drawSprite_eq]
  exact ⟨rfl, d.isLit_draw_points p.memory p.screen, fun _ _ _ _ => d.pixel_injective, rfl⟩

/-- A glyph is drawn into the last row of the screen and past its end, twice. The second time, the
flag register is where its place is found, and the first row of the glyph is met. -/
theorem draws_pointwise_twice :
    let m := (create .standard 0).machine.run
      [.execute 0x601F, .execute 0xD005, .execute 0x6F1F]
    let r := m.execute 0xDFF5
    m.IsReady ∧ m.processor.screen.isLit 2015 = true ∧
      (m.processor.placement 15 15 5).Covers m.processor.memory 2079 ∧
      r.answer = .ok .draw ∧ r.machine.processor.register flagRegister = 1 ∧
      r.machine.processor.screen.isLit 2015 = false ∧
      r.machine.processor.screen.isLit 2079 = false ∧ r.machine.processor.pc = 0x208 := by
  intro m r
  have ready : m.IsReady := by decide +kernel
  have decoded : Instruction.decode 0xDFF5 = some (.draw 15 15 5) := by decide +kernel
  have lit : m.processor.screen.isLit 2015 = true := by decide +kernel
  have first : (m.processor.placement 15 15 5).Covers m.processor.memory 2015 := by decide +kernel
  have second : (m.processor.placement 15 15 5).Covers m.processor.memory 2079 := by
    decide +kernel
  obtain ⟨answer, pixels, -, rest⟩ := draws_pointwise ready decoded
  have meets : (m.processor.placement 15 15 5).Meets m.processor.memory m.processor.screen :=
    ⟨2015, by decide, first, lit⟩
  rw [if_pos meets] at rest
  refine ⟨ready, lit, second, answer, ?_, ?_, ?_, ?_⟩
  · rw [rest]
    rfl
  · rw [pixels, if_pos (by decide), lit, decide_eq_true first, Bool.xor_true, Bool.not_true]
  · rw [pixels, if_neg (by decide)]
  · rw [rest]
    decide +kernel

end Machine

end Chip8
