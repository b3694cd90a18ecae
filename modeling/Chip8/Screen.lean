/-!
# The screen

A screen of 64 by 32 pixels, each lit or dark, numbered row by row from the top
left. A sprite is drawn by toggling pixels: `Chip8.Sprite.points` lists the pixel
numbers that its set bits fall on, and `Chip8.Screen.draw` toggles them one by one,
noting whether a lit pixel was met. Nothing wraps: a row that runs past the right
edge goes on in the next row, and numbers past the last pixel are dropped.
-/

namespace Chip8

/-! ### The dimensions -/

/-- Pixels in a row of the screen. -/
def Screen.width : Nat := 64

/-- Rows of the screen. -/
def Screen.height : Nat := 32

/-- Pixels of the screen in all. -/
def Screen.area : Nat := Screen.width * Screen.height

/-! ### Sprites -/

namespace Sprite

/-- The pixel numbers under the set bits of one row of eight, which begins at the
pixel `first`; the highest bit is leftmost. -/
def rowPoints (first : Nat) (row : UInt8) : List Nat :=
  ((List.range 8).filter fun c => row.toNat.testBit (7 - c)).map (first + ·)

/-- The pixel numbers under the set bits of a sprite whose top left corner is in
column `x` and row `y`. -/
def points (x y : Nat) : List UInt8 → List Nat
  | [] => []
  | row :: rows => rowPoints (y * Screen.width + x) row ++ points x (y + 1) rows

/-- The points of a sprite are those of its rows. -/
theorem points_eq_flatMap (x y : Nat) (read : Nat → UInt8) (rows : Nat) :
    points x y ((List.range rows).map read) =
      (List.range rows).flatMap fun k => rowPoints ((y + k) * Screen.width + x) (read k) := by
  induction rows generalizing y read with
  | zero => rfl
  | succ rows ih =>
    have later (k : Nat) : y + 1 + k = y + (k + 1) := by omega
    rw [List.range_succ_eq_map, List.map_cons, points, List.map_map, ih, List.flatMap_cons,
      List.flatMap_map]
    simp only [later, Function.comp_apply, Nat.add_zero]

end Sprite

/-! ### The screen -/

/-- The pixels of the screen. -/
structure Screen where
  /-- Whether each pixel is lit, row by row. -/
  pixels : Vector Bool 2048
  deriving DecidableEq

namespace Screen

/-- The screen without a lit pixel. -/
def blank : Screen := ⟨Vector.replicate 2048 false⟩

/-- Whether a pixel is lit; there are no lit pixels off the screen. -/
def isLit (s : Screen) (point : Nat) : Bool := s.pixels[point]?.getD false

/-- Toggle a pixel; off the screen this does nothing. -/
def toggle (s : Screen) (point : Nat) : Screen :=
  if h : point < 2048 then ⟨s.pixels.set point (!s.pixels[point])⟩ else s

/-- Toggle pixels one by one. The second component says whether one of them was lit
when its turn came. -/
def draw (s : Screen) (points : List Nat) : Screen × Bool :=
  points.foldl
    (fun (s, collided) point =>
      let collided := collided || s.isLit point
      (s.toggle point, collided))
    (s, false)

/-- The number of lit pixels. -/
def litCount (s : Screen) : Nat := s.pixels.toList.count true

/-- The pixels of one row, from the left. -/
def row (s : Screen) (y : Nat) : List Bool :=
  (List.range width).map fun x => s.isLit (y * width + x)

/-- One row as text, `#` for a lit pixel and `.` for a dark one, with a line break. -/
def rowText (pixels : List Bool) : String :=
  String.ofList (pixels.map fun lit => if lit then '#' else '.') ++ "\n"

/-- The screen as text, one line for each row. -/
def text (s : Screen) : String :=
  String.join ((List.range height).map fun y => rowText (s.row y))

theorem isLit_toggle (s : Screen) (point other : Nat) :
    (s.toggle point).isLit other =
      if point = other ∧ point < 2048 then !s.isLit other else s.isLit other := by
  by_cases h : point < 2048
  · by_cases e : point = other
    · subst e
      simp [toggle, isLit, h]
    · simp [toggle, isLit, h, e]
  · simp [toggle, h]

@[simp] theorem isLit_blank (point : Nat) : blank.isLit point = false := by
  simp only [isLit, blank, Vector.getElem?_replicate]
  split <;> rfl

end Screen

end Chip8
