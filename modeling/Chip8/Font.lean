/-!
# The font

The glyphs of the sixteen hexadecimal digits, which lie at the very bottom of
memory. A glyph is `Chip8.Font.glyphHeight` rows of pixels, one byte a row, the
highest bit leftmost; only the left half of each row is used.
-/

namespace Chip8

namespace Font

/-- The address of the first glyph. -/
def start : Nat := 0

/-- The number of rows of a glyph. -/
def glyphHeight : Nat := 5

/-- The glyphs of the digits `0` to `F`, one after the other. -/
def bytes : List UInt8 := [
  0xF0, 0x90, 0x90, 0x90, 0xF0, -- 0
  0x20, 0x60, 0x20, 0x20, 0x70, -- 1
  0xF0, 0x10, 0xF0, 0x80, 0xF0, -- 2
  0xF0, 0x10, 0xF0, 0x10, 0xF0, -- 3
  0x90, 0x90, 0xF0, 0x10, 0x10, -- 4
  0xF0, 0x80, 0xF0, 0x10, 0xF0, -- 5
  0xF0, 0x80, 0xF0, 0x90, 0xF0, -- 6
  0xF0, 0x10, 0x20, 0x40, 0x40, -- 7
  0xF0, 0x90, 0xF0, 0x90, 0xF0, -- 8
  0xF0, 0x90, 0xF0, 0x10, 0xF0, -- 9
  0xF0, 0x90, 0xF0, 0x90, 0x90, -- A
  0xE0, 0x90, 0xE0, 0x90, 0xE0, -- B
  0xF0, 0x80, 0x80, 0x80, 0xF0, -- C
  0xE0, 0x90, 0x90, 0x90, 0xE0, -- D
  0xF0, 0x80, 0xF0, 0x80, 0xF0, -- E
  0xF0, 0x80, 0xF0, 0x80, 0x80] -- F

end Font

end Chip8
