/-!
# The font

The sixteen hexadecimal digits as sprites of five rows, four pixels wide, in
the reserved part of memory.
-/

namespace Chip8.Font

/-- The address of the first glyph. -/
def address : Nat := 0x50

/-- Rows of a glyph. -/
def glyphSize : Nat := 5

/-- The rows of the glyphs `0` to `F`. -/
def glyphs : List UInt8 :=
  [ 0xF0, 0x90, 0x90, 0x90, 0xF0,
    0x20, 0x60, 0x20, 0x20, 0x70,
    0xF0, 0x10, 0xF0, 0x80, 0xF0,
    0xF0, 0x10, 0xF0, 0x10, 0xF0,
    0x90, 0x90, 0xF0, 0x10, 0x10,
    0xF0, 0x80, 0xF0, 0x10, 0xF0,
    0xF0, 0x80, 0xF0, 0x90, 0xF0,
    0xF0, 0x10, 0x20, 0x40, 0x40,
    0xF0, 0x90, 0xF0, 0x90, 0xF0,
    0xF0, 0x90, 0xF0, 0x10, 0xF0,
    0xF0, 0x90, 0xF0, 0x90, 0x90,
    0xE0, 0x90, 0xE0, 0x90, 0xE0,
    0xF0, 0x80, 0x80, 0x80, 0xF0,
    0xE0, 0x90, 0x90, 0x90, 0xE0,
    0xF0, 0x80, 0xF0, 0x80, 0xF0,
    0xF0, 0x80, 0xF0, 0x80, 0x80 ]

/-- The address of a digit's glyph. -/
def glyphAddress (digit : Nat) : Nat :=
  address + glyphSize * digit

end Chip8.Font
