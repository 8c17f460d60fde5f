import Chip8.Palette

/-!
# What goes wrong with a renderer

A renderer is not made if its palette or its scale are of no use to it, and a
window cannot write a pixel in a colour of the wrong length.
-/

namespace Chip8

/-- Why a renderer is not made, or does not carry out a command. -/
inductive RendererError
  | palette (e : PaletteError)
  /-- The scale is not one that the renderer can use. -/
  | unsuitableScale
  /-- The palette is not a text. -/
  | unsuitablePalette
  /-- The colour does not have the length of a pixel. -/
  | colourSize
  deriving DecidableEq, Repr

/-- The text of a refusal that has one. -/
def RendererError.message? : RendererError → Option String
  | palette e => some e.message
  | _ => none

end Chip8
