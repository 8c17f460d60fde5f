import Chip8.Display
import Chip8.Value

/-!
# The plain renderer

It draws nothing anywhere, and only remembers what it was told last: the scale
it was made with, the title, the size of the picture, and how often the picture
was due.
-/

namespace Chip8.Renderer

/-- What a renderer remembers. -/
structure Plain where
  scale : Value
  title : String
  refreshes : Nat
  width : Int
  height : Int

namespace Plain

/-- A renderer of a scale before any picture, the scale being 1 if none is
    given. -/
def make (scale : Value) : Plain where
  scale := match scale with
    | .null => .number (.whole 1)
    | given => given
  title := ""
  refreshes := 0
  width := 0
  height := 0

/-- What the renderer remembers of a command. -/
def handle (r : Plain) : RenderCommand → Plain
  | .resolution width height => { r with width := width, height := height }
  | .pixel _ _ _ => r
  | .refresh _ => { r with refreshes := r.refreshes + 1 }
  | .title text => { r with title := text }

end Plain

end Chip8.Renderer
