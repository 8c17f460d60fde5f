import Chip8.Bytes

/-!
# The display

A grid of pixels that programs draw on by sprites, rows of eight pixels that
are flipped where the sprite has a set bit; a collision is a lit pixel going
dark. Every flip is passed on to the renderer at once, so that it never has to
look at the whole grid.

* `Edges`: what becomes of the part of a sprite beyond the right or the bottom
  edge, wrapped round or clipped. Its start always wraps;
* `locate`: the offset of a position in the grid, on which drawing and reading
  agree. Clipping looks at the right and the bottom edge only: a position left
  of or above the grid goes on to an offset, which counts from the end of the
  grid when it is negative;
* `draw`, `flip`, `clear`: the display afterwards, with what the renderer is
  told (`RenderCommand`).
-/

namespace Chip8

/-- What a renderer is told. -/
inductive RenderCommand
  /-- The size of the picture. -/
  | resolution (width height : Int)
  /-- A pixel is lit or dark from now on. -/
  | pixel (x y : Int) (lit : Bool)
  /-- The picture is due to be shown, having changed or not. -/
  | refresh (changed : Bool)
  /-- The title of the picture. -/
  | title (text : String)
  deriving DecidableEq, Repr

/-- What becomes of the part of a sprite beyond an edge. -/
inductive Edges
  | wrap
  | clip
  deriving DecidableEq, Repr

/-- A grid of pixels, row by row, and whether it changed since it was shown. -/
structure Display (width height : Nat) where
  cells : Vector Bool (width * height)
  changed : Bool
  deriving DecidableEq

/-- Why a display is not made or a pixel not found. -/
inductive DisplayError
  | notPositive
  | noSuchPixel
  deriving DecidableEq, Repr

/-- The text of a refusal that has one. -/
def DisplayError.message? : DisplayError → Option String
  | notPositive => some "Display dimensions must be positive"
  | noSuchPixel => none

/-- A display drawn on: what the renderer is told, and whether a lit pixel went
    dark. -/
structure Drawing (width height : Nat) where
  display : Display width height
  commands : List RenderCommand
  collided : Bool

namespace Display

/-- Columns of the machine's display. -/
abbrev standardWidth : Nat := 64

/-- Rows of the machine's display. -/
abbrev standardHeight : Nat := 32

/-- Refreshes per second. -/
def frequency : Float := 60.0

variable {width height : Nat}

/-- A dark display. -/
def dark (width height : Nat) (changed : Bool) : Display width height :=
  ⟨Vector.replicate (width * height) false, changed⟩

/-- A dark display of the size that two integers give. -/
def create (width height : Int) : Except DisplayError ((w : Nat) × (h : Nat) × Display w h) :=
  if width ≤ 0 ∨ height ≤ 0 then .error .notPositive
  else .ok ⟨width.toNat, height.toNat, dark _ _ false⟩

/-- The offset of a position, nothing if it is clipped. -/
def locate (width height : Nat) (edges : Edges) (x y : Int) : Option Int :=
  match edges with
  | .wrap => some (y % height * width + x % width)
  | .clip => if x ≥ width ∨ y ≥ height then none else some (y * width + x)

/-- The pixel of an offset flipped. -/
def toggle (d : Display width height) (offset : Int) (cell : Fin (width * height)) :
    Drawing width height :=
  let lit := !d.cells[cell]
  { display := ⟨d.cells.set cell lit, true⟩
    commands := [.pixel (offset % width) (offset / width) lit]
    collided := d.cells[cell] }

/-- The pixels of offsets flipped one after the other. -/
def toggleAll (d : Display width height) : List Int → Drawing width height
  | [] => ⟨d, [], false⟩
  | offset :: rest =>
    match position? (width * height) offset with
    | none => d.toggleAll rest
    | some cell =>
      let first := d.toggle offset cell
      let others := first.display.toggleAll rest
      ⟨others.display, first.commands ++ others.commands, first.collided || others.collided⟩

-- Powers are those of `Nat` itself, also where it has others from some algebraic structure.
attribute [local instance (high)] instPowNat

/-- Whether a sprite row has a set bit in a column, the high bit of its low
    byte being the leftmost. -/
def rowBit (row : Int) (column : Nat) : Bool :=
  (row % 256).toNat / 2 ^ (7 - column) % 2 == 1

/-- The offsets of a sprite row's set bits from a position on. -/
def rowOffsets (width height : Nat) (edges : Edges) (x y : Int) (row : Int) : List Int :=
  (List.range 8).filterMap fun column =>
    if rowBit row column then locate width height edges (x + Int.ofNat column) y else none

/-- The offsets of a sprite's set bits from a position on, row by row. -/
def spriteOffsets (width height : Nat) (edges : Edges) (x y : Int) : List Int → List Int
  | [] => []
  | row :: rest =>
    rowOffsets width height edges x y row ++ spriteOffsets width height edges x (y + 1) rest

/-- Draws a sprite, its start wrapped into the grid. -/
def draw (d : Display width height) (edges : Edges) (x y : Int) (rows : List Int) :
    Drawing width height :=
  d.toggleAll (spriteOffsets width height edges (x % width) (y % height) rows)

/-- Flips a single pixel; nothing happens, and no answer is given, if it is
    clipped. -/
def flip (d : Display width height) (edges : Edges) (x y : Int) :
    Except DisplayError (Option (Drawing width height)) :=
  match locate width height edges x y with
  | none => .ok none
  | some offset =>
    match position? (width * height) offset with
    | some cell => .ok (some (d.toggle offset cell))
    | none => .error .noSuchPixel

/-- Whether a pixel is lit; a clipped one is not. -/
def pixel (d : Display width height) (edges : Edges) (x y : Int) : Except DisplayError Bool :=
  match locate width height edges x y with
  | none => .ok false
  | some offset =>
    match position? (width * height) offset with
    | some cell => .ok d.cells[cell]
    | none => .error .noSuchPixel

/-- What the renderer is told when a grid of some size is cleared. -/
def erasure (width height : Nat) : List RenderCommand :=
  (List.range height).flatMap fun y =>
    (List.range width).map fun x => .pixel (Int.ofNat x) (Int.ofNat y) false

/-- Clears the grid. -/
def clear (_ : Display width height) : Drawing width height :=
  ⟨dark width height true, erasure width height, false⟩

/-- Shows the picture. -/
def refresh (d : Display width height) : Drawing width height :=
  ⟨{ d with changed := false }, [.refresh d.changed], false⟩

/-- The rows of the grid. -/
def rows (d : Display width height) : List (List Bool) :=
  (List.range height).map fun y => (d.cells.toList.drop (y * width)).take width

/-- Number of lit pixels. -/
def litCount (d : Display width height) : Nat :=
  d.cells.toList.count true

end Display

end Chip8
