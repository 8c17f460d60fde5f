import Chip8.Bytes
import Chip8.HostCall
import Chip8.Palette
import Chip8.Product
import Chip8.Renderer.Error
import Chip8.Renderer.Plain

/-!
# The window renderer

The picture is kept as a row of bytes, the colours of the pixels one after the
other, and handed to the window whenever it is due and has changed. A window is
half as high as it is wide.

A pixel is written by replacing three bytes, so a palette with a shorter colour
cannot write it: the command fails and the picture stays as it is.
-/

namespace Chip8

namespace Renderer

/-- A row of bytes of some size. -/
structure Picture where
  size : Nat
  bytes : Vector UInt8 size

namespace Picture

/-- The colour repeated. -/
def filled (colour : List UInt8) (pixels : Nat) : Picture :=
  let bytes := (List.replicate pixels colour).flatten.toArray
  ⟨bytes.size, ⟨bytes, rfl⟩⟩

/-- The picture with the colour in place of the three bytes of a pixel. -/
def setPixel? (p : Picture) (pixel : Int) (colour : List UInt8) : Option Picture :=
  (overwrite? p.bytes (Span.of p.size (pixel * 3) (pixel * 3 + 3)) colour).map (⟨p.size, ·⟩)

end Picture

/-- The state of a window renderer. -/
structure Window where
  base : Plain
  /-- Half of the scale, the height of the window. -/
  half : Value
  palette : Palette
  picture : Picture

namespace Window

/-- The width of a window unless a scale is given. -/
def standardScale : Value := .number (.whole 512)

/-- Half of a number, rounded down. -/
def halved? (v : Value) : Option Value :=
  match v.number? with
  | some (.whole k) => some (.number (.whole (k / 2)))
  | some (.real x) => some (.number (.real (x / 2.0).floor))
  | none => none

/-- The palette that a value gives. -/
def readPalette (v : Value) : Except RendererError Palette :=
  match v with
  | .null => (Palette.parse Palette.standardText).mapError .palette
  | .text t => (Palette.parse t).mapError .palette
  | _ => .error .unsuitablePalette

/-- Opens a window. -/
def start (scale palette : Value) : Except RendererError Window × List HostCall :=
  let scale := match scale with
    | .null => standardScale
    | given => given
  match halved? scale with
  | none => (.error .unsuitableScale, [.openDisplay])
  | some half =>
    let calls := [HostCall.openDisplay, .setMode scale half]
    match readPalette palette with
    | .error e => (.error e, calls)
    | .ok p =>
      let base := ((Plain.make scale).handle (.refresh true)).handle (.title Product.name)
      (.ok ⟨base, half, p, Picture.filled p.background 0⟩, calls ++ [.setCaption Product.name])

/-- The calls that show the picture. -/
def showCalls (w : Window) : List HostCall :=
  if w.base.width ≠ 0 ∧ w.base.height ≠ 0 then
    [.picture w.picture.size w.base.width w.base.height, .scalePicture w.base.scale w.half, .blit,
      .flip]
  else []

/-- Carries out a command. A new size makes a new picture, shown at once. -/
def handle (w : Window) (c : RenderCommand) : Except RendererError (Window × List HostCall) :=
  let after := { w with base := w.base.handle c }
  match c with
  | .resolution width height =>
    let sized := { after with
      base := after.base.handle (.refresh true)
      picture := Picture.filled w.palette.background (width * height).toNat }
    .ok (sized, sized.showCalls)
  | .pixel x y lit =>
    match w.picture.setPixel? (y * w.base.width + x) (w.palette.colour lit) with
    | some picture => .ok ({ w with picture := picture }, [])
    | none => .error .colourSize
  | .refresh changed => .ok (after, if changed then w.showCalls else [])
  | .title text => .ok (after, [.setCaption text])

/-- The calls that close the window. -/
def closeCalls : List HostCall := [.closeDisplay]

end Window

end Renderer

end Chip8
