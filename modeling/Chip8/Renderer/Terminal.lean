import Chip8.HostCall
import Chip8.Renderer.Error
import Chip8.Renderer.Plain
import Chip8.Text.Split

/-!
# The terminal renderer

A pixel is a block of spaces, reversed if it is lit, as many as the scale says.
They are written to a pad, a sheet that is larger than the terminal may be and
of which the visible part is shown when the picture is due. The title takes the
first row of the pad, and a spare column lets the last pixel be written.

The pad is only shown again if something was written since, or if the terminal
has another size than before.
-/

namespace Chip8.Renderer

/-- The terminal that the host offers: its rows and columns, and whether
    programs can be told of a new size. -/
structure TerminalHost where
  rows : Int
  columns : Int
  resizable : Bool
  deriving DecidableEq, Repr

/-- The state of a terminal renderer. -/
structure Terminal where
  base : Plain
  /-- Spaces in a pixel. -/
  scale : Int
  host : TerminalHost
  /-- The terminal's size when the picture was last due. -/
  shownSize : Option (Int × Int)
  /-- Whether something was written since the pad was shown. -/
  needed : Bool

namespace Terminal

/-- The scale used unless one is given. -/
def standardScale : Int := 2

/-- The call that makes a pad for a picture. -/
def padCall (scale width height : Int) : HostCall :=
  .newPad (height + 1) (width * scale + 1)

/-- Takes the terminal over. -/
def start (host : TerminalHost) (scale cursor : Value) :
    Except RendererError Terminal × List HostCall :=
  let given := match scale with
    | .null => some standardScale
    | v => v.whole?
  match given with
  | none => (.error .unsuitableScale, [])
  | some k =>
    (.ok ⟨Plain.make (.number (.whole k)), k, host, none, false⟩,
      [.openTerminal, .noEcho, .characterMode, .setCursor cursor, padCall k 0 0])

/-- The text of a pixel. -/
def block (t : Terminal) : String :=
  String.ofList (List.replicate t.scale.toNat ' ')

/-- The text of a title, as long as the picture is wide. -/
def titleLine (t : Terminal) (text : String) : String :=
  let length := t.base.width * t.scale
  String.ofList (Text.padRight length (Text.cut length text.toList))

/-- The calls that follow a new size of the terminal. -/
def resizeCalls (host : TerminalHost) : List HostCall :=
  .clearScreen ::
    ((if host.resizable then [HostCall.resizeTerminal host.rows host.columns] else []) ++
      [.refreshScreen])

/-- Shows the pad if there is a reason to. -/
def refresh (t : Terminal) : Terminal × List HostCall :=
  let size := (t.host.rows, t.host.columns)
  let resized := t.shownSize ≠ some size
  let calls := if resized then resizeCalls t.host else []
  let shown := if resized ∨ t.needed then
      [HostCall.showPad (t.host.rows - 1) (t.host.columns - 1)]
    else []
  ({ t with shownSize := some size, needed := false }, .readSize :: (calls ++ shown))

/-- Carries out a command. -/
def handle (t : Terminal) (c : RenderCommand) : Terminal × List HostCall :=
  let after := { t with base := t.base.handle c }
  match c with
  | .resolution width height => (after, [padCall t.scale width height])
  | .pixel x y lit =>
    ({ after with needed := true }, [.write (y + 1) (x * t.scale) t.block lit])
  | .refresh _ => after.refresh
  | .title text =>
    if t.base.width ≠ 0 then
      ({ after with needed := true }, [.write 0 0 (t.titleLine text) true])
    else (after, [])

/-- The calls that give the terminal back. -/
def closeCalls : List HostCall :=
  [.lineMode, .echo, .setCursor (.number (.whole 1)), .closeTerminal]

end Terminal

end Chip8.Renderer
