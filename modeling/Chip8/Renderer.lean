import Chip8.Renderer.Terminal
import Chip8.Renderer.Window

/-!
# Renderers

A renderer is plain, a window or a terminal. It is told what to show by
commands and asks the host for it by calls; only a window can fail to carry out
a command.
-/

namespace Chip8

/-- The kinds of renderers. -/
inductive RendererKind
  | plain
  | window
  | terminal
  deriving DecidableEq, Repr

/-- A renderer. -/
inductive Renderer
  | plain (r : Renderer.Plain)
  | window (w : Renderer.Window)
  | terminal (t : Renderer.Terminal)

namespace Renderer

/-- What a renderer is made with: options of any value, and the terminal. -/
structure Options where
  scale : Value
  palette : Value
  cursor : Value
  host : TerminalHost

/-- Makes a renderer. -/
def start (kind : RendererKind) (o : Options) : Except RendererError Renderer × List HostCall :=
  match kind with
  | .plain => (.ok (.plain (Plain.make o.scale)), [])
  | .window =>
    let (made, calls) := Window.start o.scale o.palette
    (made.map .window, calls)
  | .terminal =>
    let (made, calls) := Terminal.start o.host o.scale o.cursor
    (made.map .terminal, calls)

/-- Carries out a command. -/
def handle (r : Renderer) (c : RenderCommand) : Except RendererError (Renderer × List HostCall) :=
  match r with
  | plain p => .ok (.plain (p.handle c), [])
  | window w => (w.handle c).map fun (w, calls) => (.window w, calls)
  | terminal t =>
    let (t, calls) := t.handle c
    .ok (.terminal t, calls)

/-- The calls that release what the renderer holds of the host. -/
def closeCalls : Renderer → List HostCall
  | plain _ => []
  | window _ => Window.closeCalls
  | terminal _ => Terminal.closeCalls

end Renderer

end Chip8
