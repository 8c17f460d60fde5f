import Chip8.Buzzer
import Chip8.Input
import Chip8.Renderer
import Chip8.Value.Text

/-!
# Which host to use

A session needs an input, a renderer and a buzzer that go together. Unless a
renderer is asked for, a window is used if the host can open one and a terminal
otherwise. A window plays a tone unless it is to be mute; a terminal is mute
unless it is not to be.
-/

namespace Chip8

/-- What the host can do: open windows and take terminals over. -/
structure Capabilities where
  window : Bool
  terminal : Bool
  deriving DecidableEq, Repr

/-- An input, a renderer and a buzzer. -/
structure Plugins where
  input : InputKind
  renderer : RendererKind
  buzzer : BuzzerKind
  deriving DecidableEq, Repr

/-- Why there is nothing to use. -/
inductive PluginError
  | noWindow
  | noTerminal
  | nothing
  | unknown (renderer : Value)

/-- The text of a refusal. There is none if the value that it is about has none. -/
def PluginError.message? : PluginError → Option String
  | noWindow => some "PyGame does not appear to be installed."
  | noTerminal => some "Curses (or Windows-Curses) does not appear to be installed."
  | nothing => some "Neither PyGame nor Curses (or Windows-Curses) appear to be installed."
  | unknown renderer => renderer.shown?.map fun text => "Unknown renderer '" ++ text ++ "'."

namespace Plugins

/-- What goes with a window. -/
def window (mute : Value) : Plugins :=
  ⟨.window, .window, if mute.truthy then .mute else .tone⟩

/-- What goes with a terminal. -/
def terminal (mute : Value) : Plugins :=
  let silent := match mute with
    | .null => true
    | given => given.truthy
  ⟨.terminal, .terminal, if silent then .mute else .bell⟩

/-- What goes with nothing at all. -/
def plain : Plugins := ⟨.none, .plain, .mute⟩

/-- What to use for the renderer that an option names. -/
def select (can : Capabilities) (renderer mute : Value) : Except PluginError Plugins :=
  match renderer with
  | .null =>
    if can.window then .ok (window mute)
    else if can.terminal then .ok (terminal mute)
    else .error .nothing
  | .text "pygame" => if can.window then .ok (window mute) else .error .noWindow
  | .text "curses" => if can.terminal then .ok (terminal mute) else .error .noTerminal
  | .text "null" => .ok plain
  | other => .error (.unknown other)

end Plugins

end Chip8
