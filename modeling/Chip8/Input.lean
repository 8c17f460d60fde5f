import Chip8.Input.Scripted
import Chip8.Input.Terminal
import Chip8.Input.Window

/-!
# Inputs

Where the held keys come from: nowhere, a script, a window or a terminal. An
input is polled, which may ask to quit, and then asked for every key. Those of
a terminal need the time for both (`Input.timed`), the others do not look at
it.
-/

namespace Chip8

/-- The kinds of inputs that a host may offer. -/
inductive InputKind
  | none
  | window
  | terminal
  deriving DecidableEq, Repr

/-- An input. -/
inductive Input
  | none
  | scripted (s : Input.Scripted)
  | window (w : Input.Window)
  | terminal (t : Input.Terminal)

/-- Something that comes in from the host by itself. -/
inductive Arrival
  | event (e : Input.WindowEvent)
  | typed (char : Int)
  deriving DecidableEq, Repr

namespace Input

/-- Makes an input of a keymap's text; typed characters are folded. -/
def start (kind : InputKind) (keymap : String) : Except KeymapError Input :=
  match kind with
  | .none => (Keymap.parse keymap false).map fun _ => .none
  | .window => (Keymap.parse keymap false).map fun k => .window (Window.start k)
  | .terminal => (Keymap.parse keymap true).map fun k => .terminal (Terminal.start k)

/-- Whether the input needs the time. -/
def timed : Input → Bool
  | terminal _ => true
  | _ => false

/-- Something comes in; an input takes in what is meant for its kind. -/
def deliver (i : Input) (a : Arrival) : Input :=
  match i, a with
  | window w, .event e => .window (w.deliver e)
  | terminal t, .typed char => .terminal (t.type char)
  | other, _ => other

/-- Polls the input at a time; whether it asks to quit. -/
def poll (i : Input) (now : Float) : Input × Bool :=
  match i with
  | none => (none, false)
  | scripted s => let (s, quits) := s.poll; (.scripted s, quits)
  | window w => let (w, quits) := w.poll; (.window w, quits)
  | terminal t => let (t, quits) := t.poll now; (.terminal t, quits)

/-- Whether a key is held at a time. -/
def isHeld (i : Input) (now : Float) (key : Key) : Bool :=
  match i with
  | none => false
  | scripted s => s.isHeld key
  | window w => w.held[key]
  | terminal t => t.isHeld now key

/-- The input asked to end. -/
def close : Input → Input
  | terminal t => .terminal t.close
  | other => other

end Input

end Chip8
