import Chip8.Keymap

/-!
# Keys of a window

A window tells of keys going down and up, so a key of the keypad is held for as
long as its key on the keyboard is. Closing the window or pressing escape asks
to quit; the events that came with it still count.
-/

namespace Chip8.Input

/-- An event of the window. -/
inductive WindowEvent
  | down (code : Int)
  | up (code : Int)
  | quit
  | other
  deriving DecidableEq, Repr

/-- The code of the escape key. -/
def escapeCode : Int := 27

/-- The held keys, and the events that wait to be looked at. -/
structure Window where
  keymap : Keymap
  held : Vector Bool 16
  waiting : List WindowEvent
  deriving DecidableEq

namespace Window

/-- No key held and no event waiting. -/
def start (keymap : Keymap) : Window :=
  ⟨keymap, Vector.replicate 16 false, []⟩

/-- Holds or releases the key that a code stands for, if it stands for one. -/
def setCode (w : Window) (code : Int) (pressed : Bool) : Window :=
  match w.keymap.key? code with
  | some key => { w with held := w.held.set key pressed key.lt_sixteen }
  | none => w

/-- What an event does to the held keys, and whether it asks to quit. -/
def apply (w : Window) : WindowEvent → Window × Bool
  | .down code => if code = escapeCode then (w, true) else (w.setCode code true, false)
  | .up code => (w.setCode code false, false)
  | .quit => (w, true)
  | .other => (w, false)

/-- What events in turn do to the held keys, and whether any asks to quit. -/
def applyAll (w : Window) : List WindowEvent → Window × Bool
  | [] => (w, false)
  | e :: rest =>
    let (after, quits) := w.apply e
    let (last, quitsLater) := after.applyAll rest
    (last, quits || quitsLater)

/-- Looks at the waiting events. -/
def poll (w : Window) : Window × Bool :=
  applyAll { w with waiting := [] } w.waiting

/-- An event comes in. -/
def deliver (w : Window) (e : WindowEvent) : Window :=
  { w with waiting := w.waiting ++ [e] }

end Window

end Chip8.Input
