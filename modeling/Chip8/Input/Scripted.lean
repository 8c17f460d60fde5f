import Chip8.Keypad

/-!
# Scripted keys

A prepared course of key presses, one frame for every poll: a frame may say
which keys are held from then on, and may ask to quit. Past the last frame
nothing changes.
-/

namespace Chip8.Input

/-- What a poll brings. -/
structure Frame where
  held : Option (List Int)
  quit : Bool
  deriving DecidableEq, Repr

/-- The frames to come, and the keys that are held. -/
structure Scripted where
  frames : List Frame
  held : List Int
  deriving DecidableEq, Repr

namespace Scripted

/-- The next frame. -/
def poll (s : Scripted) : Scripted × Bool :=
  match s.frames with
  | [] => (s, false)
  | frame :: rest => (⟨rest, frame.held.getD s.held⟩, frame.quit)

/-- Whether a key is held. -/
def isHeld (s : Scripted) (key : Key) : Bool :=
  s.held.contains key.val

end Scripted

end Chip8.Input
