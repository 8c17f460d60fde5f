import Chip8.Input.Reader

/-!
# Keys of a terminal

A terminal only tells of typed characters, never of a key being released. So a
key is taken to be held for a short time after its character was polled, and a
keyboard that repeats characters keeps it held.
-/

namespace Chip8.Input

/-- The reader, and for each key until when it is held. -/
structure Terminal where
  keymap : Keymap
  reader : Reader Key
  heldUntil : Vector Float 16

namespace Terminal

/-- Characters that wait between two polls at most. -/
def queueSize : Nat := 16

/-- How long a key is held, in seconds. -/
def holdTime : Float := 0.2

/-- No character typed and no key held. -/
def start (keymap : Keymap) : Terminal :=
  ⟨keymap, Reader.start queueSize, Vector.replicate 16 0.0⟩

/-- A character is typed. -/
def type (t : Terminal) (char : Int) : Terminal :=
  { t with reader := (t.reader.read t.keymap.key? char).1 }

/-- Keys held from now on until a time. -/
def hold (t : Terminal) (deadline : Float) : List Key → Terminal
  | [] => t
  | key :: rest =>
    hold { t with heldUntil := t.heldUntil.set key deadline key.lt_sixteen } deadline rest

/-- Takes the waiting characters at a time; whether they ask to quit. -/
def poll (t : Terminal) (now : Float) : Terminal × Bool :=
  let (keys, quits, reader) := t.reader.takeAll
  (hold { t with reader := reader } (now + holdTime) keys, quits)

/-- Whether a key is held at a time. -/
def isHeld (t : Terminal) (now : Float) (key : Key) : Bool :=
  t.heldUntil[key] > now

/-- Asks the reader to end. -/
def close (t : Terminal) : Terminal :=
  { t with reader := t.reader.ask }

end Terminal

end Chip8.Input
