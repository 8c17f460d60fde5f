/-!
# The timers

The delay and the sound timer are bytes that count down to zero, sixty times a
second whatever the speed of execution. The buzzer sounds while the sound timer
is above zero.
-/

namespace Chip8

/-- The delay and the sound timer. -/
structure Timers where
  delay : UInt8 := 0
  sound : UInt8 := 0
  deriving DecidableEq, Repr

namespace Timers

/-- Ticks per second. -/
def frequency : Float := 60.0

/-- A timer one tick later. -/
def countDown (t : UInt8) : UInt8 :=
  if t = 0 then 0 else t - 1

/-- Both timers one tick later. -/
def tick (t : Timers) : Timers :=
  ⟨countDown t.delay, countDown t.sound⟩

/-- Both timers a number of ticks later. -/
def ticks (t : Timers) : Nat → Timers
  | 0 => t
  | n + 1 => t.tick.ticks n

/-- The low byte of a value. -/
def lowByte (value : Int) : UInt8 :=
  UInt8.ofNat (value % 256).toNat

/-- The delay timer set to the low byte of a value. -/
def setDelay (t : Timers) (value : Int) : Timers :=
  { t with delay := lowByte value }

/-- The sound timer set to the low byte of a value. -/
def setSound (t : Timers) (value : Int) : Timers :=
  { t with sound := lowByte value }

/-- Whether the buzzer sounds. -/
def sounding (t : Timers) : Bool :=
  t.sound != 0

end Timers

end Chip8
