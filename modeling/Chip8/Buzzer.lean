import Chip8.Decimal.Shortest
import Chip8.HostCall

/-!
# The buzzer

Sound is either on or off. A tone is a square wave played in a loop while the
buzzer is on, a bell rings once when it is switched on, and a mute buzzer does
nothing.

* `SquareWave.make`: one period of the wave, high for its first half, rounded
  to whole samples;
* `Buzzer.switch`: switching on or off, which calls the host on a change only.
-/

namespace Chip8

/-- Why there is no wave of a frequency. -/
inductive WaveError
  /-- The frequency is zero. -/
  | zeroFrequency
  /-- The period is beyond all numbers. -/
  | endless
  deriving DecidableEq, Repr

namespace SquareWave

/-- Samples per second. -/
def playbackFrequency : Nat := 44100

/-- The frequency of the buzzer's tone. -/
def toneFrequency : Float := 440.0

/-- The whole number nearest to a double, a half going to the even neighbour. -/
def nearest? (x : Float) : Option Int :=
  (Decimal.dyadic? x).map fun d =>
    let magnitude : Int := (Decimal.Ratio.scaled d.m d.q).roundEven
    if Decimal.negative x then -magnitude else magnitude

/-- Samples in a period, two at least. -/
def period (tone playback : Number) : Except WaveError Nat :=
  if tone.isZero then .error .zeroFrequency
  else
    match nearest? (playback.toFloat / tone.toFloat) with
    | some k => .ok (max 2 k.toNat)
    | none => .error .endless

/-- One period of the wave. -/
def make (tone playback : Number) : Except WaveError (List UInt8) := do
  let samples ← period tone playback
  let high := samples / 2
  return List.replicate high 255 ++ List.replicate (samples - high) 0

end SquareWave

/-- The kinds of buzzers. -/
inductive BuzzerKind
  | mute
  | tone
  | bell
  deriving DecidableEq, Repr

/-- A buzzer and whether it is on. -/
structure Buzzer where
  kind : BuzzerKind
  on : Bool
  deriving DecidableEq, Repr

namespace Buzzer

/-- The volume of a tone. -/
def volume : Float := 0.1

/-- The calls before a tone's wave is made. -/
def mixerCalls : List HostCall :=
  [.prepareMixer SquareWave.playbackFrequency 8 1 512, .openMixer]

/-- Makes a buzzer, one with a tone being given its frequency. -/
def start (kind : BuzzerKind) (tone : Number) : Except WaveError Buzzer × List HostCall :=
  match kind with
  | .tone =>
    match SquareWave.make tone (.whole SquareWave.playbackFrequency) with
    | .ok wave => (.ok ⟨kind, false⟩, mixerCalls ++ [.makeSound wave.length, .setVolume volume])
    | .error e => (.error e, mixerCalls)
  | _ => (.ok ⟨kind, false⟩, [])

/-- Switches the buzzer on or off. -/
def switch (b : Buzzer) (on : Bool) : Buzzer × List HostCall :=
  let calls : List HostCall := match b.kind, b.on, on with
    | .tone, false, true => [.playSound]
    | .tone, true, false => [.stopSound]
    | .bell, false, true => [.beep]
    | _, _, _ => []
  ({ b with on := on }, calls)

/-- The calls that release what the buzzer holds of the host. -/
def closeCalls (b : Buzzer) : List HostCall :=
  match b.kind with
  | .tone => [.stopSound, .closeMixer]
  | _ => []

end Buzzer

end Chip8
