import Chip8.Input

/-!
# The clock

Time passes by being looked at: a clock is the readings that are still to come,
each with what came in from the host before it, and looking at it once they are
used up interrupts whoever looks.

* `Clock.times`: the readings of a clock that advances by given steps in turn;
* `Clock.withArrivals`: readings with arrivals handed over by the first reading
  that has reached their time.
-/

namespace Chip8

/-- A look at the clock: the time, and what came in before. -/
structure Reading where
  time : Float
  arrivals : List Arrival

/-- The readings still to come. -/
abbrev Clock := List Reading

namespace Clock

/-- `count` times from a start on, advancing by steps that are used over and
    over. -/
def times (steps : Array Float) (now : Float) : Nat → Nat → List Float
  | 0, _ => []
  | count + 1, k =>
    now :: times steps (now + (steps[k % steps.size]?.getD 0.0)) count (k + 1)

/-- Times with arrivals, in order of their times, handed over as they are
    reached. -/
def withArrivals : List Float → List (Float × Arrival) → Clock
  | [], _ => []
  | t :: rest, arrivals =>
    ⟨t, (arrivals.takeWhile (·.1 ≤ t)).map (·.2)⟩ ::
      withArrivals rest (arrivals.dropWhile (·.1 ≤ t))

/-- A clock of `count` readings. -/
def scripted (start : Float) (steps : List Float) (count : Nat)
    (arrivals : List (Float × Arrival)) : Clock :=
  withArrivals (times steps.toArray start count 0) arrivals

end Clock

end Chip8
