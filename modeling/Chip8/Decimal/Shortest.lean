/-!
# The shortest decimal of a binary fraction

A finite double is `m · 2^q` for a whole `m`, and stands for every real that
rounds to it: those up to half way to its neighbours, the ends included when
`m` is even. Of the decimals in that interval the shortest is the one with the
fewest digits, and of several with as many digits the nearest.

* `Dyadic`: the exact value of a double (`Float.dyadic?`);
* `shortest`: its shortest decimal, as digits and the place of the point.

The search goes through the grids of 1, 2, … 17 digits. If a grid has a point
in the interval, so is one of the two points next to the value, hence only
those are tried.
-/

namespace Chip8.Decimal

-- Powers are those of `Nat` itself, also where it has others from some algebraic structure.
attribute [local instance (high)] instPowNat

/-- A positive or zero dyadic rational `m · 2^q`, with the gap below it half as
    wide as the gap above when `m` is the least of its binade. -/
structure Dyadic where
  m : Nat
  q : Int
  least : Bool
  deriving DecidableEq, Repr

/-- The magnitude of a finite double, or nothing. -/
def dyadic? (x : Float) : Option Dyadic :=
  let bits := x.toBits.toNat
  let exponent : Nat := bits / 2 ^ (52 : Nat) % 2 ^ (11 : Nat)
  let fraction : Nat := bits % 2 ^ (52 : Nat)
  if exponent = 2047 then none
  else if exponent = 0 then some ⟨fraction, -1074, false⟩
  else some ⟨2 ^ (52 : Nat) + fraction, Int.ofNat exponent - 1075, fraction == 0 && exponent != 1⟩

/-- Whether the sign bit is set. -/
def negative (x : Float) : Bool :=
  x.toBits.toNat / 2 ^ (63 : Nat) == 1

/-- A ratio of naturals. -/
structure Ratio where
  num : Nat
  den : Nat
  deriving DecidableEq, Repr

namespace Ratio

/-- The ratio `k · 2^q`. -/
def scaled (k : Nat) (q : Int) : Ratio :=
  if q < 0 then ⟨k, 2 ^ q.natAbs⟩ else ⟨k * 2 ^ q.natAbs, 1⟩

/-- The ratio `k · 10^e`. -/
def decimal (k : Nat) (e : Int) : Ratio :=
  if e < 0 then ⟨k, 10 ^ e.natAbs⟩ else ⟨k * 10 ^ e.natAbs, 1⟩

/-- Order of the values. -/
def le (a b : Ratio) : Bool :=
  a.num * b.den ≤ b.num * a.den

/-- The multiples of `10^e` not above the ratio. -/
def floorDecimal (a : Ratio) (e : Int) : Nat :=
  if e < 0 then a.num * 10 ^ e.natAbs / a.den else a.num / (a.den * 10 ^ e.natAbs)

/-- Twice the ratio. -/
def double (a : Ratio) : Ratio :=
  ⟨2 * a.num, a.den⟩

end Ratio

/-- The reals that round to a dyadic: its ends, and whether they belong to it. -/
structure Interval where
  low : Ratio
  high : Ratio
  closed : Bool

namespace Interval

/-- The interval of a dyadic. -/
def of (d : Dyadic) : Interval where
  low := Ratio.scaled (if d.least then 4 * d.m - 1 else 4 * d.m - 2) (d.q - 2)
  high := Ratio.scaled (4 * d.m + 2) (d.q - 2)
  closed := d.m % 2 == 0

/-- Whether a ratio lies in the interval. -/
def contains (i : Interval) (r : Ratio) : Bool :=
  if i.closed then i.low.le r && r.le i.high else !(r.le i.low) && !(i.high.le r)

end Interval

/-- How many digits stand before the point of a positive ratio, negative for
    zeros that follow it, searching upwards from `start`. -/
def pointPlace (r : Ratio) : Nat → Int → Int
  | 0, place => place
  | fuel + 1, place =>
    if (Ratio.decimal 1 place).le r then pointPlace r fuel (place + 1) else place

/-- The decimal `digits · 10^exponent`. -/
structure Scientific where
  digits : Nat
  exponent : Int
  deriving DecidableEq, Repr

/-- The grid point next to the value that lies in its interval, the nearer one
    if both do and the even one if they are as near. -/
def gridPoint? (r : Ratio) (i : Interval) (e : Int) : Option Nat :=
  let below := r.floorDecimal e
  let lowIn := i.contains (Ratio.decimal below e)
  let highIn := i.contains (Ratio.decimal (below + 1) e)
  let middle := Ratio.decimal (2 * below + 1) e
  match lowIn, highIn with
  | false, false => none
  | true, false => some below
  | false, true => some (below + 1)
  | true, true =>
    if middle.le r.double then
      if r.double.le middle && below % 2 == 0 then some below else some (below + 1)
    else some below

/-- The first grid, of `size` digits or more, with a point in the interval. -/
def search (r : Ratio) (i : Interval) (place : Int) : Nat → Nat → Scientific
  | 0, size => ⟨r.floorDecimal (place - size), place - size⟩
  | fuel + 1, size =>
    match gridPoint? r i (place - size) with
    | some digits => ⟨digits, place - size⟩
    | none => search r i place fuel (size + 1)

/-- The shortest decimal of a dyadic. -/
def shortest (d : Dyadic) : Scientific :=
  if d.m = 0 then ⟨0, 0⟩
  else
    let r := Ratio.scaled d.m d.q
    search r (Interval.of d) (pointPlace r 640 (-330)) 17 1

/-- The integer nearest to a ratio, a half going to the even neighbour. -/
def Ratio.roundEven (r : Ratio) : Nat :=
  let below := r.num / r.den
  let rest := 2 * (r.num % r.den)
  if rest < r.den then below
  else if r.den < rest then below + 1
  else if below % 2 = 0 then below else below + 1

end Chip8.Decimal
