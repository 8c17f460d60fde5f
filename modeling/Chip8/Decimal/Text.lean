import Chip8.Decimal.Shortest

/-!
# The text of a binary fraction

The digits of the shortest decimal, laid out by a `Layout`: positionally while
the first digit's place is within bounds, with an exponent beyond them.
-/

namespace Chip8.Decimal

/-- How the digits of a decimal are laid out. -/
structure Layout where
  /-- The least power of ten written positionally. -/
  leastPower : Int
  /-- The greatest power of ten written positionally. -/
  greatestPower : Int
  /-- Digits that an exponent has at least. -/
  exponentDigits : Nat

/-- Values are positional from 0.0001 up to 10^16, keep one digit after the
    point, and have exponents of two digits or more beyond. -/
def Layout.standard : Layout := ⟨-4, 15, 2⟩

/-- The digits of a natural number. -/
def naturalDigits (n : Nat) : List Char :=
  Nat.toDigits 10 n

/-- Digits without the zeros at their end, one at least. -/
def trimmed (digits : List Char) : List Char :=
  match (digits.reverse.dropWhile (· == '0')).reverse with
  | [] => ['0']
  | rest => rest

/-- Digits with zeros before them, up to a width. -/
def padded (width : Nat) (digits : List Char) : List Char :=
  List.replicate (width - digits.length) '0' ++ digits

/-- Digits standing for `0.d₀d₁… · 10^place`, positionally. -/
def positional (digits : List Char) (place : Int) : List Char :=
  if place ≤ 0 then '0' :: '.' :: List.replicate place.natAbs '0' ++ digits
  else
    let whole := digits.take place.natAbs
    let rest := digits.drop place.natAbs
    whole ++ List.replicate (place.natAbs - whole.length) '0' ++ '.' ::
      (if rest.isEmpty then ['0'] else rest)

/-- Digits standing for `d₀.d₁… · 10^power`, with that exponent. -/
def scientific (layout : Layout) (digits : List Char) (power : Int) : List Char :=
  let fraction := digits.drop 1
  digits.take 1 ++ (if fraction.isEmpty then [] else '.' :: fraction) ++ 'e' ::
    (if power < 0 then '-' else '+') ::
    padded layout.exponentDigits (naturalDigits power.natAbs)

/-- The text of a decimal. -/
def Scientific.text (layout : Layout) (s : Scientific) : List Char :=
  let all := naturalDigits s.digits
  if s.digits = 0 then positional ['0'] 1
  else
    let place := all.length + s.exponent
    let digits := trimmed all
    if layout.leastPower ≤ place - 1 ∧ place - 1 ≤ layout.greatestPower then
      positional digits place
    else scientific layout digits (place - 1)

/-- The text of a double: its sign and its shortest decimal. -/
def text (x : Float) : String :=
  match dyadic? x with
  | some d =>
    String.ofList ((if negative x then ['-'] else []) ++ (shortest d).text .standard)
  | none => if x == x then (if negative x then "-inf" else "inf") else "nan"

end Chip8.Decimal
