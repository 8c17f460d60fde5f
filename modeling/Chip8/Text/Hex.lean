/-!
# Hexadecimal text

Numbers are shown in lower-case hexadecimal, padded with zeros to a width that
counts the sign: `text 3 (-1)` is `-01`. A sequence of bytes is written as two
digits a byte (`ofBytes`) and read back by `toBytes?`.
-/

namespace Chip8.Hex

/-- The hexadecimal digits of a natural number, most significant first. -/
def digits (n : Nat) : List Char :=
  Nat.toDigits 16 n

/-- An integer in hexadecimal, zeros filling up to `width` characters between
    the sign and the digits. -/
def text (width : Nat) (k : Int) : String :=
  let sign := if k < 0 then ['-'] else []
  let body := digits k.natAbs
  String.ofList (sign ++ List.replicate (width - sign.length - body.length) '0' ++ body)

/-- The digit standing for `n`, which is below 16. -/
def digit (n : Nat) : Char :=
  if n < 10 then Char.ofNat (48 + n) else Char.ofNat (87 + n)

/-- The value of a hexadecimal digit of either case. -/
def value? (c : Char) : Option Nat :=
  if '0' ≤ c ∧ c ≤ '9' then some (c.toNat - 48)
  else if 'a' ≤ c ∧ c ≤ 'f' then some (c.toNat - 87)
  else if 'A' ≤ c ∧ c ≤ 'F' then some (c.toNat - 55)
  else none

/-- The two digits of a byte. -/
def byteDigits (b : UInt8) : List Char :=
  [digit (b.toNat / 16), digit (b.toNat % 16)]

/-- The bytes, two digits each. -/
def ofBytes (bytes : List UInt8) : String :=
  String.ofList (bytes.flatMap byteDigits)

/-- The bytes that pairs of digits stand for, if there is nothing else. -/
def toBytes? : List Char → Option (List UInt8)
  | [] => some []
  | high :: low :: rest => do
    let h ← value? high
    let l ← value? low
    return UInt8.ofNat (16 * h + l) :: (← toBytes? rest)
  | [_] => none

end Chip8.Hex
