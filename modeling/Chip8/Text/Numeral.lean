/-!
# Whole numbers in text

A numeral is an optional sign and decimal digits, of any script, among which
single underscores may stand; blanks around it do not count. With a radix mark
(`0x`, `0o`, `0b`) the digits are those of the radix, one underscore may follow
the mark, and an unmarked numeral with a leading zero is only allowed to be
zero.

* `readDecimal?`: a decimal numeral;
* `readMarked?`: a numeral with or without a radix mark;
* `writeDecimal?`: the decimal numeral of a whole number.

A decimal numeral of more than `digitLimit` digits is neither read nor written.
-/

namespace Chip8.Numeral

/-- The zeros of the scripts that have decimal digits, each followed by its
    digits 1 to 9 (Unicode 14). -/
def zeros : List Nat :=
  [
    0x30, 0x660, 0x6f0, 0x7c0, 0x966, 0x9e6, 0xa66, 0xae6, 0xb66, 0xbe6, 0xc66, 0xce6, 0xd66,
    0xde6, 0xe50, 0xed0, 0xf20, 0x1040, 0x1090, 0x17e0, 0x1810, 0x1946, 0x19d0, 0x1a80, 0x1a90,
    0x1b50, 0x1bb0, 0x1c40, 0x1c50, 0xa620, 0xa8d0, 0xa900, 0xa9d0, 0xa9f0, 0xaa50, 0xabf0,
    0xff10, 0x104a0, 0x10d30, 0x11066, 0x110f0, 0x11136, 0x111d0, 0x112f0, 0x11450, 0x114d0,
    0x11650, 0x116c0, 0x11730, 0x118e0, 0x11950, 0x11c50, 0x11d50, 0x11da0, 0x16a60, 0x16ac0,
    0x16b50, 0x1d7ce, 0x1d7d8, 0x1d7e2, 0x1d7ec, 0x1d7f6, 0x1e140, 0x1e2f0, 0x1e950, 0x1fbf0
  ]

/-- The blanks beyond ASCII. -/
def wideBlanks : List Nat :=
  [
    0x85, 0xa0, 0x1680, 0x2000, 0x2001, 0x2002, 0x2003, 0x2004, 0x2005, 0x2006, 0x2007, 0x2008,
    0x2009, 0x200a, 0x2028, 0x2029, 0x202f, 0x205f, 0x3000
  ]

/-- The value of a decimal digit of any script. -/
def decimalDigit? (c : Char) : Option Nat :=
  (zeros.find? fun first => first ≤ c.toNat && c.toNat < first + 10).map (c.toNat - ·)

/-- Whether a character is a blank: a space, a tab, a line break or a page
    break of ASCII, or a wide blank. -/
def isBlank (c : Char) : Bool :=
  c == ' ' || (9 ≤ c.toNat && c.toNat ≤ 13) || wideBlanks.contains c.toNat

/-- The value of a digit of some radix: the letters go on from ten. -/
def digitValue? (c : Char) : Option Nat :=
  match decimalDigit? c with
  | some d => some d
  | none =>
    if 'a' ≤ c ∧ c ≤ 'z' then some (c.toNat - 87)
    else if 'A' ≤ c ∧ c ≤ 'Z' then some (c.toNat - 55)
    else none

/-- The value of digits with single underscores between them, read after
    `value`; an underscore may only come after a digit. -/
def readDigits? (radix : Nat) : Nat → Bool → List Char → Option Nat
  | value, afterDigit, [] => if afterDigit then some value else none
  | value, afterDigit, c :: rest =>
    if c = '_' then (if afterDigit then readDigits? radix value false rest else none)
    else do
      let d ← digitValue? c
      if d < radix then readDigits? radix (radix * value + d) true rest else none

/-- Digits that a decimal numeral has at most. -/
def digitLimit : Nat := 4300

/-- The value of decimal digits, if there are not too many. -/
def readUnsigned? (digits : List Char) : Option Nat :=
  if (digits.filter (· != '_')).length ≤ digitLimit then readDigits? 10 0 false digits else none

/-- The text without the blanks around it. -/
def trimBlanks (text : List Char) : List Char :=
  ((text.dropWhile isBlank).reverse.dropWhile isBlank).reverse

/-- A signed value, the sign standing right before it. -/
def readSigned? (unsigned : List Char → Option Nat) : List Char → Option Int
  | '+' :: rest => (unsigned rest).map Int.ofNat
  | '-' :: rest => (unsigned rest).map fun n => -Int.ofNat n
  | rest => (unsigned rest).map Int.ofNat

/-- The value of a decimal numeral. -/
def readDecimal? (text : String) : Option Int :=
  readSigned? readUnsigned? (trimBlanks text.toList)

/-- The decimal numeral of a whole number, if it does not have too many digits. -/
def writeDecimal? (k : Int) : Option String :=
  if k.natAbs < Nat.pow 10 digitLimit then some (toString k) else none

/-- The radix that a letter marks after a zero. -/
def markedRadix? (c : Char) : Option Nat :=
  match c with
  | 'x' | 'X' => some 16
  | 'o' | 'O' => some 8
  | 'b' | 'B' => some 2
  | _ => none

/-- The value of digits after a radix mark. -/
def readAfterMark? (radix : Nat) : List Char → Option Nat
  | '_' :: rest => readDigits? radix 0 false rest
  | rest => readDigits? radix 0 false rest

/-- The value of unsigned digits with or without a radix mark. -/
def readMarkedUnsigned? (digits : List Char) : Option Nat :=
  match digits with
  | first :: mark :: rest =>
    if decimalDigit? first = some 0 then
      match markedRadix? mark with
      | some radix => readAfterMark? radix rest
      | none => (readUnsigned? digits).filter (· == 0)
    else readUnsigned? digits
  | _ => readUnsigned? digits

/-- The value of a numeral with or without a radix mark. -/
def readMarked? (text : String) : Option Int :=
  readSigned? readMarkedUnsigned? (trimBlanks text.toList)

end Chip8.Numeral
