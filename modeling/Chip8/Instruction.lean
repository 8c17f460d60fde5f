/-!
# Instructions

An instruction is a 16-bit word, four hexadecimal digits `h0 h1 h2 h3` of which
the first names a family. Most families hold one form of instruction, the rest
are told apart by their last digits; decoding never fails, a word of no form
being `unknown`.

* `Word`: the fields that operands are read from, `x` = `h1`, `y` = `h2`,
  `n` = `h3`, `kk` = `h2 h3` and `nnn` = `h1 h2 h3`;
* `Form`: the thirty-five forms, each with its `template` of digits that must
  match and letters that stand for any digit;
* `Form.ofWord`: the form of a word.
-/

namespace Chip8

/-- A machine word, as fetched from two neighbouring memory cells. -/
abbrev Word := UInt16

namespace Word

/-- The word that an integer stands for, its low sixteen bits. -/
def ofInt (k : Int) : Word :=
  UInt16.ofNat (k % 65536).toNat

/-- The big-endian word of two bytes. -/
def ofBytes (high low : UInt8) : Word :=
  UInt16.ofNat (256 * high.toNat + low.toNat)

/-- The first digit, naming the family. -/
def family (w : Word) : Nat :=
  w.toNat / 4096

/-- The register named by the second digit. -/
def x (w : Word) : Fin 16 :=
  ⟨w.toNat / 256 % 16, by omega⟩

/-- The register named by the third digit. -/
def y (w : Word) : Fin 16 :=
  ⟨w.toNat / 16 % 16, by omega⟩

/-- The last digit. -/
def n (w : Word) : Nat :=
  w.toNat % 16

/-- The low byte. -/
def kk (w : Word) : UInt8 :=
  UInt8.ofNat (w.toNat % 256)

/-- The address in the last three digits. -/
def nnn (w : Word) : Nat :=
  w.toNat % 4096

end Word

/-- The forms of instruction, `unknown` for a word that has none. -/
inductive Form
  | sys | clear | ret | jump | call
  | skipEqByte | skipNeByte | skipEqReg
  | setByte | addByte
  | copy | or | and | xor | add | sub | shiftRight | subFrom | shiftLeft
  | skipNeReg | setIndex | jumpOffset | random | draw
  | skipHeld | skipReleased
  | readDelay | awaitKey | setDelay | setSound
  | addIndex | glyph | decimal | store | load
  | unknown
  deriving DecidableEq, Repr

namespace Form

/-- The digits and operand letters of a form. -/
def template : Form → String
  | sys => "0nnn"
  | clear => "00E0"
  | ret => "00EE"
  | jump => "1nnn"
  | call => "2nnn"
  | skipEqByte => "3xkk"
  | skipNeByte => "4xkk"
  | skipEqReg => "5xy0"
  | setByte => "6xkk"
  | addByte => "7xkk"
  | copy => "8xy0"
  | or => "8xy1"
  | and => "8xy2"
  | xor => "8xy3"
  | add => "8xy4"
  | sub => "8xy5"
  | shiftRight => "8xy6"
  | subFrom => "8xy7"
  | shiftLeft => "8xyE"
  | skipNeReg => "9xy0"
  | setIndex => "Annn"
  | jumpOffset => "Bnnn"
  | random => "Cxkk"
  | draw => "Dxyn"
  | skipHeld => "Ex9E"
  | skipReleased => "ExA1"
  | readDelay => "Fx07"
  | awaitKey => "Fx0A"
  | setDelay => "Fx15"
  | setSound => "Fx18"
  | addIndex => "Fx1E"
  | glyph => "Fx29"
  | decimal => "Fx33"
  | store => "Fx55"
  | load => "Fx65"
  | unknown => "????"

/-- Every form a word can have, in the order of their digits. -/
def all : List Form :=
  [sys, clear, ret, jump, call, skipEqByte, skipNeByte, skipEqReg, setByte, addByte, copy, or,
    and, xor, add, sub, shiftRight, subFrom, shiftLeft, skipNeReg, setIndex, jumpOffset, random,
    draw, skipHeld, skipReleased, readDelay, awaitKey, setDelay, setSound, addIndex, glyph,
    decimal, store, load]

/-- The form with a given template, that of `unknown` included. -/
def ofTemplate? (t : String) : Option Form :=
  (all ++ [unknown]).find? (·.template == t)

/-- The form of a word: its family decides, then the last digit (families 5, 8
    and 9) or the low byte (families E and F). A word of family 0 that is
    neither `clear` nor `ret` calls a routine of the native processor. -/
def ofWord (w : Word) : Form :=
  match w.family with
  | 0x0 => if w = 0x00E0 then clear else if w = 0x00EE then ret else sys
  | 0x1 => jump
  | 0x2 => call
  | 0x3 => skipEqByte
  | 0x4 => skipNeByte
  | 0x5 => if w.n = 0 then skipEqReg else unknown
  | 0x6 => setByte
  | 0x7 => addByte
  | 0x8 =>
    match w.n with
    | 0x0 => copy
    | 0x1 => or
    | 0x2 => and
    | 0x3 => xor
    | 0x4 => add
    | 0x5 => sub
    | 0x6 => shiftRight
    | 0x7 => subFrom
    | 0xE => shiftLeft
    | _ => unknown
  | 0x9 => if w.n = 0 then skipNeReg else unknown
  | 0xA => setIndex
  | 0xB => jumpOffset
  | 0xC => random
  | 0xD => draw
  | 0xE =>
    match w.kk.toNat with
    | 0x9E => skipHeld
    | 0xA1 => skipReleased
    | _ => unknown
  | 0xF =>
    match w.kk.toNat with
    | 0x07 => readDelay
    | 0x0A => awaitKey
    | 0x15 => setDelay
    | 0x18 => setSound
    | 0x1E => addIndex
    | 0x29 => glyph
    | 0x33 => decimal
    | 0x55 => store
    | 0x65 => load
    | _ => unknown
  | _ => unknown

end Form

/-- A decoded instruction: the word with its form. -/
structure Instruction where
  form : Form
  word : Word
  deriving DecidableEq, Repr

namespace Instruction

/-- The instruction that a word holds. -/
def decode (w : Word) : Instruction :=
  ⟨Form.ofWord w, w⟩

end Instruction

end Chip8
