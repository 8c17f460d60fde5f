import Chip8.Keypad
import Chip8.Text.LowerCase
import Chip8.Text.Numeral
import Chip8.Text.Split

/-!
# Keymaps

Which code of the host's keyboard stands for which key of the keypad: sixteen
different numbers, separated by commas, for the keys `0` to `F` in turn. Where
the codes are characters they are folded to lower case, and a number that is no
character, or whose lower case is not a single one, cannot be.
-/

namespace Chip8

/-- Why a code cannot be folded to lower case. -/
inductive FoldError
  /-- It is no code point. -/
  | notCodePoint
  /-- It is beyond the range of signed 32-bit numbers. -/
  | tooLarge
  /-- Its lower case has several characters. -/
  | severalCharacters
  deriving DecidableEq, Repr

/-- The lower case of a character code. -/
def foldCode (code : Int) : Except FoldError Int :=
  if code < -2147483648 ∨ code > 2147483647 then .error .tooLarge
  else if code < 0 ∨ code > 0x10FFFF then .error .notCodePoint
  else
    match Text.lowerCode? code.toNat with
    | some lower => .ok lower
    | none => .error .severalCharacters

/-- Why a keymap is refused. -/
inductive KeymapError
  | wrongCount
  | notNumbers
  | duplicate
  | fold (e : FoldError)
  deriving DecidableEq, Repr

/-- The text of a refusal that has one. -/
def KeymapError.message? : KeymapError → Option String
  | wrongCount =>
    some "Incorrect number of keys defined -- 16 required.  Use commas to split numbers"
  | notNumbers => some "Defined keys are not all integer values"
  | duplicate => some "Duplicate keys defined"
  | fold _ => none

/-- The codes of the keys `0` to `F`. -/
structure Keymap where
  codes : List Int
  deriving DecidableEq, Repr

namespace Keymap

/-- The keymap used unless another is asked for. -/
def standardText : String := "120,49,50,51,113,119,101,97,115,100,122,99,52,114,102,118"

/-- The code that a part of the text gives. -/
def readCode (fold : Bool) (part : List Char) : Except KeymapError Int :=
  match Numeral.readDecimal? (String.ofList part) with
  | none => .error .notNumbers
  | some code => if fold then (foldCode code).mapError .fold else .ok code

/-- The codes of the parts, none of them among those before. -/
def readCodes (fold : Bool) (before : List Int) :
    List (List Char) → Except KeymapError (List Int)
  | [] => .ok []
  | part :: rest => do
    let code ← readCode fold part
    if before.contains code then throw .duplicate
    return code :: (← readCodes fold (code :: before) rest)

/-- The keymap that a text describes, its codes folded to lower case or not. -/
def parse (text : String) (fold : Bool) : Except KeymapError Keymap :=
  let parts := Text.splitAt ',' text.toList
  if parts.length ≠ Keypad.keys then .error .wrongCount
  else (readCodes fold [] parts).map .mk

/-- The key that a code stands for. -/
def key? (k : Keymap) (code : Int) : Option Key :=
  match k.codes.idxOf? code with
  | some i => if h : i < 16 then some ⟨i, h⟩ else none
  | none => none

end Keymap

end Chip8
