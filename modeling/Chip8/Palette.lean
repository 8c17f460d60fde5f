import Chip8.Text.Hex
import Chip8.Text.Split

/-!
# Palettes

The two colours of the picture, background and foreground, written as two
groups of six characters with a comma between them. A group is read as pairs of
hexadecimal digits with blanks allowed between the pairs, so that a group with
blanks makes a colour of fewer than three bytes.
-/

namespace Chip8

/-- The bytes of the two colours. -/
structure Palette where
  background : List UInt8
  foreground : List UInt8
  deriving DecidableEq, Repr

/-- Why a palette is refused. -/
inductive PaletteError
  | colourCount
  | colourLength
  | colourDigits
  deriving DecidableEq, Repr

/-- The text of a refusal. -/
def PaletteError.message : PaletteError → String
  | colourCount => "Palette must define exactly 2 colours: background and foreground."
  | colourLength => "Palette colours must all be 6 hex digits long."
  | colourDigits => "Invalid palette colour defined."

namespace Palette

/-- The palette used unless another is asked for. -/
def standardText : String := "222222,DDDDDD"

/-- The blanks of ASCII. -/
def isBlank (c : Char) : Bool :=
  c == ' ' || (9 ≤ c.toNat && c.toNat ≤ 13)

/-- The bytes of pairs of digits with blanks around the pairs. -/
def readPairs? : List Char → Option (List UInt8)
  | [] => some []
  | [c] => if isBlank c then some [] else none
  | high :: low :: rest =>
    if isBlank high then readPairs? (low :: rest)
    else do
      let h ← Hex.value? high
      let l ← Hex.value? low
      return UInt8.ofNat (16 * h + l) :: (← readPairs? rest)

/-- The bytes of a colour. -/
def readColour (group : List Char) : Except PaletteError (List UInt8) :=
  if group.length ≠ 6 then .error .colourLength
  else
    match readPairs? group with
    | some bytes => .ok bytes
    | none => .error .colourDigits

/-- The palette that a text describes. -/
def parse (text : String) : Except PaletteError Palette :=
  match Text.splitAt ',' text.toList with
  | [first, second] => do
    let background ← readColour first
    let foreground ← readColour second
    return ⟨background, foreground⟩
  | _ => .error .colourCount

/-- The colour of a pixel. -/
def colour (p : Palette) (lit : Bool) : List UInt8 :=
  if lit then p.foreground else p.background

end Palette

end Chip8
