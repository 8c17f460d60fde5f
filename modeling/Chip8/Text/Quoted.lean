import Chip8.Text.Hex
import Chip8.Text.Printable

/-!
# Quoted text

Text shown inside other text stands in quotes: single ones, or double ones if
it holds a single quote and no double quote. The quote in use and backslashes
are escaped by a backslash, tab and line breaks by their letters, and any other
unprintable character by its code.
-/

namespace Chip8.Text

/-- A code in hexadecimal, `width` digits long, after a backslash and a letter. -/
def codeEscape (letter : Char) (width code : Nat) : List Char :=
  '\\' :: letter :: (Hex.text width code).toList

/-- A character inside the given quotes. -/
def escaped (quote c : Char) : List Char :=
  if c = quote ∨ c = '\\' then ['\\', c]
  else if c = '\t' then ['\\', 't']
  else if c = '\n' then ['\\', 'n']
  else if c = '\r' then ['\\', 'r']
  else if isPrintable c.toNat then [c]
  else if c.toNat < 0x100 then codeEscape 'x' 2 c.toNat
  else if c.toNat < 0x10000 then codeEscape 'u' 4 c.toNat
  else codeEscape 'U' 8 c.toNat

/-- The text in quotes. -/
def quoted (text : String) : String :=
  let chars := text.toList
  let quote := if chars.contains '\'' && !chars.contains '"' then '"' else '\''
  String.ofList (quote :: chars.flatMap (escaped quote) ++ [quote])

end Chip8.Text
