import Chip8.Decimal.Text
import Chip8.Text.Numeral
import Chip8.Text.Quoted
import Chip8.Value

/-!
# The text of a value

How a value is named in a message: text stands as it is (`Value.shown?`), but in
quotes inside a list or a record (`Value.literal?`). A value has no text if a
whole number in it has too many digits to be written. `Value.kind` names the
kind of value something was given as.
-/

namespace Chip8

/-- The text of a number. -/
def Number.shown? : Number → Option String
  | .whole k => Numeral.writeDecimal? k
  | .real x => some (Decimal.text x)

namespace Value

mutual

/-- The text of a value inside another one. -/
def literal? : Value → Option String
  | null => some "None"
  | flag true => some "True"
  | flag false => some "False"
  | number n => n.shown?
  | text s => some (Text.quoted s)
  | list items => (literals? items).map fun texts => "[" ++ ", ".intercalate texts ++ "]"
  | record fields =>
    (fieldLiterals? fields).map fun texts => "\x7b" ++ ", ".intercalate texts ++ "\x7d"

/-- The texts of the items of a list, if all have one. -/
def literals? : List Value → Option (List String)
  | [] => some []
  | v :: rest =>
    match v.literal?, literals? rest with
    | some first, some others => some (first :: others)
    | _, _ => none

/-- The texts of the fields of a record, if all have one. -/
def fieldLiterals? : List (String × Value) → Option (List String)
  | [] => some []
  | (name, v) :: rest =>
    match v.literal?, fieldLiterals? rest with
    | some first, some others => some ((Text.quoted name ++ ": " ++ first) :: others)
    | _, _ => none

end

/-- The text of a value by itself. -/
def shown? : Value → Option String
  | text s => some s
  | v => v.literal?

/-- The name of the kind of a value. -/
def kind : Value → String
  | null => "NoneType"
  | flag _ => "bool"
  | number (.whole _) => "int"
  | number (.real _) => "float"
  | text _ => "str"
  | list _ => "list"
  | record _ => "dict"

end Value

end Chip8
