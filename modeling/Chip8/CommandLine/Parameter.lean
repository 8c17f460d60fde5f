import Chip8.Text.Numeral
import Chip8.Value.Text

/-!
# Parameters of a command line

A parameter is an option that a command line may give: it has a long name and
perhaps a letter, and is a request for help, a switch or something with a
value. A value is text or a numeral, and may be limited to some choices.
-/

namespace Chip8.CommandLine

/-- How the text of a value is read. -/
inductive Reading
  | text
  /-- A decimal numeral. -/
  | decimal
  /-- A numeral with or without a radix mark. -/
  | marked
  deriving DecidableEq, Repr

/-- What a parameter does. -/
inductive Role
  /-- Asks for help. -/
  | help
  /-- Is off unless it is given. -/
  | switch
  /-- Has a value, one of the choices if there are any. -/
  | valued (reading : Reading) (choices : List Value)

/-- A parameter. -/
structure Parameter where
  letter : Option Char
  name : String
  role : Role
  /-- The value if it is not given. -/
  standard : Value := .null

/-- Why a command line is refused. -/
inductive UsageError
  /-- An abbreviation has several meanings. -/
  | ambiguous (given : String) (meanings : List String)
  /-- A value is attached to a parameter that has none. -/
  | ignored (p : Parameter) (value : String)
  /-- The value of a parameter is not there. -/
  | missing (p : Parameter)
  /-- The text of a value cannot be read. -/
  | unreadable (p : Parameter) (reading : Reading) (value : String)
  /-- A value is none of the choices. -/
  | notAChoice (p : Parameter) (choices : List Value) (value : Value)
  /-- The operand is not there. -/
  | noOperand (name : String)
  /-- There are arguments of no use. -/
  | unrecognized (arguments : List String)

namespace Reading

/-- The name of what is read. -/
def label : Reading → String
  | text => "str"
  | decimal => "int"
  | marked => "<lambda>"

/-- The value that a text gives. -/
def read? (r : Reading) (given : String) : Option Value :=
  match r with
  | text => some (.text given)
  | decimal => (Numeral.readDecimal? given).map fun k => .number (.whole k)
  | marked => (Numeral.readMarked? given).map fun k => .number (.whole k)

end Reading

namespace Parameter

/-- How a command line spells the parameter in full. -/
def longSpelling (p : Parameter) : String := "--" ++ p.name

/-- All spellings, the short one first. -/
def spellings (p : Parameter) : List String :=
  match p.letter with
  | some letter => [String.ofList ['-', letter], p.longSpelling]
  | none => [p.longSpelling]

/-- Whether the parameter has a value. -/
def isValued (p : Parameter) : Bool :=
  match p.role with
  | .valued _ _ => true
  | _ => false

/-- The name of the parameter in a refusal. -/
def title (p : Parameter) : String := "/".intercalate p.spellings

/-- The value of the parameter for a text. The text `--` stands for no value at
    all. -/
def read (p : Parameter) (given : String) : Except UsageError Value :=
  match p.role with
  | .valued reading choices =>
    if given = "--" then .ok (.list [])
    else
      match reading.read? given with
      | none => .error (.unreadable p reading given)
      | some v =>
        if choices.isEmpty || choices.any v.same then .ok v
        else .error (.notAChoice p choices v)
  | _ => .error (.ignored p given)

end Parameter

/-- The text of a refusal. There is none if a value that it names has none. -/
def UsageError.message? : UsageError → Option String
  | ambiguous given meanings =>
    some ("ambiguous option: " ++ given ++ " could match " ++ ", ".intercalate meanings)
  | ignored p value =>
    some ("argument " ++ p.title ++ ": ignored explicit argument " ++ Text.quoted value)
  | missing p => some ("argument " ++ p.title ++ ": expected one argument")
  | unreadable p reading value =>
    some ("argument " ++ p.title ++ ": invalid " ++ reading.label ++ " value: " ++
      Text.quoted value)
  | notAChoice p choices value => do
    let given ← value.literal?
    let texts ← Value.literals? choices
    return "argument " ++ p.title ++ ": invalid choice: " ++ given ++ " (choose from " ++
      ", ".intercalate texts ++ ")"
  | noOperand name => some ("the following arguments are required: " ++ name)
  | unrecognized arguments => some ("unrecognized arguments: " ++ " ".intercalate arguments)

end Chip8.CommandLine
