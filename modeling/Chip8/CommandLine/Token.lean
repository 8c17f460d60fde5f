import Chip8.CommandLine.Parameter
import Chip8.Text.Split

/-!
# The tokens of a command line

An argument is a word or the use of parameters. After the first `--` everything
is a word; before it, a parameter is used

* by its long name or an abbreviation of it, perhaps with a value after `=`;
* by its letter, perhaps with a value after `=` or right after the letter; the
  letters of parameters without a value may have more letters after them.

Anything else that starts with a dash is a word if it is a negative number or
has a space in it, and unknown if not.
-/

namespace Chip8.CommandLine

/-- What an argument stands for. -/
inductive Token
  | word (w : String)
  /-- The first `--`. -/
  | divider
  | unknown (argument : String)
  /-- Parameters without a value. -/
  | plain (ps : List Parameter)
  /-- A parameter with its value, after some without. -/
  | attached (ps : List Parameter) (p : Parameter) (value : String)
  /-- A parameter whose value is the next word, after some without. -/
  | awaiting (ps : List Parameter) (p : Parameter)
  /-- A parameter without a value that was given one. -/
  | refused (p : Parameter) (value : String)

/-- The parameter of a letter. -/
def ofLetter? (ps : List Parameter) (letter : Char) : Option Parameter :=
  ps.find? (·.letter == some letter)

/-- The parameter that is spelled in full. -/
def ofSpelling? (ps : List Parameter) (spelling : String) : Option Parameter :=
  ps.find? (·.spellings.contains spelling)

namespace Token

/-- The use of a parameter to which nothing is attached. -/
def bare (before : List Parameter) (p : Parameter) : Token :=
  if p.isValued then .awaiting before p else .plain (before ++ [p])

/-- The use of a parameter by its long name. -/
def long (p : Parameter) : Option String → Token
  | none => bare [] p
  | some value => if p.isValued then .attached [] p value else .refused p value

/-- The use of a parameter by its letter, with what comes right after it. -/
def short (ps before : List Parameter) (p : Parameter) (more : List Char) : Token :=
  if p.isValued then .attached before p (String.ofList more)
  else
    match more with
    | [] => .refused p ""
    | letter :: rest =>
      match ofLetter? ps letter, rest with
      | none, _ => .refused p (String.ofList more)
      | some next, [] => bare (before ++ [p]) next
      | some next, _ :: _ => short ps (before ++ [p]) next rest

/-- The text before the first `=`, and the text after it. -/
def cutAtSign (argument : List Char) : List Char × Option (List Char) :=
  match argument.dropWhile (· != '=') with
  | _ :: value => (argument.takeWhile (· != '='), some value)
  | [] => (argument, none)

/-- Whether a text is a minus sign and digits of any script, with a point before
    the last ones perhaps. A line break may follow. -/
def isNegativeNumber (argument : List Char) : Bool :=
  let isDigit (c : Char) : Bool := (Numeral.decimalDigit? c).isSome
  match argument with
  | '-' :: rest =>
    let rest := if rest.getLast? = some '\n' then rest.dropLast else rest
    match rest.dropWhile isDigit with
    | [] => !rest.isEmpty
    | '.' :: digits => !digits.isEmpty && digits.all isDigit
    | _ => false
  | _ => false

/-- What an argument is that uses no parameter. -/
def other (argument : String) : Token :=
  let chars := argument.toList
  if isNegativeNumber chars || chars.contains ' ' then .word argument else .unknown argument

/-- What an argument stands for that starts with two dashes. -/
def ofDoubleDash (ps : List Parameter) (argument : String) : Except UsageError Token :=
  let (spelling, value) := cutAtSign argument.toList
  let value := value.map String.ofList
  match ofSpelling? ps (String.ofList spelling) with
  | some p => .ok (long p value)
  | none =>
    match ps.filter fun p => spelling.isPrefixOf p.longSpelling.toList with
    | [] => .ok (other argument)
    | [p] => .ok (long p value)
    | several => .error (.ambiguous argument (several.map Parameter.longSpelling))

/-- What an argument stands for that starts with a dash and a letter. -/
def ofSingleDash (ps : List Parameter) (argument : String) (letter : Char) (rest : List Char) :
    Token :=
  match ofLetter? ps letter, rest with
  | none, _ => other argument
  | some p, [] => bare [] p
  | some p, '=' :: value => short ps [] p value
  | some p, more => short ps [] p more

/-- What an argument before the divider stands for. -/
def ofArgument (ps : List Parameter) (argument : String) : Except UsageError Token :=
  match argument.toList with
  | '-' :: '-' :: _ => ofDoubleDash ps argument
  | '-' :: letter :: rest => .ok (ofSingleDash ps argument letter rest)
  | _ => .ok (.word argument)

/-- What the arguments stand for. -/
def ofArguments (ps : List Parameter) : List String → Except UsageError (List Token)
  | [] => .ok []
  | "--" :: rest => .ok (.divider :: rest.map .word)
  | argument :: rest => do
    let token ← ofArgument ps argument
    return token :: (← ofArguments ps rest)

end Token

end Chip8.CommandLine
