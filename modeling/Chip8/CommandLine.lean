import Chip8.CommandLine.Token
import Chip8.Config
import Chip8.Keymap

/-!
# The command line

A command line names a program, its operand, and gives parameters their values,
in any order. All arguments are looked at before anything is done about them;
then they are gone through one after the other, a request for help ending it
there.

* `CommandLine.parse`: the options that arguments give, every parameter with a
  value, its standard one if it is not given;
* `CommandLine.parameters`: the parameters of the emulator.
-/

namespace Chip8.CommandLine

/-- What the arguments gave so far. -/
structure Gathered where
  operand : Option String
  /-- The parameters given, the latest first. -/
  values : List (String × Value)
  /-- Arguments of no use, the latest first. -/
  extras : List String

/-- Why there are no options: help is asked for, or the arguments are refused. -/
inductive Stop
  | help
  | refused (e : UsageError)

namespace Stop

/-- How the program ends. -/
def code : Stop → Nat
  | help => 0
  | refused _ => 2

/-- What there is to say about it. -/
def message? : Stop → Option String
  | help => none
  | refused e => e.message?

end Stop

namespace Gathered

/-- Nothing gathered. -/
def empty : Gathered := ⟨none, [], []⟩

/-- An argument of no use. -/
def addExtra (g : Gathered) (argument : String) : Gathered :=
  { g with extras := argument :: g.extras }

/-- Parameters without a value are given. -/
def give (g : Gathered) : List Parameter → Except Stop Gathered
  | [] => .ok g
  | p :: rest =>
    match p.role with
    | .help => .error .help
    | _ => give { g with values := (p.name, .flag true) :: g.values } rest

/-- A parameter is given its value. -/
def giveValue (g : Gathered) (p : Parameter) (value : String) : Except Stop Gathered := do
  let v ← (p.read value).mapError Stop.refused
  return { g with values := (p.name, v) :: g.values }

/-- Goes through the tokens. The first word is the operand, and a divider next to
    it is passed over. -/
def walk (g : Gathered) : List Token → Except Stop Gathered
  | [] => .ok g
  | .word w :: .divider :: rest =>
    match g.operand with
    | none => walk { g with operand := some w } rest
    | some _ => walk ((g.addExtra w).addExtra "--") rest
  | .word w :: rest =>
    match g.operand with
    | none => walk { g with operand := some w } rest
    | some _ => walk (g.addExtra w) rest
  | .divider :: rest =>
    match g.operand with
    | none => walk g rest
    | some _ => walk (g.addExtra "--") rest
  | .unknown argument :: rest => walk (g.addExtra argument) rest
  | .plain ps :: rest =>
    match g.give ps with
    | .ok g => walk g rest
    | .error e => .error e
  | .attached ps p value :: rest =>
    match (g.give ps).bind (·.giveValue p value) with
    | .ok g => walk g rest
    | .error e => .error e
  | .awaiting ps p :: .word value :: rest =>
    match (g.give ps).bind (·.giveValue p value) with
    | .ok g => walk g rest
    | .error e => .error e
  | .awaiting _ p :: _ => .error (.refused (.missing p))
  | .refused p value :: _ => .error (.refused (.ignored p value))

/-- The value that a parameter was given last, or its standard one. -/
def value (g : Gathered) (p : Parameter) : Value :=
  match g.values.find? (·.1 == p.name) with
  | some given => given.2
  | none => p.standard

end Gathered

/-- The options that arguments give, for an operand and parameters of these
    names. -/
def parse (operand : String) (ps : List Parameter) (arguments : List String) :
    Except Stop (List (String × Value)) := do
  let tokens ← (Token.ofArguments ps arguments).mapError Stop.refused
  let g ← Gathered.empty.walk tokens
  match g.operand, g.extras with
  | none, _ => .error (.refused (.noOperand operand))
  | some _, _ :: _ => .error (.refused (.unrecognized g.extras.reverse))
  | some given, [] =>
    let options := ps.filter fun p => match p.role with
      | .help => false
      | _ => true
    .ok ((operand, .text given) :: options.map fun p => (p.name, g.value p))

/-- Choices that are whole numbers. -/
def numbers (ks : List Int) : List Value := ks.map fun k => .number (.whole k)

/-- The parameter of a topic: one of its choices, left open unless given. -/
def ofTopic (t : Topic) : Parameter where
  letter := none
  name := t.optionName
  role :=
    let reading : Reading := match t.choices.1 with
      | .number _ => .decimal
      | _ => .text
    .valued reading [t.choices.1, t.choices.2]

/-- The name of the operand. -/
def operandName : String := "filename"

/-- The parameters of the emulator. -/
def parameters : List Parameter :=
  [
    ⟨some 'h', "help", .help, .null⟩,
    ⟨some 'c', "clock_speed", .valued .decimal [], .null⟩,
    ⟨some 'r', "renderer", .valued .text [.text "pygame", .text "curses", .text "null"], .null⟩,
    ⟨some 's', "scale", .valued .decimal [], .null⟩,
    ⟨some 'm', "mute", .valued .decimal (numbers [0, 1]), .null⟩,
    ⟨some 'k', "keymap", .valued .text [], .text Keymap.standardText⟩,
    ⟨some 'o', "load_offset", .valued .marked [], .null⟩,
    ⟨none, "curses_cursor_mode", .valued .decimal (numbers [0, 1, 2]), .number (.whole 0)⟩,
    ⟨none, "pygame_palette", .valued .text [], .null⟩
  ] ++ Topic.all.map ofTopic ++ [⟨some 'd', "debug", .switch, .flag false⟩]

/-- The options that the emulator's arguments give. -/
def options (arguments : List String) : Except Stop (List (String × Value)) :=
  parse operandName parameters arguments

end Chip8.CommandLine
