import Chip8.Display
import Chip8.Text.Hex
import Chip8.Value.Text

/-!
# Configuration

Interpreters disagree on a handful of instructions, and programs were written
against one or the other. A `Topic` is such a point, with two choices of which
the first is the default, a `Dialect` chooses on every topic, and a `Config`
is a dialect with the address where programs are loaded.

* `Config.ofSettings`: from named settings, where a missing one takes its
  default and an unknown one is refused;
* `Config.ofOptions`: from the options of a command line, where null counts as
  missing and options of other names do not matter;
* `Config.settings`: the settings that give the configuration back.
-/

namespace Chip8

/-- Which register a shift takes its operand from. -/
inductive ShiftSource
  | vx
  | vy
  deriving DecidableEq, Repr

/-- Which register the offset of a jump comes from. -/
inductive JumpOffset
  | v0
  | vx
  deriving DecidableEq, Repr

/-- The choices on all topics. -/
structure Dialect where
  /-- The operand of shifts. -/
  shift : ShiftSource := .vx
  /-- Whether storing and loading registers moves the index past them. -/
  advanceIndex : Bool := false
  /-- What becomes of sprites beyond the edges. -/
  edges : Edges := .wrap
  /-- Whether an index going past the end of memory sets the flag. -/
  flagIndexOverflow : Bool := false
  /-- The offset of a jump. -/
  jump : JumpOffset := .v0
  deriving DecidableEq, Repr

/-- A point on which interpreters disagree. -/
inductive Topic
  | shift
  | storeLoad
  | drawWrap
  | addIndex
  | jump
  deriving DecidableEq, Repr

namespace Topic

/-- Every topic, in the order in which they are looked at. -/
def all : List Topic := [shift, storeLoad, drawWrap, addIndex, jump]

/-- The name of a topic. -/
def name : Topic → String
  | shift => "shift"
  | storeLoad => "store_load_increment"
  | drawWrap => "draw_wrap"
  | addIndex => "add_i_overflow"
  | jump => "jump"

/-- The name of a topic's setting. -/
def settingName (t : Topic) : String := t.name ++ "_quirk"

/-- The name of a topic's command line option. -/
def optionName (t : Topic) : String := t.name ++ "_quirks"

/-- The name of a topic in a sentence. -/
def spokenName (t : Topic) : String :=
  String.ofList (t.name.toList.map fun c => if c = '_' then ' ' else c)

/-- The two choices on a topic, the default first. -/
def choices : Topic → Value × Value
  | shift => (.text "vx", .text "vy")
  | storeLoad => (.number (.whole 0), .number (.whole 1))
  | drawWrap => (.text "wrap", .text "clip")
  | addIndex => (.number (.whole 0), .number (.whole 1))
  | jump => (.text "v0", .text "vx")

end Topic

/-- Why a configuration is refused. -/
inductive ConfigError
  /-- The load offset is not an address that programs may be loaded at. -/
  | loadOffset
  /-- The value is none of a topic's choices. -/
  | choice (topic : Topic) (given : Value)
  /-- There is no setting of that name. -/
  | unknownSetting (name : String)

/-- The last address below those that programs may be loaded at. -/
def reservedTop : Nat := 0x1FF

/-- The address past the end of memory. -/
def memoryEnd : Nat := 0x1000

/-- The text of a refusal that has one. There is none if the value that it is about has
    none. -/
def ConfigError.message? : ConfigError → Option String
  | loadOffset =>
    some ("Load offset must be between 0x" ++ Hex.text 3 (reservedTop + 1) ++ " and 0x" ++
      Hex.text 3 (memoryEnd - 1))
  | choice topic given => do
    let text ← given.shown?
    let first ← topic.choices.1.shown?
    let second ← topic.choices.2.shown?
    return "Invalid " ++ topic.spokenName ++ " quirk '" ++ text ++ "', expected one of: " ++
      first ++ ", " ++ second
  | unknownSetting _ => none

/-- Where programs are loaded unless a setting says otherwise. -/
def standardLoadOffset : Nat := 0x200

theorem reservedTop_lt_standardLoadOffset : reservedTop < standardLoadOffset := by decide

theorem standardLoadOffset_lt_memoryEnd : standardLoadOffset < memoryEnd := by decide

/-- Where programs are loaded on an ETI 660. -/
def etiLoadOffset : Nat := 0x600

/-- The address where programs are loaded, and a dialect. -/
structure Config where
  loadOffset : Nat := standardLoadOffset
  dialect : Dialect := {}
  aboveReserved : reservedTop < loadOffset := by
    first | exact reservedTop_lt_standardLoadOffset | decide
  belowEnd : loadOffset < memoryEnd := by
    first | exact standardLoadOffset_lt_memoryEnd | decide

namespace Config

/-- The name of the load offset's setting. -/
def loadOffsetName : String := "load_offset"

/-- The load address that a value gives. -/
def readLoadOffset (v : Value) :
    Except ConfigError { a : Nat // reservedTop < a ∧ a < memoryEnd } :=
  match v.whole? with
  | some k =>
    if h : reservedTop < k.toNat ∧ k.toNat < memoryEnd then .ok ⟨k.toNat, h⟩
    else .error .loadOffset
  | none => .error .loadOffset

/-- Whether a value is the second choice on a topic rather than the default. -/
def readChoice (t : Topic) (v : Value) : Except ConfigError Bool :=
  if v.same t.choices.1 then .ok false
  else if v.same t.choices.2 then .ok true
  else .error (.choice t v)

/-- The choice on a topic that a look-up of its value gives. -/
def chosen (lookup : Topic → Option Value) (t : Topic) : Except ConfigError Bool :=
  readChoice t ((lookup t).getD t.choices.1)

/-- The configuration that look-ups of its values give, missing ones taking
    their defaults. -/
def read (offset : Option Value) (lookup : Topic → Option Value) : Except ConfigError Config := do
  let ⟨loadOffset, h⟩ ← readLoadOffset (offset.getD (.number (.whole standardLoadOffset)))
  let shift ← chosen lookup .shift
  let storeLoad ← chosen lookup .storeLoad
  let drawWrap ← chosen lookup .drawWrap
  let addIndex ← chosen lookup .addIndex
  let jump ← chosen lookup .jump
  return {
    loadOffset := loadOffset
    dialect :=
      { shift := if shift then .vy else .vx
        advanceIndex := storeLoad
        edges := if drawWrap then .clip else .wrap
        flagIndexOverflow := addIndex
        jump := if jump then .vx else .v0 }
    aboveReserved := h.1
    belowEnd := h.2 }

/-- The names of all settings. -/
def settingNames : List String := loadOffsetName :: Topic.all.map Topic.settingName

/-- The first field of a name. -/
def lookup (fields : List (String × Value)) (name : String) : Option Value :=
  (fields.find? (·.1 == name)).map (·.2)

/-- The configuration that named settings give. -/
def ofSettings (settings : List (String × Value)) : Except ConfigError Config :=
  match settings.find? fun field => !settingNames.contains field.1 with
  | some field => .error (.unknownSetting field.1)
  | none => read (lookup settings loadOffsetName) fun t => lookup settings t.settingName

/-- A value that is given and not null. -/
def given (v : Option Value) : Option Value :=
  match v with
  | some .null => none
  | other => other

/-- The configuration that command line options give. -/
def ofOptions (options : List (String × Value)) : Except ConfigError Config :=
  read (given (lookup options loadOffsetName)) fun t => given (lookup options t.optionName)

/-- The value chosen on a topic. -/
def choice (c : Config) : Topic → Value
  | .shift => .text (match c.dialect.shift with | .vx => "vx" | .vy => "vy")
  | .storeLoad => .flag c.dialect.advanceIndex
  | .drawWrap => .text (match c.dialect.edges with | .wrap => "wrap" | .clip => "clip")
  | .addIndex => .flag c.dialect.flagIndexOverflow
  | .jump => .text (match c.dialect.jump with | .v0 => "v0" | .vx => "vx")

/-- The settings that give the configuration. -/
def settings (c : Config) : List (String × Value) :=
  (loadOffsetName, .number (.whole c.loadOffset)) ::
    Topic.all.map fun t => (t.settingName, c.choice t)

/-- The text of a configuration. -/
def text? (c : Config) : Option String :=
  (Value.literals? (c.settings.map (·.2))).map fun texts =>
    let fields := List.zipWith (fun name text => name ++ "=" ++ text) (c.settings.map (·.1)) texts
    "Config(" ++ ", ".intercalate fields ++ ")"

end Config

end Chip8
