/-!
# Setting values

What a setting or an option may be given as: nothing, a flag, a whole or
fractional number, text, a list or a record. A setting is free to refuse most
of these, but it has to be able to look at all of them, compare them with its
choices and name the one it refuses.

* `Value.same`: flags count as the numbers 0 and 1, and numbers are equal when
  their values are, whichever way they are written;
* `Value.truthy`: empty, zero and missing values count as no.
-/

namespace Chip8

/-- A number, whole (of any size) or a binary fraction. -/
inductive Number
  | whole (k : Int)
  | real (x : Float)

/-- A value given for a setting or an option. -/
inductive Value
  | null
  | flag (b : Bool)
  | number (n : Number)
  | text (s : String)
  | list (items : List Value)
  | record (fields : List (String × Value))

namespace Number

/-- Whether the number is zero, of either sign. -/
def isZero : Number → Bool
  | whole k => k == 0
  | real x => x == 0.0

/-- The nearest binary fraction. -/
def toFloat : Number → Float
  | whole k => Float.ofInt k
  | real x => x

/-- Whether a fraction has the value of a whole number. -/
def wholeIs (k : Int) (x : Float) : Bool :=
  x == Float.ofInt k

/-- Equality of the values. -/
def same : Number → Number → Bool
  | whole j, whole k => j == k
  | whole j, real x => wholeIs j x
  | real x, whole k => wholeIs k x
  | real x, real y => x == y

end Number

namespace Value

/-- Whether the value counts as a yes. -/
def truthy : Value → Bool
  | null => false
  | flag b => b
  | number n => !n.isZero
  | text s => !s.isEmpty
  | list items => !items.isEmpty
  | record fields => !fields.isEmpty

/-- The number that a value counts as, a flag being 0 or 1. -/
def number? : Value → Option Number
  | flag b => some (.whole b.toInt)
  | number n => some n
  | _ => none

/-- The whole number that a value counts as. -/
def whole? (v : Value) : Option Int :=
  match v.number? with
  | some (.whole k) => some k
  | _ => none

/-- The text, if the value is one. -/
def text? : Value → Option String
  | text s => some s
  | _ => none

/-- The value of a field of a record. -/
def field? (v : Value) (name : String) : Option Value :=
  match v with
  | record fields => (fields.find? (·.1 == name)).map (·.2)
  | _ => none

/-- Equality of values that are numbers, flags, text or missing; lists and
    records are never equal to any of these. -/
def same (v w : Value) : Bool :=
  match v.number?, w.number? with
  | some m, some n => m.same n
  | none, none =>
    match v, w with
    | null, null => true
    | text s, text t => s == t
    | _, _ => false
  | _, _ => false

end Value

end Chip8
