/-!
# The log

Lines that the machine and the session leave for whoever looks for the reason
of something, each of a level.
-/

namespace Chip8

/-- How serious a log line is. -/
inductive Level
  | debug
  | info
  | warning
  | error
  deriving DecidableEq, Repr

namespace Level

/-- The name of a level. -/
def name : Level → String
  | debug => "DEBUG"
  | info => "INFO"
  | warning => "WARNING"
  | error => "ERROR"

/-- The rank of a level, the most serious last. -/
def rank : Level → Nat
  | debug => 0
  | info => 1
  | warning => 2
  | error => 3

end Level

/-- Who writes to the log. -/
inductive LogSource
  | machine
  | session
  deriving DecidableEq, Repr

/-- The name of a source in the log. -/
def LogSource.name : LogSource → String
  | machine => "ochip.interpreter"
  | session => "ochip.driver"

/-- A line of the log. -/
structure LogLine where
  source : LogSource
  level : Level
  text : String
  deriving DecidableEq, Repr

/-- A line as it is written out. -/
def LogLine.shown (line : LogLine) : String :=
  "[" ++ line.level.name ++ "] " ++ line.source.name ++ ": " ++ line.text

/-- Whether a line is at least of a level. -/
def LogLine.atLeast (line : LogLine) (least : Level) : Bool :=
  least.rank ≤ line.level.rank

end Chip8
