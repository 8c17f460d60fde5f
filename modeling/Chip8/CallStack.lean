/-!
# The call stack

Return addresses of the routines being run, kept outside of memory. Calling
deeper than the stack's limit and returning with nothing to return to are
refused and leave the stack as it is.
-/

namespace Chip8

/-- A stack of return addresses, the innermost first, with its depth limit. -/
structure CallStack where
  items : List Int
  limit : Int
  deriving DecidableEq, Repr

/-- Why the stack refuses. -/
inductive StackError
  | overflow
  | underflow
  deriving DecidableEq, Repr

/-- The text of a refusal. -/
def StackError.message : StackError → String
  | overflow => "Stack overflow"
  | underflow => "Stack underflow"

namespace CallStack

/-- Calls that the machine nests at most. -/
def standardLimit : Nat := 16

/-- An empty stack. -/
def empty (limit : Int) : CallStack := ⟨[], limit⟩

/-- The stack with one more address. -/
def push (s : CallStack) (address : Int) : Except StackError CallStack :=
  if (s.items.length : Int) ≥ s.limit then .error .overflow
  else .ok { s with items := address :: s.items }

/-- The innermost address and the stack without it. -/
def pop (s : CallStack) : Except StackError (Int × CallStack) :=
  match s.items with
  | [] => .error .underflow
  | address :: rest => .ok (address, { s with items := rest })

/-- The stack without any address. -/
def clear (s : CallStack) : CallStack := { s with items := [] }

/-- Number of addresses. -/
def depth (s : CallStack) : Nat := s.items.length

/-- The addresses, the outermost first. -/
def toList (s : CallStack) : List Int := s.items.reverse

end CallStack

end Chip8
