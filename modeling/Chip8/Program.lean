import Chip8.Config
import Chip8.Text.Hex

/-!
# Program images

A program is a plain row of bytes, without header. It has to be one, not empty,
and to fit between the address it is loaded at and the end of memory.
-/

namespace Chip8

/-- What is given as a program: bytes, or some other value. -/
inductive Image
  | bytes (content : List UInt8)
  | other (v : Value)

/-- Why a program is refused. -/
inductive ProgramError
  | notBytes (kind : String)
  | empty
  | tooLong (length : Nat) (loadOffset : Int)
  deriving DecidableEq, Repr

namespace Program

/-- Bytes that fit in memory from an address on. -/
def capacity (loadOffset : Int) : Int := memoryEnd - loadOffset

/-- The bytes of an image that fits in memory from an address on. -/
def check (image : Image) (loadOffset : Int) : Except ProgramError (List UInt8) :=
  match image with
  | .other v => .error (.notBytes v.kind)
  | .bytes [] => .error .empty
  | .bytes content =>
    if content.length > capacity loadOffset then .error (.tooLong content.length loadOffset)
    else .ok content

end Program

/-- The text of a refusal. -/
def ProgramError.message : ProgramError → String
  | notBytes kind => "Program image must be bytes, not " ++ kind
  | empty => "Program image is empty"
  | tooLong length loadOffset =>
    "Program image is " ++ toString length ++ " bytes, but only " ++
      toString (Program.capacity loadOffset) ++ " bytes fit from address 0x" ++
      Hex.text 3 loadOffset

end Chip8
