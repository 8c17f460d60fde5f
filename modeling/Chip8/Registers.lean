import Chip8.Bytes
import Chip8.Text.Hex

/-!
# Registers

Sixteen byte registers `V0` to `VF`, the last of which doubles as the flag of
carries, borrows and collisions, the sixteen-bit index register `I`, and the
program counter. The counter is not held to any width: a jump that leaves
memory is only noticed by the next fetch.
-/

namespace Chip8

/-- The register file. -/
structure Registers where
  v : Vector UInt8 16
  i : UInt16
  pc : Int
  deriving DecidableEq

/-- Why a register is not written or read. -/
inductive RegisterError
  | noSuchRegister
  | notAByte
  deriving DecidableEq, Repr

namespace Registers

/-- Number of byte registers. -/
def count : Nat := 16

/-- All registers zero and the program counter at an address. -/
def blank (pc : Int) : Registers := ⟨Vector.replicate 16 0, 0, pc⟩

/-- The file with one byte register replaced. -/
def set (r : Registers) (x : Fin 16) (b : UInt8) : Registers :=
  { r with v := r.v.set x b }

/-- The file with the flag register replaced. -/
def setFlag (r : Registers) (flag : Bool) : Registers :=
  r.set 15 (if flag then 1 else 0)

/-- The file with the index register set to the low sixteen bits of a value. -/
def setIndex (r : Registers) (value : Int) : Registers :=
  { r with i := UInt16.ofNat (value % 65536).toNat }

/-- The file with the program counter replaced. -/
def setPc (r : Registers) (pc : Int) : Registers :=
  { r with pc := pc }

/-- Stores a value in the register that an integer names. -/
def store (r : Registers) (k value : Int) : Except RegisterError Registers :=
  match position? 16 k, byte? value with
  | none, _ => .error .noSuchRegister
  | some _, none => .error .notAByte
  | some x, some b => .ok (r.set x b)

/-- The register that an integer names. -/
def fetch (r : Registers) (k : Int) : Except RegisterError UInt8 :=
  match position? 16 k with
  | some x => .ok r.v[x]
  | none => .error .noSuchRegister

/-- The text of the file, the last register first. -/
def dump (r : Registers) : String :=
  "V: 0x" ++ Hex.ofBytes r.v.toList.reverse ++ " I: 0x" ++ Hex.text 4 r.i.toNat ++
    " PC: 0x" ++ Hex.text 3 r.pc

end Registers

end Chip8
