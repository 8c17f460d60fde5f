import Chip8.Config
import Chip8.Registers

/-!
# Arithmetic on registers

The instructions that combine registers. Those with a flag write it after their
result, so that the flag wins where the result goes to the flag register:

* adding sets the flag on a carry;
* subtracting sets it unless it borrows;
* shifting sets it to the bit shifted out.
-/

namespace Chip8.Registers

/-- A result in register `x`, then the flag. -/
def setResult (r : Registers) (x : Fin 16) (result : UInt8) (flag : Bool) : Registers :=
  (r.set x result).setFlag flag

/-- Adds a byte to register `x`, leaving the flag alone. -/
def addByte (r : Registers) (x : Fin 16) (b : UInt8) : Registers :=
  r.set x (r.v[x] + b)

/-- Adds register `y` to register `x`. -/
def addReg (r : Registers) (x y : Fin 16) : Registers :=
  r.setResult x (r.v[x] + r.v[y]) (r.v[x].toNat + r.v[y].toNat > 255)

/-- Puts the difference of two bytes into register `x`. -/
def subtract (r : Registers) (x : Fin 16) (a b : UInt8) : Registers :=
  r.setResult x (a - b) (b ≤ a)

/-- The operand of a shift. -/
def shiftOperand (r : Registers) (source : ShiftSource) (x y : Fin 16) : UInt8 :=
  match source with
  | .vx => r.v[x]
  | .vy => r.v[y]

/-- Puts an operand shifted right into register `x`. -/
def shiftRight (r : Registers) (x : Fin 16) (operand : UInt8) : Registers :=
  r.setResult x (operand / 2) (operand % 2 == 1)

/-- Puts an operand shifted left into register `x`. -/
def shiftLeft (r : Registers) (x : Fin 16) (operand : UInt8) : Registers :=
  r.setResult x (operand * 2) (operand ≥ 128)

/-- Adds register `x` to the index, a dialect also flagging an index past the
    end of memory. -/
def addIndex (r : Registers) (flagOverflow : Bool) (x : Fin 16) : Registers :=
  let sum := r.i.toNat + r.v[x].toNat
  let moved := r.setIndex sum
  if flagOverflow then moved.setFlag (sum > 0xFFF) else moved

/-- The registers `V0` to `Vx`. -/
def upTo (r : Registers) (x : Fin 16) : List UInt8 :=
  r.v.toList.take (x.val + 1)

/-- Bytes put into the registers from `V0` on. -/
def setFirst (r : Registers) (bytes : List UInt8) : Registers :=
  { r with v := overwrite r.v 0 bytes }

end Chip8.Registers
