import Chip8.Instruction
import Chip8.Text.Hex

/-!
# Mnemonics

The conventional assembler text of an instruction, as it stands in the trace of
executed instructions. A form chooses the mnemonic and which operands it shows
(`Form.mnemonic`); registers are one digit, bytes two, addresses three, and a
word of no form shows all four of its digits.
-/

namespace Chip8

/-- The operand fields that a mnemonic shows. Those of a decoded word are in
    range; the text is defined for any. -/
structure Operands where
  opcode : Int
  x : Int
  y : Int
  n : Int
  kk : Int
  nnn : Int
  deriving DecidableEq, Repr

/-- The operand fields of a word. -/
def Word.operands (w : Word) : Operands where
  opcode := w.toNat
  x := w.x.val
  y := w.y.val
  n := w.n
  kk := w.kk.toNat
  nnn := w.nnn

namespace Operands

/-- The register `x`. -/
def vx (o : Operands) : String :=
  "V" ++ Hex.text 1 o.x

/-- The register `y`. -/
def vy (o : Operands) : String :=
  "V" ++ Hex.text 1 o.y

/-- The byte operand. -/
def byte (o : Operands) : String :=
  "0x" ++ Hex.text 2 o.kk

/-- The address operand. -/
def address (o : Operands) : String :=
  "0x" ++ Hex.text 3 o.nnn

end Operands

/-- The mnemonic of a form with its operands. -/
def Form.mnemonic (f : Form) (o : Operands) : String :=
  match f with
  | sys => "SYS " ++ o.address
  | clear => "CLS"
  | ret => "RET"
  | jump => "JP " ++ o.address
  | call => "CALL " ++ o.address
  | skipEqByte => "SE " ++ o.vx ++ ", " ++ o.byte
  | skipNeByte => "SNE " ++ o.vx ++ ", " ++ o.byte
  | skipEqReg => "SE " ++ o.vx ++ ", " ++ o.vy
  | setByte => "LD " ++ o.vx ++ ", " ++ o.byte
  | addByte => "ADD " ++ o.vx ++ ", " ++ o.byte
  | copy => "LD " ++ o.vx ++ ", " ++ o.vy
  | or => "OR " ++ o.vx ++ ", " ++ o.vy
  | and => "AND " ++ o.vx ++ ", " ++ o.vy
  | xor => "XOR " ++ o.vx ++ ", " ++ o.vy
  | add => "ADD " ++ o.vx ++ ", " ++ o.vy
  | sub => "SUB " ++ o.vx ++ ", " ++ o.vy
  | shiftRight => "SHR " ++ o.vx ++ " \x7b, " ++ o.vy ++ "\x7d"
  | subFrom => "SUBN " ++ o.vx ++ ", " ++ o.vy
  | shiftLeft => "SHL " ++ o.vx ++ " \x7b, " ++ o.vy ++ "\x7d"
  | skipNeReg => "SNE " ++ o.vx ++ ", " ++ o.vy
  | setIndex => "LD I, " ++ o.address
  | jumpOffset => "JP V0, " ++ o.address
  | random => "RND " ++ o.vx ++ ", " ++ o.byte
  | draw => "DRW " ++ o.vx ++ ", " ++ o.vy ++ ", 0x" ++ Hex.text 1 o.n
  | skipHeld => "SKP " ++ o.vx
  | skipReleased => "SKNP " ++ o.vx
  | readDelay => "LD " ++ o.vx ++ ", DT"
  | awaitKey => "LD " ++ o.vx ++ ", K"
  | setDelay => "LD DT, " ++ o.vx
  | setSound => "LD ST, " ++ o.vx
  | addIndex => "ADD I, " ++ o.vx
  | glyph => "LD F, " ++ o.vx
  | decimal => "LD B, " ++ o.vx
  | store => "LD [I], " ++ o.vx
  | load => "LD " ++ o.vx ++ ", [I]"
  | unknown => "??? 0x" ++ Hex.text 4 o.opcode

/-- The text of an instruction. -/
def Instruction.text (i : Instruction) : String :=
  i.form.mnemonic i.word.operands

end Chip8
