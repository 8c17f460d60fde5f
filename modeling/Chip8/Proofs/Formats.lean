import Chip8.Instruction.Mnemonic
import Chip8.Registers

/-!
# Formats

The trace of an instruction is made from formats: texts with gaps, each naming
the field that goes there in hexadecimal and a width (`Piece`). Filling a format
fails if a field has no value (`fill?`). Here the two formats of a trace are
given piece by piece, that of the mnemonic being looked up by the template of
the form.

* `describe?_eq`: every instruction has a mnemonic, all fields of which it has,
  and filled in it is the text of the instruction;
* `dump?_eq`: the same of the registers, for any contents.
-/

namespace Chip8

/-- A piece of a format. -/
inductive Piece (κ : Type)
  /-- Text that stands as it is. -/
  | text (t : String)
  /-- The value of a field in hexadecimal, zeros filling up to a width. -/
  | gap (field : κ) (width : Nat)
  deriving DecidableEq, Repr

/-- A text with gaps. -/
abbrev Format (κ : Type) := List (Piece κ)

namespace Format

variable {κ : Type} {value? : κ → Option Int}

/-- The text of a format, if every field in it has a value. -/
def fill? (value? : κ → Option Int) : Format κ → Option String
  | [] => some ""
  | .text t :: rest => do return t ++ (← fill? value? rest)
  | .gap field width :: rest => do
    let value ← value? field
    return Hex.text width value ++ (← fill? value? rest)

theorem fill?_append (f g : Format κ) :
    fill? value? (f ++ g) = do return (← fill? value? f) ++ (← fill? value? g) := by
  induction f with
  | nil => cases h : fill? value? g <;> simp [fill?, h]
  | cons p f ih =>
    cases hf : fill? value? f <;> cases hg : fill? value? g <;> rw [hf, hg] at ih <;> cases p with
    | text t => simp [fill?, ih, hf, String.append_assoc]
    | gap field width => cases hv : value? field <;> simp [fill?, ih, hf, hv, String.append_assoc]

end Format

/-! ### Mnemonics -/

/-- The value of a field of an instruction. -/
def Operands.field? (o : Operands) : String → Option Int
  | "opcode" => some o.opcode
  | "x" => some o.x
  | "y" => some o.y
  | "n" => some o.n
  | "kk" => some o.kk
  | "nnn" => some o.nnn
  | _ => none

namespace Format

/-- The register `x`. -/
def vx : Format String := [.text "V", .gap "x" 1]

/-- The register `y`. -/
def vy : Format String := [.text "V", .gap "y" 1]

/-- The byte operand. -/
def byte : Format String := [.text "0x", .gap "kk" 2]

/-- The address operand. -/
def address : Format String := [.text "0x", .gap "nnn" 3]

/-- A mnemonic with the register `x` and another operand. -/
def binary (name : String) (second : Format String) : Format String :=
  .text name :: vx ++ .text ", " :: second

/-- The mnemonic of a shift. -/
def shift (name : String) : Format String :=
  .text name :: vx ++ .text " \x7b, " :: vy ++ [.text "\x7d"]

/-- The formats of mnemonics, each with the template of its form. -/
def mnemonics : List (String × Format String) :=
  [("0nnn", .text "SYS " :: address), ("00E0", [.text "CLS"]), ("00EE", [.text "RET"]),
    ("1nnn", .text "JP " :: address), ("2nnn", .text "CALL " :: address),
    ("3xkk", binary "SE " byte), ("4xkk", binary "SNE " byte), ("5xy0", binary "SE " vy),
    ("6xkk", binary "LD " byte), ("7xkk", binary "ADD " byte),
    ("8xy0", binary "LD " vy), ("8xy1", binary "OR " vy), ("8xy2", binary "AND " vy),
    ("8xy3", binary "XOR " vy), ("8xy4", binary "ADD " vy), ("8xy5", binary "SUB " vy),
    ("8xy6", shift "SHR "), ("8xy7", binary "SUBN " vy), ("8xyE", shift "SHL "),
    ("9xy0", binary "SNE " vy), ("Annn", .text "LD I, " :: address),
    ("Bnnn", .text "JP V0, " :: address), ("Cxkk", binary "RND " byte),
    ("Dxyn", binary "DRW " (vy ++ [.text ", 0x", .gap "n" 1])),
    ("Ex9E", .text "SKP " :: vx), ("ExA1", .text "SKNP " :: vx),
    ("Fx07", binary "LD " [.text "DT"]), ("Fx0A", binary "LD " [.text "K"]),
    ("Fx15", .text "LD DT, " :: vx), ("Fx18", .text "LD ST, " :: vx),
    ("Fx1E", .text "ADD I, " :: vx), ("Fx29", .text "LD F, " :: vx),
    ("Fx33", .text "LD B, " :: vx), ("Fx55", .text "LD [I], " :: vx),
    ("Fx65", binary "LD " [.text "[I]"]), ("????", [.text "??? 0x", .gap "opcode" 4])]

end Format

/-- The mnemonic of an instruction, if there is a format for its form and it has
    all fields of the format. -/
def Instruction.describe? (ins : Instruction) : Option String := do
  (← Format.mnemonics.lookup ins.form.template).fill? ins.word.operands.field?

/-- Every instruction has a mnemonic, its text. -/
theorem describe?_eq (ins : Instruction) : ins.describe? = some ins.text := by
  obtain ⟨f, w⟩ := ins
  cases f <;> simp [Instruction.describe?, Instruction.text, Form.mnemonic, Form.template,
    Format.mnemonics, List.lookup_cons, Format.fill?, Format.binary, Format.shift, Format.vx,
    Format.vy, Format.byte, Format.address, Operands.field?, Operands.vx, Operands.vy,
    Operands.byte, Operands.address, String.append_assoc]

/-! ### Registers -/

namespace Registers

/-- The values that the text of the registers shows, in their order. -/
def shown (r : Registers) : List Int :=
  r.v.toList.reverse.map (fun b => (b.toNat : Int)) ++ [(r.i.toNat : Int), r.pc]

/-- The format of the registers, its fields being places among the values. -/
def dumpFormat : Format Nat :=
  .text "V: 0x" :: (List.range' 0 count).map (.gap · 2) ++
    [.text " I: 0x", .gap count 4, .text " PC: 0x", .gap (count + 1) 3]

/-- The text of the registers, if there is a value for every gap. -/
def dump? (r : Registers) : Option String :=
  dumpFormat.fill? (r.shown[·]?)

end Registers

/-- The gap of a byte is filled by its two digits. -/
theorem text_byte (b : UInt8) : Hex.text 2 b.toNat = String.ofList (Hex.byteDigits b) := by
  have h : ∀ n < 256, List.replicate (2 - (Hex.digits n).length) '0' ++ Hex.digits n =
      [Hex.digit (n / 16), Hex.digit (n % 16)] := by decide +kernel
  exact congrArg String.ofList (h b.toNat b.toNat_lt)

/-- Neighbouring gaps are filled by the bytes whose places they name. -/
theorem fill?_bytes (bytes : List UInt8) (before after : List Int) :
    Format.fill? ((before ++ bytes.map (fun b => (b.toNat : Int)) ++ after)[·]?)
      ((List.range' before.length bytes.length).map (.gap · 2)) = some (Hex.ofBytes bytes) := by
  induction bytes generalizing before with
  | nil => rfl
  | cons b bytes ih =>
    have hrest := ih (before ++ [(b.toNat : Int)])
    simp only [List.append_assoc, List.length_append, List.length_singleton,
      List.cons_append, List.nil_append] at hrest
    simp [Format.fill?, List.range'_succ, hrest, text_byte, Hex.ofBytes]

/-- The registers have a value for every gap, and so a text. -/
theorem dump?_eq (r : Registers) : r.dump? = some r.dump := by
  have hv : Format.fill? (r.shown[·]?) ((List.range' 0 Registers.count).map (.gap · 2)) =
      some (Hex.ofBytes r.v.toList.reverse) := by
    simpa [Registers.count, Registers.shown] using
      fill?_bytes r.v.toList.reverse [] [(r.i.toNat : Int), r.pc]
  have hi : r.shown[Registers.count]? = some (r.i.toNat : Int) := by
    simp [Registers.shown, Registers.count]
  have hpc : r.shown[Registers.count + 1]? = some r.pc := by
    simp [Registers.shown, Registers.count]
  simp [Registers.dump?, Registers.dumpFormat, Format.fill?, Format.fill?_append, hv, hi, hpc,
    Registers.dump, String.append_assoc]

end Chip8
