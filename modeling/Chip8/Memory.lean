import Chip8.Bytes
import Chip8.Instruction
import Chip8.Text.Hex

/-!
# Memory

A row of byte cells. A running program reaches them through an index register
that is wider than the row, so its accesses wrap round (`fetch`, `put`). The
host's accesses are checked instead: one past the end is refused, and nothing
is stored.

The checks look at the last byte of an access only. A word that starts at -1
has its last byte at 0 and is read, its first byte being the last cell; a block
that starts below 0 and ends inside passes the check as well, but the stretch
it names is not as long as the block, so it is refused all the same.
-/

namespace Chip8

-- The zero of `NeZero`, as for rows of bytes.
attribute [local instance (high)] Zero.ofOfNat0

/-- A memory of a number of byte cells. -/
structure Memory (size : Nat) where
  cells : Vector UInt8 size
  deriving DecidableEq

/-- Why an access is refused. -/
inductive MemoryError
  /-- The address of its last byte is outside of memory. -/
  | outside (address : Int)
  /-- The value to store is not a byte. -/
  | notAByte
  /-- The block is not as long as the stretch it is stored in. -/
  | lengthMismatch
  /-- There is no cell to wrap round to. -/
  | noCells
  /-- A memory cannot have a negative size. -/
  | negativeSize
  deriving DecidableEq, Repr

/-- The text of a refusal that has one. -/
def MemoryError.message? : MemoryError → Option String
  | outside address => some ("Address 0x" ++ Hex.text 0 address ++ " is outside of memory")
  | _ => none

namespace Memory

/-- Cells of the machine's memory. -/
abbrev standardSize : Nat := 4096

instance instNeZeroStandardSize : NeZero standardSize := ⟨by decide⟩

variable {size : Nat}

/-- A memory whose cells are all zero. -/
def blank (size : Nat) : Memory size := ⟨Vector.replicate size 0⟩

/-- A blank memory of the size an integer gives. -/
def create (size : Int) : Except MemoryError ((n : Nat) × Memory n) :=
  if size < 0 then .error .negativeSize else .ok ⟨size.toNat, blank size.toNat⟩

/-! ### Accesses that wrap round -/

/-- The cell that an address falls on. -/
def cell (size : Nat) [NeZero size] (address : Int) : Fin size :=
  ⟨(address % size).toNat, by
    have := Nat.pos_of_ne_zero (NeZero.ne size)
    have := Int.emod_lt_of_pos address (b := size) (by omega)
    have := Int.emod_nonneg address (b := size) (by omega)
    omega⟩

/-- The byte that an address falls on. -/
def fetch [NeZero size] (m : Memory size) (address : Int) : UInt8 :=
  m.cells[cell size address]

/-- The memory with a byte stored where an address falls. -/
def put [NeZero size] (m : Memory size) (address : Int) (b : UInt8) : Memory size :=
  ⟨m.cells.set (cell size address) b⟩

/-- The memory with bytes stored from an address on, one by one. -/
def putAll [NeZero size] (m : Memory size) : Int → List UInt8 → Memory size
  | _, [] => m
  | address, b :: rest => (m.put address b).putAll (address + 1) rest

/-- The bytes from an address on. -/
def fetchAll [NeZero size] (m : Memory size) (address : Int) (count : Nat) : List UInt8 :=
  (List.range count).map fun k => m.fetch (address + Int.ofNat k)

/-- The address reduced to the size, if there is any cell. -/
def wrap (_ : Memory size) (address : Int) : Except MemoryError Int :=
  if size = 0 then .error .noCells else .ok (address % size)

/-- The byte that an address falls on, if there is any cell. -/
def readWrapped (m : Memory size) (address : Int) : Except MemoryError UInt8 :=
  if h : size = 0 then .error .noCells
  else
    have : NeZero size := ⟨h⟩
    .ok (m.fetch address)

/-- Stores a value where an address falls, if there is any cell. -/
def writeWrapped (m : Memory size) (address value : Int) : Except MemoryError (Memory size) :=
  if h : size = 0 then .error .noCells
  else
    have : NeZero size := ⟨h⟩
    match byte? value with
    | some b => .ok (m.put address b)
    | none => .error .notAByte

/-! ### Checked accesses -/

/-- Whether an address is that of a cell. -/
def inBounds (_ : Memory size) (address : Int) : Bool :=
  0 ≤ address && address < size

/-- Refuses an address outside of memory. -/
def check (m : Memory size) (address : Int) : Except MemoryError Unit :=
  if m.inBounds address then .ok () else .error (.outside address)

/-- The cell at a position, negative ones counting from the end. -/
def at? (m : Memory size) (k : Int) : Except MemoryError UInt8 :=
  match position? size k with
  | some p => .ok m.cells[p]
  | none => .error (.outside k)

/-- The byte at an address. -/
def read (m : Memory size) (address : Int) : Except MemoryError UInt8 := do
  m.check address
  m.at? address

/-- The big-endian word at an address, its last byte being checked. -/
def readWord (m : Memory size) (address : Int) : Except MemoryError Word := do
  m.check (address + 1)
  return Word.ofBytes (← m.at? address) (← m.at? (address + 1))

/-- The bytes between two positions. -/
def readBlock (m : Memory size) (address length : Int) : List UInt8 :=
  (Span.of size address (address + length)).extract m.cells

/-- Stores a value at an address. -/
def write (m : Memory size) (address value : Int) : Except MemoryError (Memory size) := do
  m.check address
  match position? size address, byte? value with
  | some p, some b => return ⟨m.cells.set p b⟩
  | none, _ => throw (.outside address)
  | _, none => throw .notAByte

/-- Stores a block at an address, its last byte being checked. -/
def writeBlock (m : Memory size) (address : Int) (block : List UInt8) :
    Except MemoryError (Memory size) := do
  m.check (address + block.length - 1)
  match overwrite? m.cells (Span.of size address (address + block.length)) block with
  | some cells => return ⟨cells⟩
  | none => throw .lengthMismatch

end Memory

end Chip8
