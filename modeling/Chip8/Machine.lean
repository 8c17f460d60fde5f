import Chip8.CallStack
import Chip8.Display
import Chip8.Font
import Chip8.Instruction
import Chip8.Keypad
import Chip8.Memory
import Chip8.Product
import Chip8.Program
import Chip8.Registers
import Chip8.Timers

/-!
# The machine

Memory, registers, call stack, timers, display and keypad, with what the
machine remembers about itself: the stored program, the anomalies it met, the
instruction last fetched, whether it waits for a key, the fault that halted it,
and how many random numbers it drew.

* `Machine.powerOn`: the machine of a configuration before any program;
* `Machine.reset`: back to that state with the stored program in memory, the
  held keys and the random numbers drawn going on;
* `Machine.load`: storing a program, checked as a whole before anything
  changes, and a reset.

What a running machine cannot survive is a `Fault`: it keeps what there was to
report when it happened, and stays until the next reset. What it can survive,
such as a word of no form, is an `Anomaly`, reported as a `Diagnostic`.
-/

namespace Chip8

/-- Why a machine halts. -/
inductive FaultCause
  /-- The next instruction is not wholly inside memory. -/
  | fetchOutside (pc : Int)
  /-- A call or a return was refused by the stack. -/
  | stack (e : StackError)
  deriving DecidableEq, Repr

/-- The reason in words. -/
def FaultCause.message : FaultCause → String
  | fetchOutside pc => "Program counter 0x" ++ Hex.text 0 pc ++ " is outside of memory"
  | stack e => e.message

/-- A halt: its cause, and the state of the machine when it happened. -/
structure Fault where
  cause : FaultCause
  registers : Registers
  timers : Timers
  stack : List Int
  opcode : Word
  address : Int
  deriving DecidableEq

namespace Fault

/-- The return addresses at the time of the halt, the outermost first. -/
def stackText (f : Fault) : String :=
  match f.stack with
  | [] => " (Empty)"
  | addresses => String.join (addresses.map fun a => " 0x" ++ Hex.text 3 a)

/-- The state of the machine at the time of the halt. -/
def dump (f : Fault) : String :=
  f.registers.dump ++ " DT: 0x" ++ Hex.text 2 f.timers.delay.toNat ++ " ST: 0x" ++
    Hex.text 2 f.timers.sound.toNat ++ "\nStack:" ++ f.stackText

/-- The report of a halt. -/
def message (f : Fault) : String :=
  "Emulation halted.\n\n" ++ Product.intro ++ "Debug info:\n" ++ f.dump ++ "\n\n" ++
    f.cause.message ++ ".  Last opcode 0x" ++ Hex.text 4 f.opcode.toNat ++ " at address 0x" ++
    Hex.text 3 f.address ++ "."

end Fault

/-- Something odd that execution carries on after. -/
inductive Anomaly
  /-- The word has no form. -/
  | unknownWord (w : Word)
  /-- An access through the index register ran past the end of memory. -/
  | indexWrapped (index : Nat) (count : Nat)
  deriving DecidableEq, Repr

/-- The anomaly in words. -/
def Anomaly.message : Anomaly → String
  | unknownWord w => "Unknown opcode 0x" ++ Hex.text 4 w.toNat ++ " skipped"
  | indexWrapped index count =>
    "Index register access 0x" ++ Hex.text 4 index ++ "+" ++ toString count ++
      " wrapped round memory"

/-- An anomaly with the instruction it happened in. -/
structure Diagnostic where
  address : Int
  opcode : Word
  anomaly : Anomaly
  deriving DecidableEq, Repr

/-- Diagnostics that are kept, the latest ones. -/
def diagnosticLimit : Nat := 256

/-- The last items of a list, `limit` at most. -/
def latest {α : Type} (limit : Nat) (items : List α) : List α :=
  items.drop (items.length - limit)

theorem length_latest {α : Type} (limit : Nat) (items : List α) :
    (latest limit items).length = min limit items.length := by
  rw [latest, List.length_drop]
  omega

/-- The state of a machine. -/
structure Machine where
  memory : Memory Memory.standardSize
  registers : Registers
  stack : CallStack
  timers : Timers
  display : Display Display.standardWidth Display.standardHeight
  keypad : Keypad
  /-- The latest diagnostics, in the order in which they came. -/
  diagnostics : List Diagnostic
  /-- The stored program, empty if there is none. -/
  program : List UInt8
  /-- The word last fetched. -/
  opcode : Word
  /-- Where it was fetched. -/
  address : Int
  /-- Whether an instruction waits for a key. -/
  awaiting : Bool
  /-- Why the machine is halted. -/
  fault : Option Fault
  /-- How many random numbers were drawn. -/
  draws : Nat
  deriving DecidableEq

/-- What a machine runs with: its configuration, the random numbers it is given
    in turn, and whether it traces what it executes. -/
structure Setup where
  config : Config
  random : Nat → Int
  debug : Bool

namespace Machine

/-- Memory with the font and a program. -/
def image (loadOffset : Nat) (program : List UInt8) : Memory Memory.standardSize :=
  ((Memory.blank Memory.standardSize).putAll Font.address Font.glyphs).putAll loadOffset program

/-- The machine reset, its stored program in memory. -/
def reset (c : Config) (m : Machine) : Machine where
  memory := image c.loadOffset m.program
  registers := Registers.blank c.loadOffset
  stack := CallStack.empty CallStack.standardLimit
  timers := ⟨0, 0⟩
  display := Display.dark _ _ true
  keypad := m.keypad.forget
  diagnostics := []
  program := m.program
  opcode := 0
  address := c.loadOffset
  awaiting := false
  fault := none
  draws := m.draws

/-- The machine of a configuration, without a program. -/
def powerOn (c : Config) : Machine where
  memory := image c.loadOffset []
  registers := Registers.blank c.loadOffset
  stack := CallStack.empty CallStack.standardLimit
  timers := ⟨0, 0⟩
  display := Display.dark _ _ true
  keypad := Keypad.released
  diagnostics := []
  program := []
  opcode := 0
  address := c.loadOffset
  awaiting := false
  fault := none
  draws := 0

/-- What the renderer is told at every reset. -/
def resetCommands : List RenderCommand :=
  Display.erasure Display.standardWidth Display.standardHeight

/-- What the renderer is told when a machine is made. -/
def powerOnCommands : List RenderCommand :=
  .resolution Display.standardWidth Display.standardHeight :: resetCommands

/-- The machine with a program stored and loaded. -/
def load (c : Config) (m : Machine) (image : Image) : Except ProgramError Machine := do
  let program ← Program.check image c.loadOffset
  return { m with program := program }.reset c

/-- One tick of the timers. -/
def tick (m : Machine) : Machine :=
  { m with timers := m.timers.tick }

/-- Holds or releases a key. -/
def setKey (m : Machine) (k : Int) (pressed : Bool) : Except KeypadError Machine := do
  return { m with keypad := ← m.keypad.setKey k pressed }

/-! ### What a debugger does -/

/-- Stores bytes in memory, within its bounds. -/
def poke (m : Machine) (address : Int) (bytes : List UInt8) : Except MemoryError Machine := do
  return { m with memory := ← m.memory.writeBlock address bytes }

/-- Stores a word in memory, within its bounds. -/
def pokeWord (m : Machine) (address : Int) (w : Word) : Except MemoryError Machine :=
  m.poke address [UInt8.ofNat (w.toNat / 256), UInt8.ofNat (w.toNat % 256)]

/-- Stores a value in the register that an integer names. -/
def setRegister (m : Machine) (k value : Int) : Except RegisterError Machine := do
  return { m with registers := ← m.registers.store k value }

/-- Sets the index register. -/
def setIndex (m : Machine) (value : Int) : Machine :=
  { m with registers := m.registers.setIndex value }

/-- Sets the program counter. -/
def setPc (m : Machine) (pc : Int) : Machine :=
  { m with registers := m.registers.setPc pc }

/-- Puts a return address on the call stack. -/
def pushReturn (m : Machine) (address : Int) : Except StackError Machine := do
  return { m with stack := ← m.stack.push address }

/-- Whether the buzzer sounds. -/
def sounding (m : Machine) : Bool :=
  m.timers.sounding

end Machine

end Chip8
