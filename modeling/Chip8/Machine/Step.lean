import Chip8.Instruction.Mnemonic
import Chip8.Log
import Chip8.Machine
import Chip8.Machine.Arithmetic

/-!
# Execution

A step fetches the word at the program counter, moves the counter past it,
decodes the word and executes the instruction (`Machine.execute`), so that
jumps and calls replace the counter and a skip adds to it.

* A word that is not wholly inside memory, a call too deep and a return with
  nothing to return to halt the machine, before anything else changes.
* Accesses through the index register wrap round memory, and are reported if
  they do.
* Waiting for a key does not block: the instruction moves the counter back to
  itself and is executed again by the next step, until a key has been pressed
  since the wait began.
-/

namespace Chip8

/-- What executing an instruction does: the machine afterwards, what the
    renderer is told, and what was odd about it. -/
structure Effect where
  machine : Machine
  commands : List RenderCommand := []
  anomaly : Option Anomaly := none

/-- What a step does: the machine afterwards, the instruction executed or the
    fault, what the renderer is told, and the lines for the log. -/
structure StepResult where
  machine : Machine
  result : Except Fault Instruction
  commands : List RenderCommand
  log : List LogLine

namespace Machine

/-- The machine with other registers. -/
def withRegisters (m : Machine) (r : Registers) : Effect :=
  { machine := { m with registers := r } }

/-- The machine past the next instruction, if a condition holds. -/
def skipIf (m : Machine) (condition : Bool) : Effect :=
  m.withRegisters (if condition then m.registers.setPc (m.registers.pc + 2) else m.registers)

/-- The anomaly of an access to `count` bytes through the index register. -/
def indexAnomaly (m : Machine) (count : Nat) : Option Anomaly :=
  if m.registers.i.toNat + count > Memory.standardSize then
    some (.indexWrapped m.registers.i.toNat count)
  else none

/-- The index moved past `count` bytes, in a dialect that does so. -/
def advanced (d : Dialect) (r : Registers) (count : Nat) : Registers :=
  if d.advanceIndex then r.setIndex (r.i.toNat + count) else r

/-- Waits for a key: the press latched since the wait began goes to register
    `x`; without one the instruction is to be executed again. -/
def awaitKey (m : Machine) (x : Fin 16) : Machine :=
  let back := m.registers.setPc (m.registers.pc - 2)
  if m.awaiting then
    match m.keypad.latch with
    | some key =>
      { m with registers := m.registers.set x (UInt8.ofNat key.val), awaiting := false }
    | none => { m with registers := back }
  else { m with registers := back, keypad := m.keypad.forget, awaiting := true }

/-- Draws the sprite of `n` rows that the index register points to. -/
def drawSprite (d : Dialect) (m : Machine) (x y : Fin 16) (n : Nat) : Effect :=
  let r := m.registers
  let rows := (m.memory.fetchAll r.i.toNat n).map fun b => Int.ofNat b.toNat
  let drawing := m.display.draw d.edges r.v[x].toNat r.v[y].toNat rows
  { machine := { m with display := drawing.display, registers := r.setFlag drawing.collided }
    commands := drawing.commands
    anomaly := m.indexAnomaly n }

/-- The decimal digits of a byte. -/
def decimalDigits (b : UInt8) : List UInt8 :=
  [b / 100, b / 10 % 10, b % 10]

/-- Stores bytes where the index register points to. -/
def storeAtIndex (m : Machine) (bytes : List UInt8) : Effect :=
  { machine := { m with memory := m.memory.putAll m.registers.i.toNat bytes }
    anomaly := m.indexAnomaly bytes.length }

/-- Stores `V0` to `Vx` where the index register points to. -/
def storeRegisters (d : Dialect) (m : Machine) (x : Fin 16) : Effect :=
  let stored := m.storeAtIndex (m.registers.upTo x)
  { stored with machine :=
      { stored.machine with registers := advanced d m.registers (x.val + 1) } }

/-- Loads `V0` to `Vx` from where the index register points to. -/
def loadRegisters (d : Dialect) (m : Machine) (x : Fin 16) : Effect :=
  let r := m.registers.setFirst (m.memory.fetchAll m.registers.i.toNat (x.val + 1))
  { machine := { m with registers := advanced d r (x.val + 1) }
    anomaly := m.indexAnomaly (x.val + 1) }

/-- Executes an instruction, the program counter having moved past it. -/
def execute (s : Setup) (ins : Instruction) (m : Machine) : Except FaultCause Effect :=
  let d := s.config.dialect
  let w := ins.word
  let r := m.registers
  match ins.form with
  | .sys => .ok { machine := m }
  | .clear =>
    let drawing := m.display.clear
    .ok { machine := { m with display := drawing.display }, commands := drawing.commands }
  | .ret =>
    match m.stack.pop with
    | .ok (address, stack) =>
      .ok { machine := { m with registers := r.setPc address, stack := stack } }
    | .error e => .error (.stack e)
  | .jump => .ok (m.withRegisters (r.setPc w.nnn))
  | .call =>
    match m.stack.push r.pc with
    | .ok stack => .ok { machine := { m with registers := r.setPc w.nnn, stack := stack } }
    | .error e => .error (.stack e)
  | .skipEqByte => .ok (m.skipIf (r.v[w.x] == w.kk))
  | .skipNeByte => .ok (m.skipIf (r.v[w.x] != w.kk))
  | .skipEqReg => .ok (m.skipIf (r.v[w.x] == r.v[w.y]))
  | .skipNeReg => .ok (m.skipIf (r.v[w.x] != r.v[w.y]))
  | .setByte => .ok (m.withRegisters (r.set w.x w.kk))
  | .addByte => .ok (m.withRegisters (r.addByte w.x w.kk))
  | .copy => .ok (m.withRegisters (r.set w.x r.v[w.y]))
  | .or => .ok (m.withRegisters (r.set w.x (r.v[w.x] ||| r.v[w.y])))
  | .and => .ok (m.withRegisters (r.set w.x (r.v[w.x] &&& r.v[w.y])))
  | .xor => .ok (m.withRegisters (r.set w.x (r.v[w.x] ^^^ r.v[w.y])))
  | .add => .ok (m.withRegisters (r.addReg w.x w.y))
  | .sub => .ok (m.withRegisters (r.subtract w.x r.v[w.x] r.v[w.y]))
  | .subFrom => .ok (m.withRegisters (r.subtract w.x r.v[w.y] r.v[w.x]))
  | .shiftRight => .ok (m.withRegisters (r.shiftRight w.x (r.shiftOperand d.shift w.x w.y)))
  | .shiftLeft => .ok (m.withRegisters (r.shiftLeft w.x (r.shiftOperand d.shift w.x w.y)))
  | .setIndex => .ok (m.withRegisters (r.setIndex w.nnn))
  | .jumpOffset =>
    let offset := match d.jump with
      | .v0 => r.v[(0 : Fin 16)]
      | .vx => r.v[w.x]
    .ok (m.withRegisters (r.setPc (offset.toNat + w.nnn)))
  | .random =>
    let b := Timers.lowByte (s.random m.draws) &&& w.kk
    .ok { machine := { m with registers := r.set w.x b, draws := m.draws + 1 } }
  | .draw => .ok (drawSprite d m w.x w.y w.n)
  | .skipHeld => .ok (m.skipIf (m.keypad.isHeld r.v[w.x].toNat))
  | .skipReleased => .ok (m.skipIf (!m.keypad.isHeld r.v[w.x].toNat))
  | .readDelay => .ok (m.withRegisters (r.set w.x m.timers.delay))
  | .awaitKey => .ok { machine := m.awaitKey w.x }
  | .setDelay => .ok { machine := { m with timers := m.timers.setDelay r.v[w.x].toNat } }
  | .setSound => .ok { machine := { m with timers := m.timers.setSound r.v[w.x].toNat } }
  | .addIndex => .ok (m.withRegisters (r.addIndex d.flagIndexOverflow w.x))
  | .glyph => .ok (m.withRegisters (r.setIndex (Font.glyphAddress (r.v[w.x].toNat % 16))))
  | .decimal => .ok (m.storeAtIndex (decimalDigits r.v[w.x]))
  | .store => .ok (storeRegisters d m w.x)
  | .load => .ok (loadRegisters d m w.x)
  | .unknown => .ok { machine := m, anomaly := some (.unknownWord w) }

/-- A line of the machine's log. -/
def logLine (level : Level) (text : String) : LogLine :=
  ⟨.machine, level, text⟩

/-- The trace of an instruction about to be executed, in a column for the
    mnemonic. -/
def traceLine (m : Machine) (ins : Instruction) : LogLine :=
  let mnemonic := ins.text
  logLine .debug ("0x" ++ Hex.text 3 m.address ++ ": 0x" ++ Hex.text 4 ins.word.toNat ++ " " ++
    mnemonic ++ String.ofList (List.replicate (22 - mnemonic.length) ' ') ++ " " ++
    m.registers.dump)

/-- What a trace says about an instruction besides its execution. -/
def noteLines (ins : Instruction) : List LogLine :=
  if ins.form = .sys then
    [logLine .debug ("Ignoring call to machine code routine at 0x" ++ Hex.text 3 ins.word.nnn)]
  else []

/-- The machine halted. -/
def halt (m : Machine) (cause : FaultCause) (log : List LogLine) : StepResult :=
  let fault : Fault := ⟨cause, m.registers, m.timers, m.stack.toList, m.opcode, m.address⟩
  { machine := { m with fault := some fault }
    result := .error fault
    commands := []
    log := log ++ [logLine .error (cause.message ++ " at 0x" ++ Hex.text 3 m.address)] }

/-- The machine with an anomaly among its diagnostics. -/
def report (m : Machine) (a : Anomaly) : Machine :=
  { m with diagnostics := latest diagnosticLimit (m.diagnostics ++ [⟨m.address, m.opcode, a⟩]) }

/-- The log line of an anomaly. -/
def warningLine (m : Machine) (a : Anomaly) : LogLine :=
  logLine .warning (a.message ++ " (opcode 0x" ++ Hex.text 4 m.opcode.toNat ++ " at address 0x" ++
    Hex.text 3 m.address ++ ")")

/-- Takes the effect of an instruction over. -/
def commit (e : Effect) (ins : Instruction) (log : List LogLine) : StepResult :=
  match e.anomaly with
  | some a =>
    ⟨e.machine.report a, .ok ins, e.commands, log ++ [e.machine.warningLine a]⟩
  | none => ⟨e.machine, .ok ins, e.commands, log⟩

/-- The machine with the word at its program counter fetched and the counter
    moved past it. -/
def fetched (m : Machine) (w : Word) : Machine :=
  { m with
    opcode := w
    address := m.registers.pc
    registers := m.registers.setPc (m.registers.pc + 2) }

/-- The word at the program counter, if it is wholly inside memory. -/
def nextWord? (m : Machine) : Option Word :=
  let pc := m.registers.pc
  if m.memory.inBounds pc && m.memory.inBounds (pc + 1) then
    some (Word.ofBytes (m.memory.fetch pc) (m.memory.fetch (pc + 1)))
  else none

/-- Executes one instruction; a halted machine stays halted. -/
def step (s : Setup) (m : Machine) : StepResult :=
  match m.fault with
  | some fault => ⟨m, .error fault, [], []⟩
  | none =>
    match m.nextWord? with
    | none => m.halt (.fetchOutside m.registers.pc) []
    | some w =>
      let ins := Instruction.decode w
      let m := m.fetched w
      let trace := if s.debug then m.traceLine ins :: noteLines ins else []
      match m.execute s ins with
      | .ok e => commit e ins trace
      | .error cause => m.halt cause trace

end Machine

end Chip8
