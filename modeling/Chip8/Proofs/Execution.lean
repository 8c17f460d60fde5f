import Chip8.Machine.Step
import Chip8.Proofs.Decoding
import Chip8.Proofs.Registers

/-!
# What a step does

A step is one of four things (`StepCase`): a halted machine stays as it is, a
word that is not wholly inside memory halts the machine, the call stack refuses
a call or a return and halts it, or an instruction is executed. About the
execution of an instruction:

* `execute_eq_error_iff`: only a return without a call and a call too deep are
  refused;
* `execute_frame`: what each form of instruction leaves alone;
* `execute_pc`: where the program counter ends up (`nextPc`).
-/

namespace Chip8.Machine

variable {s : Setup} {m : Machine} {w : Word} {e : Effect}

/-! ### Fetching -/

/-- The big-endian word at an address. -/
def wordAt (m : Machine) (address : Int) : Word :=
  Word.ofBytes (m.memory.fetch address) (m.memory.fetch (address + 1))

/-- Which addresses are those of a word that is wholly inside memory. -/
theorem inBounds_word_iff (memory : Memory Memory.standardSize) (address : Int) :
    (memory.inBounds address && memory.inBounds (address + 1)) = true ↔
      0 ≤ address ∧ address ≤ 0xFFE := by
  simp only [Memory.inBounds, Memory.standardSize, Bool.and_eq_true, decide_eq_true_eq]
  omega

theorem nextWord?_eq_some_iff :
    m.nextWord? = some w ↔
      (0 ≤ m.registers.pc ∧ m.registers.pc ≤ 0xFFE) ∧ m.wordAt m.registers.pc = w := by
  simp only [nextWord?, inBounds_word_iff, Option.ite_none_right_eq_some, Option.some.injEq,
    wordAt]

theorem nextWord?_eq_none_iff :
    m.nextWord? = none ↔ ¬(0 ≤ m.registers.pc ∧ m.registers.pc ≤ 0xFFE) := by
  refine ⟨fun h hpc => ?_, fun h => ?_⟩
  · rw [nextWord?_eq_some_iff.2 ⟨hpc, rfl⟩] at h
    cases h
  · cases hw : m.nextWord? with
    | none => rfl
    | some w => exact absurd (nextWord?_eq_some_iff.1 hw).1 h

/-- The next step of the machine fetches the word `w`: it runs, and the word at
    its program counter is wholly inside memory. -/
structure Fetches (m : Machine) (w : Word) : Prop where
  running : m.fault = none
  range : 0 ≤ m.registers.pc ∧ m.registers.pc ≤ 0xFFE
  word : m.wordAt m.registers.pc = w

instance instDecidableFetches (m : Machine) (w : Word) : Decidable (m.Fetches w) :=
  decidable_of_iff (m.fault = none ∧ (0 ≤ m.registers.pc ∧ m.registers.pc ≤ 0xFFE) ∧
      m.wordAt m.registers.pc = w)
    ⟨fun ⟨running, range, word⟩ => ⟨running, range, word⟩, fun h => ⟨h.running, h.range, h.word⟩⟩

/-! ### Executing -/

/-- What an instruction of some form leaves alone. -/
structure Frame (f : Form) (m m' : Machine) : Prop where
  memory : f ≠ .decimal → f ≠ .store → m'.memory = m.memory
  display : f ≠ .clear → f ≠ .draw → m'.display = m.display
  stack : f ≠ .ret → f ≠ .call → m'.stack = m.stack
  timers : f ≠ .setDelay → f ≠ .setSound → m'.timers = m.timers
  keypad : f ≠ .awaitKey → m'.keypad = m.keypad
  awaiting : f ≠ .awaitKey → m'.awaiting = m.awaiting
  draws : f ≠ .random → m'.draws = m.draws
  diagnostics : m'.diagnostics = m.diagnostics
  program : m'.program = m.program
  opcode : m'.opcode = m.opcode
  address : m'.address = m.address
  fault : m'.fault = m.fault

theorem execute_frame {ins : Instruction} (h : m.execute s ins = .ok e) :
    Frame ins.form m e.machine := by
  obtain ⟨f, w⟩ := ins
  cases f <;> simp only [execute] at h
  case ret => split at h <;> cases h; constructor <;> simp
  case call => split at h <;> cases h; constructor <;> simp
  case awaitKey =>
    -- The wait goes on, ends or begins; all three keep to registers and keypad.
    cases h
    unfold awaitKey
    split
    · split <;> constructor <;> simp
    · constructor <;> simp
  all_goals
    cases h
    constructor <;>
      simp [withRegisters, skipIf, drawSprite, storeAtIndex, storeRegisters, loadRegisters]

/-- An instruction is refused if it returns without a call, or calls too deep. -/
theorem execute_eq_error_iff {ins : Instruction} {c : FaultCause} :
    m.execute s ins = .error c ↔
      (ins.form = .ret ∧ m.stack.items = [] ∧ c = .stack .underflow) ∨
        (ins.form = .call ∧ (m.stack.items.length : Int) ≥ m.stack.limit ∧
          c = .stack .overflow) := by
  obtain ⟨f, w⟩ := ins
  cases f <;> simp only [execute, reduceCtorEq, false_and, or_false, false_or, true_and]
  case ret =>
    cases h : m.stack.items <;> simp [CallStack.pop, h, eq_comm]
  case call =>
    by_cases h : (m.stack.items.length : Int) ≥ m.stack.limit <;>
      simp [CallStack.push, h, eq_comm]

/-- What an executed instruction does to the call stack. -/
theorem execute_stack {ins : Instruction} (h : m.execute s ins = .ok e) :
    match ins.form with
    | .call => (m.stack.items.length : Int) < m.stack.limit ∧
        e.machine.stack = { m.stack with items := m.registers.pc :: m.stack.items }
    | .ret => m.stack.items ≠ [] ∧ e.machine.stack = { m.stack with items := m.stack.items.tail }
    | _ => e.machine.stack = m.stack := by
  have hframe := execute_frame h
  obtain ⟨f, w⟩ := ins
  cases f <;> try exact hframe.stack (by simp) (by simp)
  case ret =>
    simp only [execute, CallStack.pop] at h
    cases hs : m.stack.items <;> simp only [hs, reduceCtorEq] at h
    cases h
    simp
  case call =>
    simp only [execute, CallStack.push] at h
    split at h <;> rename_i hp
    · split at hp <;> cases hp
      cases h
      exact ⟨Int.not_le.1 ‹_›, rfl⟩
    · cases h

/-- The program counter after an instruction, from the machine that is about to
    fetch it: what a jump, a call or a return names; two instructions on for a
    skip whose condition holds; the instruction itself while it waits for a
    key; and the next instruction for all others. -/
def nextPc (d : Dialect) (m : Machine) (w : Word) : Int :=
  let pc := m.registers.pc
  let v := m.registers.v
  let skip (condition : Bool) : Int := if condition then pc + 4 else pc + 2
  match Form.ofWord w with
  | .jump | .call => w.nnn
  | .ret => m.stack.items.headD (pc + 2)
  | .jumpOffset => w.nnn + (match d.jump with | .v0 => v[0] | .vx => v[w.x]).toNat
  | .skipEqByte => skip (v[w.x] == w.kk)
  | .skipNeByte => skip (v[w.x] != w.kk)
  | .skipEqReg => skip (v[w.x] == v[w.y])
  | .skipNeReg => skip (v[w.x] != v[w.y])
  | .skipHeld => skip (m.keypad.isHeld v[w.x].toNat)
  | .skipReleased => skip (!m.keypad.isHeld v[w.x].toNat)
  | .awaitKey => if m.awaiting && m.keypad.latch.isSome then pc + 2 else pc
  | _ => pc + 2

theorem pc_skipIf (condition : Bool) :
    (m.skipIf condition).machine.registers.pc =
      if condition then m.registers.pc + 2 else m.registers.pc := by
  cases condition <;> rfl

theorem pc_awaitKey (x : Fin 16) :
    (m.awaitKey x).registers.pc =
      if m.awaiting && m.keypad.latch.isSome then m.registers.pc else m.registers.pc - 2 := by
  unfold awaitKey
  cases m.awaiting <;> cases m.keypad.latch <;> simp

@[simp] theorem pc_advanced (d : Dialect) (r : Registers) (count : Nat) :
    (advanced d r count).pc = r.pc := by
  unfold advanced
  split <;> rfl

theorem execute_pc (h : (m.fetched w).execute s (.decode w) = .ok e) :
    e.machine.registers.pc = m.nextPc s.config.dialect w := by
  simp only [execute, Instruction.decode] at h
  unfold nextPc
  cases hf : Form.ofWord w <;> simp only [hf] at h ⊢
  case ret =>
    cases hs : m.stack.items <;> simp only [fetched, CallStack.pop, hs, reduceCtorEq] at h
    cases h
    rfl
  case call => split at h <;> cases h; rfl
  case awaitKey =>
    cases h
    simp [pc_awaitKey, fetched]
  case jumpOffset =>
    cases h
    cases s.config.dialect.jump <;> simp [withRegisters, fetched, Int.add_comm]
  all_goals
    cases h
    simp [pc_skipIf, withRegisters, fetched, drawSprite, storeAtIndex, storeRegisters,
      loadRegisters, Int.add_assoc]

/-! ### Stepping -/

/-- The report of a machine that halts. -/
def faultNow (m : Machine) (c : FaultCause) : Fault :=
  ⟨c, m.registers, m.timers, m.stack.toList, m.opcode, m.address⟩

/-- The machine with the anomaly of an instruction, if there is any, among its
    diagnostics. -/
def reported (m : Machine) (a : Option Anomaly) : Machine :=
  { m with
    diagnostics := a.elim m.diagnostics fun a =>
      latest diagnosticLimit (m.diagnostics ++ [⟨m.address, m.opcode, a⟩]) }

theorem commit_machine (e : Effect) (ins : Instruction) (log : List LogLine) :
    (commit e ins log).machine = e.machine.reported e.anomaly := by
  unfold commit
  split <;> simp [*, reported, report]

theorem commit_result (e : Effect) (ins : Instruction) (log : List LogLine) :
    (commit e ins log).result = .ok ins := by
  unfold commit
  split <;> rfl

/-- A step that executes an instruction takes its effect over. -/
theorem step_of_execute (hrun : m.fault = none) (hword : m.nextWord? = some w)
    (he : (m.fetched w).execute s (.decode w) = .ok e) :
    (m.step s).machine = e.machine.reported e.anomaly ∧ (m.step s).result = .ok (.decode w) := by
  simp only [step, hrun, hword, he]
  exact ⟨commit_machine _ _ _, commit_result _ _ _⟩

theorem Fetches.step (h : m.Fetches w) (he : (m.fetched w).execute s (.decode w) = .ok e) :
    (m.step s).machine = e.machine.reported e.anomaly ∧ (m.step s).result = .ok (.decode w) :=
  step_of_execute h.running (nextWord?_eq_some_iff.2 ⟨h.range, h.word⟩) he

/-- Only returns and calls are ever refused. -/
theorem Fetches.result (h : m.Fetches w) (hret : Form.ofWord w ≠ .ret)
    (hcall : Form.ofWord w ≠ .call) : (m.step s).result = .ok (.decode w) := by
  cases he : (m.fetched w).execute s (.decode w) with
  | error c =>
    rcases execute_eq_error_iff.1 he with ⟨hform, -⟩ | ⟨hform, -⟩
    · exact absurd hform hret
    · exact absurd hform hcall
  | ok e => exact (h.step he).2

/-- A step whose instruction is refused halts the machine, the word fetched. -/
theorem step_of_refusal {c : FaultCause} (hrun : m.fault = none) (hword : m.nextWord? = some w)
    (he : (m.fetched w).execute s (.decode w) = .error c) :
    (m.step s).machine = { m.fetched w with fault := some ((m.fetched w).faultNow c) } ∧
      (m.step s).result = .error ((m.fetched w).faultNow c) := by
  simp only [step, hrun, hword, he]
  exact ⟨rfl, rfl⟩

/-- A step whose word is not wholly inside memory halts the machine. -/
theorem step_of_outside (hrun : m.fault = none) (hword : m.nextWord? = none) :
    (m.step s).machine =
        { m with fault := some (m.faultNow (.fetchOutside m.registers.pc)) } ∧
      (m.step s).result = .error (m.faultNow (.fetchOutside m.registers.pc)) := by
  simp only [step, hrun, hword]
  exact ⟨rfl, rfl⟩

/-- The four things that a step can be. -/
inductive StepCase (s : Setup) (m : Machine) : Prop
  /-- The machine is halted and stays so. -/
  | halted (f : Fault) (fault : m.fault = some f)
      (machine : (m.step s).machine = m) (result : (m.step s).result = .error f)
  /-- The next word is not wholly inside memory. -/
  | outside (running : m.fault = none)
      (range : ¬(0 ≤ m.registers.pc ∧ m.registers.pc ≤ 0xFFE))
      (machine : (m.step s).machine =
        { m with fault := some (m.faultNow (.fetchOutside m.registers.pc)) })
      (result : (m.step s).result = .error (m.faultNow (.fetchOutside m.registers.pc)))
  /-- The instruction is refused by the call stack. -/
  | refused (w : Word) (c : FaultCause) (running : m.fault = none)
      (range : 0 ≤ m.registers.pc ∧ m.registers.pc ≤ 0xFFE) (word : m.wordAt m.registers.pc = w)
      (refusal : (m.fetched w).execute s (.decode w) = .error c)
      (machine : (m.step s).machine =
        { m.fetched w with fault := some ((m.fetched w).faultNow c) })
      (result : (m.step s).result = .error ((m.fetched w).faultNow c))
  /-- The instruction is executed. -/
  | executed (w : Word) (e : Effect) (running : m.fault = none)
      (range : 0 ≤ m.registers.pc ∧ m.registers.pc ≤ 0xFFE) (word : m.wordAt m.registers.pc = w)
      (effect : (m.fetched w).execute s (.decode w) = .ok e)
      (machine : (m.step s).machine = e.machine.reported e.anomaly)
      (result : (m.step s).result = .ok (.decode w))

theorem stepCase (s : Setup) (m : Machine) : StepCase s m := by
  cases hf : m.fault with
  | some f => exact .halted f hf (by simp [step, hf]) (by simp [step, hf])
  | none =>
    cases hw : m.nextWord? with
    | none =>
      obtain ⟨machine, result⟩ := step_of_outside hf hw
      exact .outside hf (nextWord?_eq_none_iff.1 hw) machine result
    | some w =>
      obtain ⟨range, word⟩ := nextWord?_eq_some_iff.1 hw
      cases he : (m.fetched w).execute s (.decode w) with
      | error c =>
        obtain ⟨machine, result⟩ := step_of_refusal hf hw he
        exact .refused w c hf range word he machine result
      | ok e =>
        obtain ⟨machine, result⟩ := step_of_execute hf hw he
        exact .executed w e hf range word he machine result

/-- A step that returns has executed the word at the program counter. -/
theorem exists_effect_of_result {ins : Instruction} (h : (m.step s).result = .ok ins) :
    ∃ w e, m.Fetches w ∧ ins = .decode w ∧ (m.fetched w).execute s (.decode w) = .ok e ∧
      (m.step s).machine = e.machine.reported e.anomaly := by
  cases stepCase s m with
  | halted f fault machine result => rw [result] at h; cases h
  | outside running range machine result => rw [result] at h; cases h
  | refused w c running range word refusal machine result => rw [result] at h; cases h
  | executed w e running range word effect machine result =>
    rw [result] at h
    cases h
    exact ⟨w, e, ⟨running, range, word⟩, rfl, effect, machine⟩

/-- The standard configuration, with all random numbers zero. -/
def standardSetup : Setup := ⟨{}, fun _ => 0, false⟩

end Chip8.Machine
