import Chip8.Proofs.Guarded.Step

/-!
# When a machine halts

A step fails for four reasons only: the machine is halted already, the next word
is not wholly inside memory, a return finds no return address, or a call finds
the stack full (`step_faults`). The failure is found before the instruction
changes anything: the machine keeps its state, the report of the fault and, if a
word was fetched, the record of it and the moved program counter apart.
-/

namespace Chip8.Machine

variable {s : Setup} {m : Machine} {w : Word} {f : Fault}

/-- The words that the call stack refuses to execute. -/
theorem execute_decode_error_iff (hlimit : m.stack.limit = CallStack.standardLimit)
    (hdepth : m.stack.items.length ≤ 16) :
    (∃ c, m.execute s (.decode w) = .error c) ↔
      (w = 0x00EE ∧ m.stack.items = []) ∨ (w.family = 0x2 ∧ m.stack.items.length = 16) := by
  have hfull : (m.stack.items.length : Int) ≥ m.stack.limit ↔ m.stack.items.length = 16 := by
    rw [hlimit, CallStack.standardLimit]
    omega
  simp only [execute_eq_error_iff, Instruction.decode, Form.ofWord_eq_ret_iff,
    Form.ofWord_eq_call_iff, hfull]
  constructor
  · rintro ⟨c, ⟨hret, hempty, -⟩ | ⟨hcall, hlength, -⟩⟩
    · exact .inl ⟨hret, hempty⟩
    · exact .inr ⟨hcall, hlength⟩
  · rintro (⟨hret, hempty⟩ | ⟨hcall, hlength⟩)
    · exact ⟨_, .inl ⟨hret, hempty, rfl⟩⟩
    · exact ⟨_, .inr ⟨hcall, hlength, rfl⟩⟩

/-- A running machine fails in a step if there is no word to fetch or the word
    is refused. -/
theorem step_error_iff_of_running (hrun : m.fault = none) :
    (∃ f, (m.step s).result = .error f) ↔
      ¬(0 ≤ m.registers.pc ∧ m.registers.pc ≤ 0xFFE) ∨
        ∃ c, (m.fetched (m.wordAt m.registers.pc)).execute s (.decode (m.wordAt m.registers.pc)) =
          .error c := by
  cases stepCase s m with
  | halted f fault => rw [hrun] at fault; cases fault
  | outside running range machine result => exact iff_of_true ⟨_, result⟩ (.inl range)
  | refused w c running range word refusal machine result =>
    subst word
    exact iff_of_true ⟨_, result⟩ (.inr ⟨c, refusal⟩)
  | executed w e running range word effect machine result =>
    subst word
    refine iff_of_false ?_ ?_
    · rintro ⟨f, hf⟩
      rw [result] at hf
      cases hf
    · rintro (hout | ⟨c, hc⟩)
      · exact hout range
      · rw [effect] at hc
        cases hc

/-- A halted machine repeats its fault. -/
theorem step_of_halted (hf : m.fault = some f) :
    (m.step s).result = .error f ∧ (m.step s).machine = m := by
  simp only [step, hf, and_self]

/-- What is left of a step that fails: the fault, and the record of the word if
    there was one. -/
theorem machine_of_new_fault (hrun : m.fault = none) (hf : (m.step s).result = .error f) :
    (m.step s).machine =
      if 0 ≤ m.registers.pc ∧ m.registers.pc ≤ 0xFFE then
        { m.fetched (m.wordAt m.registers.pc) with fault := some f }
      else { m with fault := some f } := by
  cases stepCase s m with
  | halted f' fault => rw [hrun] at fault; cases fault
  | outside running range machine result =>
    rw [result] at hf
    cases hf
    rw [machine, if_neg range]
  | refused w c running range word refusal machine result =>
    rw [result] at hf
    cases hf
    rw [machine, if_pos range, word]
  | executed w e running range word effect machine result =>
    rw [result] at hf
    cases hf

/-- Faults, exactly, in any state with a stack of the limit that machines are
    made with. No access of a step is refused; a step fails exactly if the
    machine is halted already, or the next word is not wholly inside memory, or
    it is a return with an empty stack or a call with a full one. A halted
    machine stays as it is. A new fault is kept, and changes nothing else unless
    a word was fetched: then the word, its address and the program counter past
    it are recorded. -/
theorem step_faults (s : Setup) (m : Machine)
    (hlimit : m.stack.limit = CallStack.standardLimit) (hdepth : m.stack.items.length ≤ 16) :
    let pc := m.registers.pc
    let w := m.wordAt pc
    m.stepGuarded s = .ok (m.step s) ∧
    ((∃ f, (m.step s).result = .error f) ↔
      m.fault ≠ none ∨ ¬(0 ≤ pc ∧ pc ≤ 0xFFE) ∨ (w = 0x00EE ∧ m.stack.items = []) ∨
        (w.family = 0x2 ∧ m.stack.items.length = 16)) ∧
    (∀ f, m.fault = some f → (m.step s).result = .error f ∧ (m.step s).machine = m) ∧
    (∀ f, m.fault = none → (m.step s).result = .error f →
      (m.step s).machine =
        if 0 ≤ pc ∧ pc ≤ 0xFFE then
          { m with
            opcode := w
            address := pc
            registers := m.registers.setPc (pc + 2)
            fault := some f }
        else { m with fault := some f }) := by
  intro pc w
  refine ⟨stepGuarded_eq s m, ?_, fun f => step_of_halted, fun f => machine_of_new_fault⟩
  -- A halted machine fails; a running one for want of a word or by its word.
  cases hf : m.fault with
  | some f => exact iff_of_true ⟨f, (step_of_halted hf).1⟩ (.inl nofun)
  | none =>
    rw [step_error_iff_of_running hf,
      execute_decode_error_iff (m := m.fetched (m.wordAt m.registers.pc)) hlimit hdepth]
    simp only [ne_eq, not_true_eq_false, false_or]
    rfl

/-- A machine about to make a call with its stack full. -/
def fullStack : Machine :=
  { powerOn {} with
    memory := (Memory.blank _).putAll 0x200 [0x2A, 0xBC]
    stack := ⟨List.replicate 16 0x300, 16⟩ }

/-- It halts past the call, its stack as it was. -/
theorem step_faults_fullStack :
    fullStack.stack.limit = CallStack.standardLimit ∧ fullStack.stack.items.length ≤ 16 ∧
      ∃ f, (fullStack.step standardSetup).result = .error f ∧
        (fullStack.step standardSetup).machine.registers.pc = 0x202 ∧
        (fullStack.step standardSetup).machine.stack = fullStack.stack := by
  have hdepth : fullStack.stack.items.length ≤ 16 := by decide
  obtain ⟨-, hiff, -, hnew⟩ := step_faults standardSetup fullStack rfl hdepth
  have hcall : (fullStack.wordAt fullStack.registers.pc).family = 0x2 := by decide +kernel
  obtain ⟨f, hf⟩ := hiff.2 (.inr (.inr (.inr ⟨hcall, rfl⟩)))
  have hmachine := hnew f rfl hf
  rw [if_pos (by decide)] at hmachine
  exact ⟨rfl, hdepth, f, hf, by rw [hmachine]; rfl, by rw [hmachine]⟩

end Chip8.Machine
