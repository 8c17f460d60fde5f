import Chip8.Proofs.Execution
import Chip8.Proofs.Memory

/-!
# What an instruction may change

Every form of instruction has its own parts of the machine that it may change;
all others are afterwards what they were before (`Footprint`). Which byte
registers these are depends on the operands and on the dialect
(`Instruction.Writes`), and so does whether the index register moves
(`Instruction.MovesIndex`).

* `execute_registers`, `execute_index`, `execute_timers`, `execute_keypad`,
  `execute_draws`, `execute_anomaly`: the parts that are told apart more finely
  than in `execute_frame`;
* `step_random_congr`: only one form looks at the random numbers, and only at
  the next one;
* `step_footprint`: all of it, about a step that returns.
-/

namespace Chip8

namespace Instruction

/-- The byte registers that an instruction may change. -/
def Writes (d : Dialect) (ins : Instruction) (k : Fin 16) : Prop :=
  match ins.form with
  | .setByte | .addByte | .copy | .or | .and | .xor | .random | .readDelay | .awaitKey =>
    k = ins.word.x
  | .add | .sub | .shiftRight | .subFrom | .shiftLeft => k = ins.word.x ∨ k = 15
  | .draw => k = 15
  | .addIndex => d.flagIndexOverflow = true ∧ k = 15
  | .load => k ≤ ins.word.x
  | _ => False

/-- Whether an instruction may move the index register. -/
def MovesIndex (d : Dialect) (ins : Instruction) : Prop :=
  match ins.form with
  | .setIndex | .addIndex | .glyph => True
  | .store | .load => d.advanceIndex = true
  | _ => False

end Instruction

namespace Machine

variable {s : Setup} {m : Machine} {ins : Instruction} {e : Effect}

/-! ### Registers -/

@[simp] theorem v_advanced (d : Dialect) (r : Registers) (count : Nat) :
    (advanced d r count).v = r.v := by
  unfold advanced
  split <;> rfl

theorem i_advanced {d : Dialect} (h : ¬d.advanceIndex = true) (r : Registers) (count : Nat) :
    (advanced d r count).i = r.i := by
  rw [advanced, if_neg h]

@[simp] theorem v_skipIf (condition : Bool) :
    (m.skipIf condition).machine.registers.v = m.registers.v := by
  cases condition <;> rfl

@[simp] theorem i_skipIf (condition : Bool) :
    (m.skipIf condition).machine.registers.i = m.registers.i := by
  cases condition <;> rfl

theorem v_awaitKey_of_ne {x k : Fin 16} (h : k ≠ x) :
    (m.awaitKey x).registers.v[k] = m.registers.v[k] := by
  unfold awaitKey
  split
  · split
    · exact Registers.v_set_of_ne _ _ h
    · rfl
  · rfl

@[simp] theorem i_awaitKey (x : Fin 16) : (m.awaitKey x).registers.i = m.registers.i := by
  unfold awaitKey
  split
  · split <;> rfl
  · rfl

theorem execute_registers {k : Fin 16} (h : m.execute s ins = .ok e)
    (hk : ¬ins.Writes s.config.dialect k) : e.machine.registers.v[k] = m.registers.v[k] := by
  obtain ⟨f, w⟩ := ins
  cases f <;> simp only [execute] at h <;> simp only [Instruction.Writes, not_or, not_and] at hk
  case ret => split at h <;> cases h; rfl
  case call => split at h <;> cases h; rfl
  case setByte | addByte | copy | or | and | xor | random | readDelay =>
    cases h
    exact Registers.v_set_of_ne _ _ hk
  case add | sub | subFrom | shiftRight | shiftLeft =>
    cases h
    exact Registers.v_setResult_of_ne _ _ _ hk.1 hk.2
  case skipEqByte | skipNeByte | skipEqReg | skipNeReg | skipHeld | skipReleased =>
    cases h
    rw [v_skipIf]
  case draw => cases h; exact Registers.v_setFlag_of_ne _ _ hk
  case awaitKey => cases h; exact v_awaitKey_of_ne hk
  case addIndex =>
    cases h
    cases hd : s.config.dialect.flagIndexOverflow with
    | false => rfl
    | true => exact Registers.v_setFlag_of_ne _ _ (hk hd)
  case store => cases h; simp only [storeRegisters, v_advanced]
  case load =>
    -- The bytes read go to the registers up to `Vx`.
    cases h
    simp only [loadRegisters, v_advanced]
    refine Registers.v_setFirst_of_le _ ?_
    rw [Memory.length_fetchAll]
    exact Nat.not_le.1 hk
  all_goals
    cases h
    rfl

theorem execute_index (h : m.execute s ins = .ok e) (hi : ¬ins.MovesIndex s.config.dialect) :
    e.machine.registers.i = m.registers.i := by
  obtain ⟨f, w⟩ := ins
  cases f <;> simp only [execute] at h <;>
    simp only [Instruction.MovesIndex, not_true_eq_false] at hi
  case ret => split at h <;> cases h; rfl
  case call => split at h <;> cases h; rfl
  case skipEqByte | skipNeByte | skipEqReg | skipNeReg | skipHeld | skipReleased =>
    cases h
    rw [i_skipIf]
  case awaitKey => cases h; rw [i_awaitKey]
  case store => cases h; exact i_advanced hi _ _
  case load => cases h; exact i_advanced hi _ _
  all_goals
    cases h
    rfl

/-! ### The other parts -/

theorem execute_timers (h : m.execute s ins = .ok e) :
    (ins.form ≠ .setDelay → e.machine.timers.delay = m.timers.delay) ∧
      (ins.form ≠ .setSound → e.machine.timers.sound = m.timers.sound) := by
  by_cases hdelay : ins.form = .setDelay
  · simp only [execute, hdelay] at h
    cases h
    exact ⟨fun hne => absurd hdelay hne, fun _ => rfl⟩
  · by_cases hsound : ins.form = .setSound
    · simp only [execute, hsound] at h
      cases h
      exact ⟨fun _ => rfl, fun hne => absurd hsound hne⟩
    · have htimers := (execute_frame h).timers hdelay hsound
      exact ⟨fun _ => congrArg Timers.delay htimers, fun _ => congrArg Timers.sound htimers⟩

/-- The latch is emptied when a wait begins; no instruction holds or releases a
    key. -/
theorem keypad_awaitKey (x : Fin 16) :
    (m.awaitKey x).keypad = if m.awaiting then m.keypad else m.keypad.forget := by
  unfold awaitKey
  split
  · split <;> rfl
  · rfl

theorem execute_keypad (h : m.execute s ins = .ok e) :
    e.machine.keypad.held = m.keypad.held ∧
      (¬(ins.form = .awaitKey ∧ m.awaiting = false) →
        e.machine.keypad.latch = m.keypad.latch) := by
  by_cases hform : ins.form = .awaitKey
  · simp only [execute, hform] at h
    cases h
    rw [keypad_awaitKey]
    cases hwait : m.awaiting with
    | true => exact ⟨rfl, fun _ => rfl⟩
    | false => exact ⟨rfl, fun hne => absurd ⟨hform, rfl⟩ hne⟩
  · rw [(execute_frame h).keypad hform]
    exact ⟨rfl, fun _ => rfl⟩

theorem execute_draws (h : m.execute s ins = .ok e) :
    e.machine.draws = if ins.form = .random then m.draws + 1 else m.draws := by
  by_cases hform : ins.form = .random
  · rw [if_pos hform]
    simp only [execute, hform] at h
    cases h
    rfl
  · rw [if_neg hform, (execute_frame h).draws hform]

theorem execute_anomaly (h : m.execute s ins = .ok e)
    (hform : ins.form ∉ [.unknown, .draw, .decimal, .store, .load]) : e.anomaly = none := by
  obtain ⟨f, w⟩ := ins
  cases f <;> simp only [execute] at h
  case ret => split at h <;> cases h; rfl
  case call => split at h <;> cases h; rfl
  case unknown | draw | decimal | store | load => exact absurd hform (by simp)
  all_goals
    cases h
    rfl

/-- The random numbers only matter to one form of instruction, and to it only
    the next one does. -/
theorem execute_random_congr {random : Nat → Int}
    (h : ins.form = .random → random m.draws = s.random m.draws) :
    m.execute { s with random := random } ins = m.execute s ins := by
  obtain ⟨f, w⟩ := ins
  cases f
  case random => simp only [execute, h rfl]
  all_goals rfl

/-! ### A step -/

/-- What a step that executes an instruction leaves alone, and the random
    numbers it draws. -/
structure Footprint (d : Dialect) (ins : Instruction) (m m' : Machine) : Prop where
  memory : ins.form ∉ [.decimal, .store] → m'.memory = m.memory
  display : ins.form ∉ [.clear, .draw] → m'.display = m.display
  stack : ins.form ∉ [.call, .ret] → m'.stack = m.stack
  delay : ins.form ≠ .setDelay → m'.timers.delay = m.timers.delay
  sound : ins.form ≠ .setSound → m'.timers.sound = m.timers.sound
  index : ¬ins.MovesIndex d → m'.registers.i = m.registers.i
  registers : ∀ k, ¬ins.Writes d k → m'.registers.v[k] = m.registers.v[k]
  held : m'.keypad.held = m.keypad.held
  latch : ¬(ins.form = .awaitKey ∧ m.awaiting = false) → m'.keypad.latch = m.keypad.latch
  awaiting : ins.form ≠ .awaitKey → m'.awaiting = m.awaiting
  diagnostics : ins.form ∉ [.unknown, .draw, .decimal, .store, .load] →
    m'.diagnostics = m.diagnostics
  draws : m'.draws = if ins.form = .random then m.draws + 1 else m.draws

/-- Fetching the instruction moves the program counter only, and reporting an
    anomaly only touches the diagnostics. -/
theorem footprint_of_execute {w : Word} (h : (m.fetched w).execute s ins = .ok e) :
    Footprint s.config.dialect ins m (e.machine.reported e.anomaly) where
  memory hf := by
    simp only [List.mem_cons, List.not_mem_nil, or_false, not_or] at hf
    exact (execute_frame h).memory hf.1 hf.2
  display hf := by
    simp only [List.mem_cons, List.not_mem_nil, or_false, not_or] at hf
    exact (execute_frame h).display hf.1 hf.2
  stack hf := by
    simp only [List.mem_cons, List.not_mem_nil, or_false, not_or] at hf
    exact (execute_frame h).stack hf.2 hf.1
  delay := (execute_timers h).1
  sound := (execute_timers h).2
  index hi := (execute_index h hi :)
  registers _ hk := (execute_registers h hk :)
  held := (execute_keypad h).1
  latch := (execute_keypad h).2
  awaiting := (execute_frame h).awaiting
  diagnostics hf := by
    rw [execute_anomaly h hf]
    exact (execute_frame h).diagnostics
  draws := (execute_draws h :)

theorem step_random_congr {random : Nat → Int}
    (h : Form.ofWord (m.wordAt m.registers.pc) = .random → random m.draws = s.random m.draws) :
    m.step { s with random := random } = m.step s := by
  cases hf : m.fault with
  | some f => simp only [step, hf]
  | none =>
    cases hw : m.nextWord? with
    | none => simp only [step, hf, hw]
    | some w =>
      obtain ⟨-, rfl⟩ := nextWord?_eq_some_iff.1 hw
      have hcongr : (m.fetched (m.wordAt m.registers.pc)).execute { s with random := random }
          (.decode (m.wordAt m.registers.pc)) = _ := execute_random_congr h
      simp only [step, hf, hw, hcongr]

/-- The footprint of every instruction. A step that returns has executed the
    word at the program counter, and changes no part of the machine, and no byte
    register, but those of its form. It depends on the random numbers only if
    its form is the one that draws them, and then only on the next one, which is
    drawn once. -/
theorem step_footprint (h : (m.step s).result = .ok ins) :
    ins = .decode (m.wordAt m.registers.pc) ∧
      Footprint s.config.dialect ins m (m.step s).machine ∧
      ∀ random : Nat → Int, (ins.form = .random → random m.draws = s.random m.draws) →
        m.step { s with random := random } = m.step s := by
  obtain ⟨w, e, hfetch, rfl, heffect, hmachine⟩ := exists_effect_of_result h
  refine ⟨congrArg Instruction.decode hfetch.word.symm, ?_, fun random hrandom => ?_⟩
  · rw [hmachine]
    exact footprint_of_execute heffect
  · exact step_random_congr (hfetch.word.symm ▸ hrandom)

/-- A machine about to draw a random number for `V3`, the key 7 latched and a
    return address on its stack. -/
def aboutToDraw : Machine :=
  { powerOn {} with
    memory := (Memory.blank _).putAll 0x200 [0xC3, 0x0F]
    stack := ⟨[0x300], 16⟩
    keypad := ⟨Keypad.released.held, some 7⟩ }

/-- One number is drawn, the others do not matter, and only `V3` changes. -/
theorem step_footprint_aboutToDraw :
    (aboutToDraw.step standardSetup).result = .ok (.decode 0xC30F) ∧
      (aboutToDraw.step standardSetup).machine.draws = 1 ∧
      (aboutToDraw.step standardSetup).machine.keypad.latch = some 7 ∧
      (aboutToDraw.step standardSetup).machine.stack = aboutToDraw.stack ∧
      (∀ k : Fin 16, k ≠ 3 → (aboutToDraw.step standardSetup).machine.registers.v[k] =
        aboutToDraw.registers.v[k]) ∧
      aboutToDraw.step { standardSetup with random := fun n => n } =
        aboutToDraw.step standardSetup := by
  have hfetch : aboutToDraw.Fetches 0xC30F := ⟨rfl, by decide, by decide +kernel⟩
  have hresult := hfetch.result (s := standardSetup) (by decide) (by decide)
  obtain ⟨-, hfootprint, hrandom⟩ := step_footprint hresult
  refine ⟨hresult, hfootprint.draws, ?_, ?_, fun k hk => ?_, hrandom _ fun _ => rfl⟩
  · exact hfootprint.latch (by decide)
  · exact hfootprint.stack (by decide)
  · exact hfootprint.registers k hk

end Machine

end Chip8
