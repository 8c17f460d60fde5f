import Chip8.Proofs.Guarded
import Mathlib.Data.Int.Bitwise

/-!
# A step by guarded accesses

Instructions told in integers, as in arithmetic without bounds: sums, differences
and shifted values are brought into the range of a byte by the instruction
itself, random numbers by the mask it names, and every access is guarded.

* `executeGuarded`, `stepGuarded`: execution and a step;
* `executeGuarded_eq`, `stepGuarded_eq`: no access is refused, and they do what
  `Machine.execute` and `Machine.step` do.
-/

/-! ### Arithmetic of bytes -/

namespace Chip8

theorem emod_toNat_add (a b : UInt8) : ((a.toNat : Int) + b.toNat) % 256 = (a + b).toNat := by
  rw [UInt8.toNat_add]
  omega

theorem emod_toNat_sub (a b : UInt8) : ((a.toNat : Int) - b.toNat) % 256 = (a - b).toNat := by
  have := b.toNat_lt
  rw [UInt8.toNat_sub]
  omega

theorem lor_toNat (a b : UInt8) : Int.lor a.toNat b.toNat = (a ||| b).toNat := by
  rw [UInt8.toNat_or]
  rfl

theorem xor_toNat (a b : UInt8) : Int.xor a.toNat b.toNat = (a ^^^ b).toNat := by
  rw [UInt8.toNat_xor]
  rfl

theorem testBit_eq_false (b : UInt8) {i : Nat} (h : 8 ≤ i) : b.toNat.testBit i = false :=
  Nat.testBit_lt_two_pow (Nat.lt_of_lt_of_le b.toNat_lt (Nat.pow_le_pow_right (by decide) h))

/-- A mask of one byte only sees the low byte of a number, of a negative one too. -/
theorem land_toNat (k : Int) (b : UInt8) : Int.land k b.toNat = (Timers.lowByte k &&& b).toNat := by
  rw [UInt8.toNat_and]
  cases k with
  | ofNat n =>
    have hlow : (Timers.lowByte (Int.ofNat n)).toNat = n % 2 ^ 8 := by
      simp only [Timers.lowByte, UInt8.toNat_ofNat', Int.ofNat_eq_natCast]
      omega
    refine congrArg Int.ofNat (Nat.eq_of_testBit_eq fun i => ?_)
    rw [hlow, Nat.testBit_and, Nat.testBit_and, Nat.testBit_mod_two_pow]
    by_cases hi : i < 8
    · rw [decide_eq_true hi, Bool.true_and]
    · rw [testBit_eq_false b (Nat.not_lt.1 hi), Bool.and_false, Bool.and_false]
  | negSucc n =>
    -- The bits of a negative number are those of its complement, turned over.
    have hlow : (Timers.lowByte (Int.negSucc n)).toNat = 2 ^ 8 - (n % 2 ^ 8 + 1) := by
      simp only [Timers.lowByte, UInt8.toNat_ofNat']
      omega
    refine congrArg Int.ofNat (Nat.eq_of_testBit_eq fun i => ?_)
    rw [hlow, Nat.testBit_ldiff, Nat.testBit_and,
      Nat.testBit_two_pow_sub_succ (Nat.mod_lt _ (by decide)), Nat.testBit_mod_two_pow]
    by_cases hi : i < 8
    · rw [decide_eq_true hi, Bool.true_and, Bool.true_and, Bool.and_comm]
    · rw [testBit_eq_false b (Nat.not_lt.1 hi), Bool.and_false, Bool.false_and]
theorem lowByte_toNat (b : UInt8) : Timers.lowByte b.toNat = b := by
  have := b.toNat_lt
  rw [← UInt8.toNat_inj, Timers.lowByte, UInt8.toNat_ofNat']
  omega

end Chip8

namespace Chip8.Machine

/-! ### Instructions -/

/-- The machine with the registers that guarded accesses leave. -/
def taking (m : Machine) (r : Guarded Registers) : Guarded (Except FaultCause Effect) := do
  return .ok (m.withRegisters (← r))

/-- The machine past the next instruction, if the key that a register selects
    is held or is not. -/
def skipOnKey (m : Machine) (k : Int) (held : Bool) : Guarded (Except FaultCause Effect) := do
  return .ok (m.skipIf ((← m.keypad.ask k) == held))

/-- Draws a sprite, pixel by pixel. -/
def drawGuarded (d : Dialect) (m : Machine) (x y : Fin 16) (n : Nat) :
    Guarded (Except FaultCause Effect) := do
  let i : Int := m.registers.i.toNat
  let rows ← (List.range n).mapM fun k => m.memory.ask (i + Int.ofNat k)
  let drawing ← Drawing.flipRows d.edges (m.registers.v[x].toNat % (64 : Nat)) ⟨m.display, [], false⟩
    (m.registers.v[y].toNat % (32 : Nat)) (rows.map fun b => Int.ofNat b.toNat)
  let r ← m.registers.keep 15 (if drawing.collided then 1 else 0)
  return .ok
    { machine := { m with display := drawing.display, registers := r }
      commands := drawing.commands
      anomaly := m.indexAnomaly n }

/-- Takes the latched key, if there is one and the wait has begun. -/
def awaitKeyGuarded (m : Machine) (x : Fin 16) : Guarded (Except FaultCause Effect) :=
  match m.awaiting, m.keypad.latch with
  | true, some key => do
    let r ← m.registers.keep x key.val
    return .ok { machine := { m with registers := r, awaiting := false } }
  | _, _ => return .ok { machine := m.awaitKey x }

/-- Adds a register to the index. -/
def addIndexGuarded (flagOverflow : Bool) (r : Registers) (x : Fin 16) : Guarded Registers :=
  let sum : Int := r.i.toNat + r.v[x].toNat
  if flagOverflow then (r.setIndex sum).keep 15 (if sum > 0xFFF then 1 else 0)
  else return r.setIndex sum

/-- Stores the decimal digits of a register. -/
def decimalGuarded (m : Machine) (x : Fin 16) : Guarded (Except FaultCause Effect) := do
  let i : Int := m.registers.i.toNat
  let v : Int := m.registers.v[x].toNat
  let memory ← m.memory.keep i (v / 100)
  let memory ← memory.keep (i + 1) (v / 10 % 10)
  let memory ← memory.keep (i + 2) (v % 10)
  return .ok { machine := { m with memory := memory }, anomaly := m.indexAnomaly 3 }

/-- Stores registers, one after the other. -/
def storeGuarded (d : Dialect) (m : Machine) (x : Fin 16) :
    Guarded (Except FaultCause Effect) := do
  let r := m.registers
  let memory ← Memory.storeFirst r r.i.toNat m.memory (List.range' 0 (x.val + 1))
  return .ok
    { machine := { m with memory := memory, registers := advanced d r (x.val + 1) }
      anomaly := m.indexAnomaly (x.val + 1) }

/-- Loads registers, one after the other. -/
def loadGuarded (d : Dialect) (m : Machine) (x : Fin 16) :
    Guarded (Except FaultCause Effect) := do
  let r ← Memory.loadFirst m.memory m.registers.i.toNat m.registers (List.range' 0 (x.val + 1))
  return .ok
    { machine := { m with registers := advanced d r (x.val + 1) }
      anomaly := m.indexAnomaly (x.val + 1) }

/-- Executes an instruction by guarded accesses. The forms that store no byte
    and read neither memory nor the keypad access nothing that could be
    refused. -/
def executeGuarded (s : Setup) (ins : Instruction) (m : Machine) :
    Guarded (Except FaultCause Effect) :=
  let d := s.config.dialect
  let w := ins.word
  let r := m.registers
  let x : Int := r.v[w.x].toNat
  let y : Int := r.v[w.y].toNat
  let operand : Int := (r.shiftOperand d.shift w.x w.y).toNat
  match ins.form with
  | .setByte => m.taking (r.keep w.x w.kk.toNat)
  | .addByte => m.taking (r.keep w.x ((x + w.kk.toNat) % 256))
  | .copy => m.taking (r.keep w.x y)
  | .or => m.taking (r.keep w.x (Int.lor x y))
  | .and => m.taking (r.keep w.x (Int.land x y))
  | .xor => m.taking (r.keep w.x (Int.xor x y))
  | .add => m.taking (r.keepResult w.x ((x + y) % 256) (if x + y > 0xFF then 1 else 0))
  | .sub => m.taking (r.keepResult w.x ((x - y) % 256) (if x - y ≥ 0 then 1 else 0))
  | .subFrom => m.taking (r.keepResult w.x ((y - x) % 256) (if y - x ≥ 0 then 1 else 0))
  | .shiftRight => m.taking (r.keepResult w.x (operand / 2) (operand % 2))
  | .shiftLeft => m.taking (r.keepResult w.x (operand * 2 % 256) (operand / 128))
  | .random => do
    let r ← r.keep w.x (Int.land (s.random m.draws) w.kk.toNat)
    return .ok { machine := { m with registers := r, draws := m.draws + 1 } }
  | .draw => drawGuarded d m w.x w.y w.n
  | .skipHeld => m.skipOnKey x true
  | .skipReleased => m.skipOnKey x false
  | .readDelay => m.taking (r.keep w.x m.timers.delay.toNat)
  | .awaitKey => m.awaitKeyGuarded w.x
  | .addIndex => m.taking (addIndexGuarded d.flagIndexOverflow r w.x)
  | .decimal => m.decimalGuarded w.x
  | .store => storeGuarded d m w.x
  | .load => loadGuarded d m w.x
  | _ => .ok (m.execute s ins)

/-- Executes one instruction by guarded accesses; a halted machine stays
    halted. -/
def stepGuarded (s : Setup) (m : Machine) : Guarded StepResult :=
  match m.fault with
  | some fault => return ⟨m, .error fault, [], []⟩
  | none =>
    let pc := m.registers.pc
    if m.memory.inBounds pc && m.memory.inBounds (pc + 1) then do
      let w ← m.memory.askWord pc
      let ins := Instruction.decode w
      let m := m.fetched w
      let trace := if s.debug then m.traceLine ins :: noteLines ins else []
      match ← m.executeGuarded s ins with
      | .ok e => return commit e ins trace
      | .error cause => return m.halt cause trace
    else return m.halt (.fetchOutside pc) []

/-! ### No access is refused -/

variable {m : Machine}

theorem taking_eq {g : Guarded Registers} {r : Registers} (h : g = .ok r) :
    m.taking g = .ok (.ok (m.withRegisters r)) := by
  rw [h]
  rfl

theorem skipOnKey_eq (k : Int) (held : Bool) :
    m.skipOnKey k held = .ok (.ok (m.skipIf (m.keypad.isHeld k == held))) := by
  rw [skipOnKey, Keypad.ask_eq]
  rfl

theorem keepDifference_eq (r : Registers) (x : Fin 16) (a b : UInt8) :
    r.keepResult x (((a.toNat : Int) - b.toNat) % 256)
        (if (a.toNat : Int) - b.toNat ≥ 0 then 1 else 0) =
      .ok (r.subtract x a b) := by
  refine Registers.keepResult_eq _ _ (emod_toNat_sub a b) ?_
  simp only [decide_eq_true_eq, UInt8.le_iff_toNat_le]
  refine if_congr ?_ rfl rfl
  omega

theorem keepHalf_eq (r : Registers) (x : Fin 16) (b : UInt8) :
    r.keepResult x (b.toNat / 2) (b.toNat % 2) = .ok (r.shiftRight x b) := by
  refine Registers.keepResult_eq _ _ (by rw [UInt8.toNat_div]; rfl) ?_
  simp only [beq_iff_eq, ← UInt8.toNat_inj, UInt8.toNat_mod, UInt8.reduceToNat]
  split <;> omega

theorem keepDouble_eq (r : Registers) (x : Fin 16) (b : UInt8) :
    r.keepResult x (b.toNat * 2 % 256) (b.toNat / 128) = .ok (r.shiftLeft x b) := by
  have := b.toNat_lt
  refine Registers.keepResult_eq _ _ (by rw [UInt8.toNat_mul]; rfl) ?_
  simp only [decide_eq_true_eq, ge_iff_le, UInt8.le_iff_toNat_le, UInt8.reduceToNat]
  split <;> omega

theorem drawGuarded_eq (d : Dialect) (x y : Fin 16) (n : Nat) :
    drawGuarded d m x y n = .ok (.ok (drawSprite d m x y n)) := by
  have hrows : (List.range n).mapM (fun k => m.memory.ask (m.registers.i.toNat + Int.ofNat k)) =
      (.ok (m.memory.fetchAll m.registers.i.toNat n) : Guarded (List UInt8)) :=
    List.mapM_pure
  have hflip (rows : List Int) :
      Drawing.flipRows d.edges (m.registers.v[x].toNat % (64 : Nat)) ⟨m.display, [], false⟩
        (m.registers.v[y].toNat % (32 : Nat)) rows =
      .ok (m.display.draw d.edges m.registers.v[x].toNat m.registers.v[y].toNat rows) := by
    rw [Drawing.flipRows_eq _ (by omega) (by omega) (by decide) (by decide)]
    simp only [Drawing.extend, List.nil_append, Bool.false_or]
    rfl
  have hkeep (flag : Bool) :
      m.registers.keep 15 (if flag then 1 else 0) = .ok (m.registers.setFlag flag) :=
    Registers.keep_eq _ _ (by cases flag <;> rfl)
  simp only [drawGuarded, hrows, bind, Except.bind, hflip, hkeep]
  rfl

theorem awaitKeyGuarded_eq (x : Fin 16) :
    m.awaitKeyGuarded x = .ok (.ok { machine := m.awaitKey x }) := by
  unfold awaitKeyGuarded
  split
  · rename_i key hwait hlatch
    have hkey : (key.val : Int) = (UInt8.ofNat key.val).toNat := by
      rw [UInt8.toNat_ofNat']
      omega
    simp only [m.registers.keep_eq x hkey, awaitKey, hwait, hlatch, bind, Except.bind, if_true]
    rfl
  · rfl

theorem addIndexGuarded_eq (flagOverflow : Bool) (r : Registers) (x : Fin 16) :
    addIndexGuarded flagOverflow r x = .ok (r.addIndex flagOverflow x) := by
  cases flagOverflow with
  | false => rfl
  | true =>
    refine Registers.keep_eq _ 15 ?_
    by_cases h : r.i.toNat + r.v[x].toNat > 0xFFF
    · rw [if_pos (by omega), decide_eq_true h]
      rfl
    · rw [if_neg (by omega), decide_eq_false h]
      rfl

theorem decimalGuarded_eq (x : Fin 16) :
    m.decimalGuarded x = .ok (.ok (m.storeAtIndex (decimalDigits m.registers.v[x]))) := by
  let b := m.registers.v[x]
  have hundreds (memory : Memory Memory.standardSize) (address : Int) :
      memory.keep address (b.toNat / 100) = .ok (memory.put address (b / 100)) :=
    Memory.keep_eq _ _ (by rw [UInt8.toNat_div]; rfl)
  have htens (memory : Memory Memory.standardSize) (address : Int) :
      memory.keep address (b.toNat / 10 % 10) = .ok (memory.put address (b / 10 % 10)) :=
    Memory.keep_eq _ _ (by rw [UInt8.toNat_mod, UInt8.toNat_div]; rfl)
  have hunits (memory : Memory Memory.standardSize) (address : Int) :
      memory.keep address (b.toNat % 10) = .ok (memory.put address (b % 10)) :=
    Memory.keep_eq _ _ (by rw [UInt8.toNat_mod]; rfl)
  simp only [decimalGuarded, b, hundreds, htens, hunits, bind, Except.bind]
  simp only [storeAtIndex, decimalDigits, Memory.putAll, Int.add_assoc]
  rfl

theorem storeGuarded_eq (d : Dialect) (x : Fin 16) :
    storeGuarded d m x = .ok (.ok (storeRegisters d m x)) := by
  have hstore := Memory.storeFirst_eq m.memory m.registers m.registers.i.toNat
    (n := x.val + 1) (k := 0) (by omega)
  simp only [storeGuarded, hstore, bind, Except.bind, storeRegisters, storeAtIndex,
    Registers.length_upTo]
  simp only [Nat.cast_zero, Int.add_zero, List.drop_zero]
  rfl

theorem loadGuarded_eq (d : Dialect) (x : Fin 16) :
    loadGuarded d m x = .ok (.ok (loadRegisters d m x)) := by
  have hload := Memory.loadFirst_eq m.memory m.registers m.registers.i.toNat
    (n := x.val + 1) (k := 0) (by omega)
  simp only [loadGuarded, hload, bind, Except.bind, loadRegisters, Nat.cast_zero, Int.add_zero]
  rfl

theorem executeGuarded_eq (s : Setup) (ins : Instruction) :
    m.executeGuarded s ins = .ok (m.execute s ins) := by
  obtain ⟨f, w⟩ := ins
  let r := m.registers
  -- One case per form; those that make no guarded access are left to the end.
  cases f
  case setByte => exact taking_eq (r.keep_eq _ rfl)
  case addByte => exact taking_eq (r.keep_eq _ (emod_toNat_add _ _))
  case copy => exact taking_eq (r.keep_eq _ rfl)
  case or => exact taking_eq (r.keep_eq _ (lor_toNat _ _))
  case and =>
    exact taking_eq (r.keep_eq _ (by rw [land_toNat, lowByte_toNat]))
  case xor => exact taking_eq (r.keep_eq _ (xor_toNat _ _))
  case add =>
    refine taking_eq (r.keepResult_eq _ (emod_toNat_add _ _) ?_)
    simp only [decide_eq_true_eq]
    exact if_congr (by omega) rfl rfl
  case sub => exact taking_eq (keepDifference_eq r _ _ _)
  case subFrom => exact taking_eq (keepDifference_eq r _ _ _)
  case shiftRight => exact taking_eq (keepHalf_eq r _ _)
  case shiftLeft => exact taking_eq (keepDouble_eq r _ _)
  case random =>
    have hkeep := r.keep_eq w.x (land_toNat (s.random m.draws) w.kk)
    simp only [executeGuarded, r] at hkeep ⊢
    rw [hkeep]
    rfl
  case draw => exact drawGuarded_eq _ _ _ _
  case skipHeld =>
    refine (skipOnKey_eq _ true).trans ?_
    simp only [execute, beq_true]
  case skipReleased =>
    refine (skipOnKey_eq _ false).trans ?_
    simp only [execute, beq_false]
  case readDelay => exact taking_eq (r.keep_eq _ rfl)
  case awaitKey => exact awaitKeyGuarded_eq _
  case addIndex => exact taking_eq (addIndexGuarded_eq _ _ _)
  case decimal => exact decimalGuarded_eq _
  case store => exact storeGuarded_eq _ _
  case load => exact loadGuarded_eq _ _
  all_goals rfl

/-- A step never makes an access that is refused. -/
theorem stepGuarded_eq (s : Setup) (m : Machine) : m.stepGuarded s = .ok (m.step s) := by
  cases hf : m.fault with
  | some fault =>
    simp only [stepGuarded, step, hf]
    rfl
  | none =>
    by_cases hpc : 0 ≤ m.registers.pc ∧ m.registers.pc ≤ 0xFFE
    · have hask := m.memory.askWord_eq _ hpc
      have hword := nextWord?_eq_some_iff.2 ⟨hpc, rfl⟩
      rw [wordAt] at hword
      simp only [stepGuarded, step, hf, hword, (inBounds_word_iff _ _).2 hpc, if_true, hask, bind,
        Except.bind, executeGuarded_eq]
      cases execute s (.decode (.ofBytes (m.memory.fetch m.registers.pc) _)) (m.fetched _) <;> rfl
    · have hword := nextWord?_eq_none_iff.2 hpc
      simp only [stepGuarded, step, hf, hword, mt (inBounds_word_iff m.memory _).1 hpc]
      rfl

end Chip8.Machine
