import Chip8.Proofs.Execution

/-!
# Arithmetic and flags

What the instructions that combine registers compute, as equations between
integers. Operands are the registers as they were, whatever registers the
operands and the result share.

* `Puts`: a value goes to one register;
* `Flagged`: a byte and a flag that satisfy an equation go to a register and to
  the flag register, the flag winning where they are the same;
* `flagged_addReg`, `flagged_subtract`, `flagged_shiftRight`,
  `flagged_shiftLeft`: the equations of the operations with a flag;
* `step_arithmetic`: the equations of the instructions.
-/

namespace Chip8

namespace Registers

variable (r : Registers) (x y : Fin 16) (a b : UInt8)

/-- Of the byte registers, register `x` takes a value and no other one changes. -/
structure Puts (v v' : Vector UInt8 16) (x : Fin 16) (value : Nat) : Prop where
  value : v'[x].toNat = value
  others : ∀ k : Fin 16, k ≠ x → v'[k] = v[k]

/-- A byte and a flag that satisfy an equation go to register `x` and to the
    flag register, which keeps the flag if it is both; no other byte register
    changes. -/
def Flagged (v v' : Vector UInt8 16) (x : Fin 16) (equation : Int → Int → Prop) : Prop :=
  ∃ (result : UInt8) (flag : Bool), equation result.toNat flag.toNat ∧
    v'[(15 : Fin 16)] = (if flag then 1 else 0) ∧ (x ≠ 15 → v'[x] = result) ∧
    ∀ k : Fin 16, k ≠ x → k ≠ 15 → v'[k] = v[k]

theorem puts_set : Puts r.v (r.set x b).v x b.toNat :=
  ⟨congrArg UInt8.toNat (r.v_set_self x b), fun _ hk => r.v_set_of_ne b hk⟩

theorem puts_addByte : Puts r.v (r.addByte x b).v x ((r.v[x].toNat + b.toNat) % 256) :=
  UInt8.toNat_add r.v[x] b ▸ puts_set r x _

variable {r x y} in
theorem flagged_setResult {result : UInt8} {flag : Bool} {equation : Int → Int → Prop}
    (h : equation result.toNat flag.toNat) : Flagged r.v (r.setResult x result flag).v x equation :=
  ⟨result, flag, h, r.v_setResult_flag x result flag, r.v_setResult_self result flag,
    fun _ => r.v_setResult_of_ne result flag⟩

/-- The flag is the carry of a sum. -/
theorem flagged_addReg :
    Flagged r.v (r.addReg x y).v x fun result flag =>
      result + 256 * flag = r.v[x].toNat + r.v[y].toNat := by
  refine flagged_setResult ?_
  have hsum := UInt8.toNat_add r.v[x] r.v[y]
  have hx := r.v[x].toNat_lt
  have hy := r.v[y].toNat_lt
  by_cases hcarry : r.v[x].toNat + r.v[y].toNat > 255
  · rw [decide_eq_true hcarry, Bool.toNat_true]
    omega
  · rw [decide_eq_false hcarry, Bool.toNat_false]
    omega

/-- The flag of a difference is set unless it borrows. -/
theorem flagged_subtract :
    Flagged r.v (r.subtract x a b).v x fun result flag =>
      result = a.toNat - b.toNat + 256 * (1 - flag) := by
  refine flagged_setResult ?_
  have hdifference := UInt8.toNat_sub a b
  have ha := a.toNat_lt
  have hb := b.toNat_lt
  by_cases hle : b ≤ a
  · have := UInt8.le_iff_toNat_le.1 hle
    rw [decide_eq_true hle, Bool.toNat_true]
    omega
  · have := mt UInt8.le_iff_toNat_le.2 hle
    rw [decide_eq_false hle, Bool.toNat_false]
    omega

/-- The flag of a shift to the right is the remainder. -/
theorem flagged_shiftRight :
    Flagged r.v (r.shiftRight x b).v x fun result flag => 2 * result + flag = b.toNat := by
  refine flagged_setResult ?_
  have hhalf : (b / 2).toNat = b.toNat / 2 := UInt8.toNat_div b 2
  have hodd : b % 2 = 1 ↔ b.toNat % 2 = 1 := by
    rw [← UInt8.toNat_inj, UInt8.toNat_mod]
    rfl
  by_cases h : b % 2 = 1
  · have := hodd.1 h
    rw [beq_iff_eq.2 h, Bool.toNat_true]
    omega
  · have := mt hodd.2 h
    rw [beq_eq_false_iff_ne.2 h, Bool.toNat_false]
    omega

/-- The flag of a shift to the left is the carry of the double. -/
theorem flagged_shiftLeft :
    Flagged r.v (r.shiftLeft x b).v x fun result flag => result + 256 * flag = 2 * b.toNat := by
  refine flagged_setResult ?_
  have hdouble : (b * 2).toNat = b.toNat * 2 % 256 := UInt8.toNat_mul b 2
  have hb := b.toNat_lt
  have hhigh : b ≥ 128 ↔ b.toNat ≥ 128 := UInt8.le_iff_toNat_le
  by_cases h : b ≥ 128
  · have := hhigh.1 h
    rw [decide_eq_true h, Bool.toNat_true]
    omega
  · have := mt hhigh.2 h
    rw [decide_eq_false h, Bool.toNat_false]
    omega

end Registers

namespace Machine

open Registers

variable {s : Setup} {m : Machine} {w : Word}

/-- A step whose instruction only replaces the registers. -/
theorem Fetches.step_registers {r : Registers} (h : m.Fetches w)
    (he : (m.fetched w).execute s (.decode w) = .ok ((m.fetched w).withRegisters r)) :
    (m.step s).machine.registers = r :=
  congrArg registers (h.step he).1

/-- Arithmetic, exactly. The result and the flag of each instruction satisfy its
    equation between integers, the operands being the registers before the step
    also where the instruction names one register twice, or the flag register;
    no other byte register changes. -/
theorem step_arithmetic (s : Setup) (hfetch : m.Fetches w) :
    let v := m.registers.v
    let v' := (m.step s).machine.registers.v
    let a := v[w.x].toNat
    let b := v[w.y].toNat
    let operand : Nat :=
      match s.config.dialect.shift with
      | .vx => a
      | .vy => b
    (w.family = 0x7 ∨ w.family = 0x8 → (m.step s).result = .ok (.decode w)) ∧
    (w.family = 0x7 → Puts v v' w.x ((a + w.kk.toNat) % 256)) ∧
    (w.family = 0x8 →
      match w.n with
      | 0x0 => Puts v v' w.x b
      | 0x1 => Puts v v' w.x (a ||| b)
      | 0x2 => Puts v v' w.x (a &&& b)
      | 0x3 => Puts v v' w.x (a ^^^ b)
      | 0x4 => Flagged v v' w.x fun result flag => result + 256 * flag = a + b
      | 0x5 => Flagged v v' w.x fun result flag => result = a - b + 256 * (1 - flag)
      | 0x6 => Flagged v v' w.x fun result flag => 2 * result + flag = operand
      | 0x7 => Flagged v v' w.x fun result flag => result = b - a + 256 * (1 - flag)
      | 0xE => Flagged v v' w.x fun result flag => result + 256 * flag = 2 * operand
      | _ => True) := by
  intro v v' a b operand
  -- Fetching only moves the program counter, so that the operands are those of
  -- the machine before the step.
  let r := (m.fetched w).registers
  have hv {f : Form} {q : Registers} (hform : Form.ofWord w = f)
      (he : (m.fetched w).execute s ⟨f, w⟩ = .ok ((m.fetched w).withRegisters q)) : v' = q.v :=
    congrArg Registers.v (hfetch.step_registers (by rwa [Instruction.decode, hform]))
  have hoperand : (r.shiftOperand s.config.dialect.shift w.x w.y).toNat = operand := by
    simp only [operand]
    cases s.config.dialect.shift <;> rfl
  refine ⟨fun hfamily => ?_, fun hfamily => ?_, fun hfamily => ?_⟩
  · refine hfetch.result (fun hform => ?_) (fun hform => ?_)
    · rw [Form.ofWord_eq_ret_iff.1 hform] at hfamily
      exact absurd hfamily (by decide)
    · rw [Form.ofWord_eq_call_iff.1 hform] at hfamily
      exact absurd hfamily (by decide)
  · rw [hv (f := .addByte) (by simp only [Form.ofWord, hfamily]) rfl]
    exact puts_addByte r _ _
  · split <;> rename_i hn
    · rw [hv (f := .copy) (by simp only [Form.ofWord, hfamily, hn]) rfl]
      exact puts_set r _ _
    · rw [hv (f := .or) (by simp only [Form.ofWord, hfamily, hn]) rfl]
      exact UInt8.toNat_or _ _ ▸ puts_set r _ _
    · rw [hv (f := .and) (by simp only [Form.ofWord, hfamily, hn]) rfl]
      exact UInt8.toNat_and _ _ ▸ puts_set r _ _
    · rw [hv (f := .xor) (by simp only [Form.ofWord, hfamily, hn]) rfl]
      exact UInt8.toNat_xor _ _ ▸ puts_set r _ _
    · rw [hv (f := .add) (by simp only [Form.ofWord, hfamily, hn]) rfl]
      exact flagged_addReg r _ _
    · rw [hv (f := .sub) (by simp only [Form.ofWord, hfamily, hn]) rfl]
      exact flagged_subtract r _ _ _
    · rw [hv (f := .shiftRight) (by simp only [Form.ofWord, hfamily, hn]) rfl]
      have hlaw := flagged_shiftRight r w.x (r.shiftOperand s.config.dialect.shift w.x w.y)
      rw [hoperand] at hlaw
      exact hlaw
    · rw [hv (f := .subFrom) (by simp only [Form.ofWord, hfamily, hn]) rfl]
      exact flagged_subtract r _ _ _
    · rw [hv (f := .shiftLeft) (by simp only [Form.ofWord, hfamily, hn]) rfl]
      have hlaw := flagged_shiftLeft r w.x (r.shiftOperand s.config.dialect.shift w.x w.y)
      rw [hoperand] at hlaw
      exact hlaw
    · trivial

/-- A machine about to add `VF` to itself. -/
def aboutToDouble : Machine :=
  { powerOn {} with
    memory := (Memory.blank _).putAll 0x200 [0x8F, 0xF4]
    registers := ⟨Vector.replicate 16 0x90, 0, 0x200⟩ }

/-- The carry wins over the sum, and the other registers stay. -/
theorem step_arithmetic_aboutToDouble :
    aboutToDouble.Fetches 0x8FF4 ∧
      (aboutToDouble.step standardSetup).machine.registers.v[(15 : Fin 16)] = 1 ∧
      ∀ k : Fin 16, k ≠ 15 →
        (aboutToDouble.step standardSetup).machine.registers.v[k] = 0x90 := by
  have hfetch : aboutToDouble.Fetches 0x8FF4 := ⟨rfl, by decide, by decide +kernel⟩
  obtain ⟨-, -, h⟩ := step_arithmetic standardSetup hfetch
  obtain ⟨result, flag, hequation, hflag, -, hothers⟩ := h (by decide)
  refine ⟨hfetch, ?_, fun k hk => (hothers k hk hk).trans (Vector.getElem_replicate _)⟩
  have hsum : (result.toNat : Int) + 256 * flag.toNat = 0x90 + 0x90 := hequation
  have hbyte := result.toNat_lt
  rw [hflag]
  cases flag with
  | true => rfl
  | false =>
    rw [Bool.toNat_false] at hsum
    omega

end Machine

end Chip8
