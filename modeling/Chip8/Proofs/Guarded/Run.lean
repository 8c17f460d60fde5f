import Chip8.Proofs.Guarded.Step
import Chip8.Proofs.Run

/-!
# Runs by guarded accesses

A reset stores the font and the program as blocks, either of which is refused
unless it lies inside memory. The program always does: it was checked against
the load offset when it was stored (`Fits`), and nothing but loading another one
changes it.

* `resetGuarded`, `performGuarded`, `performAllGuarded`: what a host does, by
  guarded accesses;
* `performAllGuarded_eq`: none of them is refused from power on.
-/

namespace Chip8

/-! ### Blocks -/

namespace Memory

variable {memory : Memory standardSize} {start : Nat} {bytes : List UInt8}

/-- Stores a block inside memory. -/
def keepBlock (memory : Memory standardSize) (address : Int) (block : List UInt8) :
    Guarded (Memory standardSize) :=
  (memory.writeBlock address block).mapError .memory

theorem keepBlock_eq (hne : bytes ≠ []) (h : start + bytes.length ≤ standardSize) :
    memory.keepBlock start bytes = .ok (memory.putAll start bytes) := by
  rw [keepBlock, writeBlock_eq_ok memory hne (by omega)]
  rfl

end Memory

namespace Machine

variable {s : Setup} {c : Config} {m : Machine}

/-- The stored program fits between the load offset and the end of memory. -/
def Fits (c : Config) (m : Machine) : Prop :=
  c.loadOffset + m.program.length ≤ Memory.standardSize

/-- Resets the machine, storing the font and the program as blocks. -/
def resetGuarded (c : Config) (m : Machine) : Guarded Machine := do
  let font ← (Memory.blank Memory.standardSize).keepBlock Font.address Font.glyphs
  let memory ←
    if m.program = [] then .ok font else font.keepBlock c.loadOffset m.program
  return { m.reset c with memory := memory }

/-- What an operation does by guarded accesses. -/
def performGuarded (s : Setup) (m : Machine) : Operation → Guarded Machine
  | .load image =>
    match Program.check image s.config.loadOffset with
    | .ok program => resetGuarded s.config { m with program := program }
    | .error _ => return m
  | .reset => m.resetGuarded s.config
  | .act .step => do return (← m.stepGuarded s).machine
  | .act a => return m.act s a

/-- What a sequence of operations does by guarded accesses. -/
def performAllGuarded (s : Setup) (m : Machine) (ops : List Operation) : Guarded Machine :=
  ops.foldlM (performGuarded s) m

/-! ### No access is refused -/

theorem resetGuarded_eq (h : m.Fits c) : m.resetGuarded c = .ok (m.reset c) := by
  have hfont : (Memory.blank Memory.standardSize).keepBlock Font.address Font.glyphs =
      .ok ((Memory.blank Memory.standardSize).putAll Font.address Font.glyphs) :=
    Memory.keepBlock_eq (by decide) (by decide)
  simp only [resetGuarded, hfont, bind, Except.bind]
  by_cases hprogram : m.program = []
  · -- An empty program is not stored, which makes no difference to memory.
    simp only [hprogram, if_true, reset, image, Memory.putAll]
    rfl
  · simp only [hprogram, if_false, Memory.keepBlock_eq hprogram h]
    rfl

/-- A program that is accepted fits. -/
theorem length_of_check {image : Image} {loadOffset : Nat} {program : List UInt8}
    (h : Program.check image loadOffset = .ok program) :
    loadOffset + program.length ≤ Memory.standardSize := by
  unfold Program.check at h
  split at h
  · cases h
  · cases h
  · split at h <;> rename_i hlong
    · cases h
    · cases h
      simp only [Program.capacity, memoryEnd] at hlong
      rw [Memory.standardSize]
      omega

/-- A step leaves the stored program alone. -/
theorem program_step : (m.step s).machine.program = m.program := by
  cases stepCase s m with
  | halted f fault machine => rw [machine]
  | outside running range machine => rw [machine]
  | refused w c running range word refusal machine => rw [machine]; rfl
  | executed w e running range word effect machine =>
    rw [machine]
    exact (execute_frame effect).program

theorem Fits.perform (h : m.Fits s.config) (op : Operation) : (m.perform s op).Fits s.config := by
  cases op with
  | load image =>
    simp only [Machine.perform]
    split
    · obtain ⟨program, hcheck, rfl⟩ := load_eq_ok_iff.1 ‹_›
      exact length_of_check hcheck
    · exact h
  | reset => exact h
  | act a =>
    cases a with
    | step => rw [Fits, Machine.perform, act, program_step]; exact h
    | tick => exact h
    | setKey k pressed => rw [Machine.perform, act_setKey]; exact h

theorem performGuarded_eq (h : m.Fits s.config) (op : Operation) :
    m.performGuarded s op = .ok (m.perform s op) := by
  cases op with
  | load image =>
    simp only [performGuarded, Machine.perform, load]
    cases hcheck : Program.check image s.config.loadOffset with
    | error e => rfl
    | ok program => exact resetGuarded_eq (length_of_check hcheck)
  | reset => exact resetGuarded_eq h
  | act a =>
    cases a with
    | step =>
      rw [performGuarded, stepGuarded_eq]
      rfl
    | tick => rfl
    | setKey k pressed => rfl

theorem performAllGuarded_eq (h : m.Fits s.config) (ops : List Operation) :
    m.performAllGuarded s ops = .ok (m.performAll s ops) := by
  -- Each operation leaves a program that fits, so that the others can go on.
  induction ops generalizing m with
  | nil => rfl
  | cons op ops ih =>
    rw [performAllGuarded, List.foldlM_cons, performGuarded_eq h]
    exact ih (h.perform op)

theorem fits_powerOn (c : Config) : (powerOn c).Fits c :=
  Nat.le_of_lt c.belowEnd

end Machine

end Chip8
