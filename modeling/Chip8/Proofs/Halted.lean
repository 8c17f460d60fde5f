import Chip8.Proofs.Faults
import Chip8.Proofs.InPlace

/-!
# A halted machine

A fault stays until the machine is reset, by the host or by a program that is
accepted. Every other call (`IdleCall`) finds the machine halted, or only
concerns the timers and the keypad, so that there is nothing for the fault's
report to change with.

* `Frozen`: a machine differs from another one in its timers and its keypad only;
* `frozen_idle`, `frozen_idleAll`: such calls leave a halted machine frozen;
* `fault_persists`: what they give, and what ends the halt.
-/

namespace Chip8

/-- A call that does not reset a machine: an action, the question whether the
    buzzer sounds, or a load that is refused. -/
inductive IdleCall (c : Config)
  | act (a : Action)
  | sounding
  | load (image : Image) (e : ProgramError) (refused : Program.check image c.loadOffset = .error e)

/-- The machine that is left by a call, gone through or not. -/
def InPlace.left : EStateM.Result LoadFailure Machine Unit → Machine
  | .ok _ m => m
  | .error _ m => m

namespace Machine

variable {s : Setup} {m now later : Machine} {f : Fault}

/-- The machine after a call that does not reset it. -/
def idle (s : Setup) (m : Machine) : IdleCall s.config → Machine
  | .act a => m.act s a
  | .sounding => m
  | .load image _ _ => InPlace.left ((InPlace.load s.config image).run m)

/-- The machine after a sequence of calls that do not reset it. -/
def idleAll (s : Setup) (m : Machine) (calls : List (IdleCall s.config)) : Machine :=
  calls.foldl (idle s) m

/-- Nothing has changed but the timers and the keypad. -/
def Frozen (m now : Machine) : Prop :=
  now = { m with timers := now.timers, keypad := now.keypad }

theorem Frozen.refl (m : Machine) : m.Frozen m := rfl

theorem Frozen.trans (h : m.Frozen now) (h' : now.Frozen later) : m.Frozen later := by
  rw [Frozen] at h h'
  rw [Frozen, h', h]

theorem Frozen.fault (h : m.Frozen now) : now.fault = m.fault := by
  rw [Frozen] at h
  rw [h]

/-- A call that does not reset a halted machine leaves it frozen. -/
theorem frozen_idle (hf : m.fault = some f) (call : IdleCall s.config) :
    m.Frozen (m.idle s call) := by
  cases call with
  | act a =>
    cases a with
    | step =>
      rw [idle, act, (step_of_halted hf).2]
      exact .refl m
    | tick => rfl
    | setKey k pressed => rw [idle, act_setKey]; rfl
  | sounding => rfl
  | load image e refused =>
    rw [idle, InPlace.load_run_of_refused refused]
    rfl

theorem frozen_idleAll (hf : m.fault = some f) (calls : List (IdleCall s.config)) :
    m.Frozen (m.idleAll s calls) := by
  -- Each call leaves the fault in place, which freezes the machine for the next one.
  induction calls generalizing m with
  | nil => exact .refl m
  | cons call calls ih =>
    have hfirst := frozen_idle hf call
    exact hfirst.trans (ih (hfirst.fault.trans hf))

/-- A fault persists. Whatever is called after it, as long as the machine is not
    reset and no program accepted, a step fails with this very fault, which is
    still the one that is kept, and nothing has changed but the timers and the
    keypad. A reset ends the halt, and so does a program that is accepted. -/
theorem fault_persists (s : Setup) (hf : m.fault = some f) (calls : List (IdleCall s.config)) :
    let now := m.idleAll s calls
    (now.step s).result = .error f ∧ now.fault = some f ∧
      now = { m with timers := now.timers, keypad := now.keypad } ∧
      (now.reset s.config).fault = none ∧
      ∀ image loaded, now.load s.config image = .ok loaded → loaded.fault = none := by
  intro now
  have hfrozen : m.Frozen now := frozen_idleAll hf calls
  have hnow : now.fault = some f := hfrozen.fault.trans hf
  refine ⟨(step_of_halted hnow).1, hnow, hfrozen, rfl, fun image loaded hload => ?_⟩
  obtain ⟨program, -, rfl⟩ := load_eq_ok_iff.1 hload
  rfl

/-- A machine that ran past the end of memory, its delay timer running. -/
def runaway : Machine :=
  (({ powerOn {} with timers := ⟨5, 0⟩ }.setPc 0x1000).step standardSetup).machine

/-- What is called after that. -/
def afterRunaway : List (IdleCall standardSetup.config) :=
  [.act .step, .act .tick, .act (.setKey 3 true), .sounding, .load (.bytes []) .empty rfl,
    .act .tick]

/-- It stays halted while its timer goes on and a key is held. -/
theorem fault_persists_runaway :
    ∃ f, runaway.fault = some f ∧
      ((runaway.idleAll standardSetup afterRunaway).step standardSetup).result = .error f ∧
      (runaway.idleAll standardSetup afterRunaway).registers.pc = 0x1000 ∧
      (runaway.idleAll standardSetup afterRunaway).timers.delay = 3 ∧
      (runaway.idleAll standardSetup afterRunaway).keypad.latch = some 3 := by
  obtain ⟨f, hf⟩ : ∃ f, runaway.fault = some f := ⟨_, rfl⟩
  obtain ⟨hstep, -, hfrozen, -⟩ := fault_persists standardSetup hf afterRunaway
  exact ⟨f, hf, hstep, by rw [hfrozen]; rfl, by decide +kernel, by decide +kernel⟩

end Machine

end Chip8
