import Chip8.Proofs.Execution
import Chip8.Proofs.Session.Deeds

/-!
# Machines that agree

Between the steps of a program its host ticks the timers, holds and releases
keys and shows the picture. Four forms of instructions ask for what the host
has done, those that read the delay timer and those that look at keys
(`Form.AsksHost`). To all others it makes no difference: machines that agree on
everything else (`Agree`) execute the same instruction and agree afterwards.

* `bare`: a machine without what its host does to it;
* `execute_bare`: executing an instruction commutes with that;
* `Agree.step`: a step of machines that agree;
* `Agree.steps`: so do all of them, whatever is done in between.
-/

namespace Chip8

/-- The forms of instructions that look at the delay timer (`fx07`) or at the keys
    (`fx0a`, `ex9e`, `exa1`). -/
def Form.AsksHost (f : Form) : Prop :=
  f = .readDelay ∨ f = .awaitKey ∨ f = .skipHeld ∨ f = .skipReleased

instance : DecidablePred Form.AsksHost := fun f =>
  inferInstanceAs (Decidable (f = .readDelay ∨ f = .awaitKey ∨ f = .skipHeld ∨ f = .skipReleased))

/-- Setups that do not differ in what a step computes. -/
structure Setup.Alike (s s' : Setup) : Prop where
  config : s.config = s'.config
  random : s.random = s'.random

/-- A fault but for the timers that it reports. -/
def Fault.untimed (f : Fault) : Fault :=
  { f with timers := ⟨0, 0⟩ }

/-- A result but for the timers that a fault reports. -/
def Deed.untimed (result : Except Fault Instruction) : Except Fault Instruction :=
  result.mapError Fault.untimed

namespace Display

variable {width height : Nat} (d : Display width height) (changed : Bool)

/-- The display as it is when it has been shown, or changed. -/
def mark : Display width height :=
  { d with changed := changed }

/-- Drawing does not depend on whether the display has been shown. -/
theorem toggleAll_mark (offsets : List Int) :
    ∃ last, (d.mark changed).toggleAll offsets =
      { d.toggleAll offsets with display := (d.toggleAll offsets).display.mark last } := by
  induction offsets generalizing d changed with
  | nil => exact ⟨changed, rfl⟩
  | cons offset rest ih =>
    cases hp : position? (width * height) offset with
    | none =>
      obtain ⟨last, h⟩ := ih d changed
      exact ⟨last, by simp only [toggleAll, hp, h]⟩
    | some c =>
      -- The first flip marks the display as changed.
      refine ⟨(d.toggleAll (offset :: rest)).display.changed, ?_⟩
      simp only [toggleAll, hp]
      rfl

end Display

namespace Machine

variable {s s' : Setup} {m m' m'' n n' : Machine}

/-- The machine as it would be without a host and without a fault. -/
def bare (m : Machine) : Machine :=
  { m with
    timers := ⟨0, 0⟩
    keypad := Keypad.released
    awaiting := false
    display := m.display.mark false
    fault := none }

/-- Executing an instruction that does not ask the host is the same for the bare
    machine. -/
theorem execute_bare {ins : Instruction} (hform : ¬ins.form.AsksHost) :
    (m.bare.execute s ins).map (fun e => { e with machine := e.machine.bare }) =
      (m.execute s ins).map (fun e => { e with machine := e.machine.bare }) := by
  obtain ⟨f, w⟩ := ins
  cases f
  case ret =>
    simp only [execute, bare]
    cases m.stack.pop <;> rfl
  case call =>
    simp only [execute, bare]
    cases m.stack.push m.registers.pc <;> rfl
  case draw =>
    -- The picture being due to be shown is all that the drawings differ in.
    obtain ⟨last, hdraw⟩ := m.display.toggleAll_mark false (Display.spriteOffsets _ _
      s.config.dialect.edges (m.registers.v[w.x].toNat % Display.standardWidth)
      (m.registers.v[w.y].toNat % Display.standardHeight)
      ((m.memory.fetchAll m.registers.i.toNat w.n).map fun b => Int.ofNat b.toNat))
    simp only [execute, drawSprite, Display.draw, Except.map, bare] at hdraw ⊢
    rw [hdraw]
    rfl
  case readDelay => exact absurd (.inl rfl) hform
  case awaitKey => exact absurd (.inr (.inl rfl)) hform
  case skipHeld => exact absurd (.inr (.inr (.inl rfl))) hform
  case skipReleased => exact absurd (.inr (.inr (.inr rfl))) hform
  all_goals rfl

/-! ### Machines that agree -/

/-- Two machines agree on all that a program computes: they differ in nothing but
    the timers, the keypad, a wait for a key, and the picture being due. -/
structure Agree (m m' : Machine) : Prop where
  memory : m.memory = m'.memory
  registers : m.registers = m'.registers
  stack : m.stack = m'.stack
  cells : m.display.cells = m'.display.cells
  diagnostics : m.diagnostics = m'.diagnostics
  program : m.program = m'.program
  opcode : m.opcode = m'.opcode
  address : m.address = m'.address
  draws : m.draws = m'.draws
  fault : m.fault.map Fault.untimed = m'.fault.map Fault.untimed

theorem Agree.refl (m : Machine) : m.Agree m := by
  constructor <;> rfl

theorem Agree.symm (h : m.Agree m') : m'.Agree m :=
  ⟨h.memory.symm, h.registers.symm, h.stack.symm, h.cells.symm, h.diagnostics.symm,
    h.program.symm, h.opcode.symm, h.address.symm, h.draws.symm, h.fault.symm⟩

theorem Agree.trans (h : m.Agree m') (h' : m'.Agree m'') : m.Agree m'' where
  memory := h.memory.trans h'.memory
  registers := h.registers.trans h'.registers
  stack := h.stack.trans h'.stack
  cells := h.cells.trans h'.cells
  diagnostics := h.diagnostics.trans h'.diagnostics
  program := h.program.trans h'.program
  opcode := h.opcode.trans h'.opcode
  address := h.address.trans h'.address
  draws := h.draws.trans h'.draws
  fault := h.fault.trans h'.fault

theorem agree_iff : m.Agree m' ↔
    m.bare = m'.bare ∧ m.fault.map Fault.untimed = m'.fault.map Fault.untimed := by
  refine ⟨fun h => ⟨?_, h.fault⟩, fun ⟨h, hfault⟩ => ?_⟩
  · simp only [bare, Display.mark, h.memory, h.registers, h.stack, h.cells, h.diagnostics,
      h.program, h.opcode, h.address, h.draws]
  · simp only [bare, Display.mark, mk.injEq, Display.mk.injEq] at h
    obtain ⟨hmemory, hregisters, hstack, -, ⟨hcells, -⟩, -, hdiagnostics, hprogram, hopcode,
      haddress, -, -, hdraws⟩ := h
    exact ⟨hmemory, hregisters, hstack, hcells, hdiagnostics, hprogram, hopcode, haddress, hdraws,
      hfault⟩

/-- What a host does between steps changes nothing of that. -/
theorem agree_deed {d : Deed} (hd : d.result? = none) : m.Agree (m.deed s d) := by
  cases d with
  | setKey key pressed =>
    rw [deed, act_setKey]
    constructor <;> rfl
  | step result => cases hd
  | poll | refresh | tick | switch => constructor <;> rfl

/-! ### Steps of machines that agree -/

theorem execute_congr {ins : Instruction} (hs : s.Alike s') :
    m.execute s ins = m.execute s' ins := by
  obtain ⟨config, random, debug⟩ := s
  obtain ⟨config', random', debug'⟩ := s'
  obtain ⟨rfl, rfl⟩ := hs
  rfl

theorem Agree.fetched (h : m.Agree m') (w : Word) : (m.fetched w).Agree (m'.fetched w) := by
  have hregisters := h.registers
  exact { h with
    registers := by simp only [Machine.fetched, hregisters]
    opcode := rfl
    address := congrArg Registers.pc hregisters }

theorem Agree.reported (h : m.Agree m') (a : Option Anomaly) :
    (m.reported a).Agree (m'.reported a) :=
  { h with
    diagnostics := by simp only [Machine.reported, h.diagnostics, h.address, h.opcode] }

theorem Agree.execute {ins : Instruction} {e : Effect} (hs : s.Alike s') (h : m.Agree m')
    (hform : ¬ins.form.AsksHost) (he : m.execute s ins = .ok e) :
    ∃ e', m'.execute s' ins = .ok e' ∧ e.machine.Agree e'.machine ∧ e.anomaly = e'.anomaly := by
  have hbare := (execute_bare (s := s) (m := m') hform).symm
  rw [← (agree_iff.1 h).1, execute_bare hform, he] at hbare
  cases he' : m'.execute s ins with
  | error c => rw [he'] at hbare; cases hbare
  | ok e' =>
    rw [he'] at hbare
    simp only [Except.map, Except.ok.injEq, Effect.mk.injEq] at hbare
    refine ⟨e', execute_congr hs ▸ he', agree_iff.2 ⟨hbare.1.symm, ?_⟩, hbare.2.2.symm⟩
    rw [(execute_frame he).fault, (execute_frame he').fault, h.fault]

theorem Agree.faultNow (h : m.Agree m') (c : FaultCause) :
    (m.faultNow c).untimed = (m'.faultNow c).untimed := by
  simp only [Machine.faultNow, Fault.untimed, h.registers, h.stack, h.opcode, h.address]

theorem Agree.halt (h : m.Agree m') (c : FaultCause) :
    Agree { m with fault := some (m.faultNow c) } { m' with fault := some (m'.faultNow c) } :=
  { h with fault := congrArg some (h.faultNow c) }

theorem Agree.running (h : m.Agree m') (hrun : m.fault = none) : m'.fault = none := by
  have hfault := h.fault
  rw [hrun] at hfault
  exact Option.map_eq_none_iff.1 hfault.symm

theorem Agree.nextWord? (h : m.Agree m') : m.nextWord? = m'.nextWord? := by
  simp only [Machine.nextWord?, h.memory, h.registers]

/-- A step of machines that agree has the same result, and they agree afterwards,
    unless its instruction asks the host. -/
theorem Agree.step (hs : s.Alike s') (h : m.Agree m')
    (hfree : ∀ i, (m.step s).result = .ok i → ¬i.form.AsksHost) :
    Deed.untimed (m.step s).result = Deed.untimed (m'.step s').result ∧
      (m.step s).machine.Agree (m'.step s').machine := by
  cases stepCase s m with
  | halted f fault machine result =>
    obtain ⟨f', fault', huntimed⟩ : ∃ f', m'.fault = some f' ∧ f'.untimed = f.untimed := by
      have hfault := h.fault
      rw [fault] at hfault
      exact Option.map_eq_some_iff.1 hfault.symm
    rw [machine, result]
    simp only [Machine.step, fault']
    exact ⟨congrArg Except.error huntimed.symm, h⟩
  | outside running range machine result =>
    obtain ⟨machine', result'⟩ := step_of_outside (s := s') (h.running running)
      (h.nextWord?.symm.trans (nextWord?_eq_none_iff.2 range))
    rw [← congrArg Registers.pc h.registers] at machine' result'
    rw [machine, result, machine', result']
    exact ⟨congrArg Except.error (h.faultNow _), h.halt _⟩
  | refused w c running range word refusal machine result =>
    have hfetched := h.fetched w
    have refusal' : (m'.fetched w).execute s' (.decode w) = .error c := by
      have hstack := hfetched.stack
      rw [execute_eq_error_iff] at refusal ⊢
      rwa [← hstack]
    obtain ⟨machine', result'⟩ := step_of_refusal (h.running running)
      (h.nextWord? ▸ nextWord?_eq_some_iff.2 ⟨range, word⟩) refusal'
    rw [machine, result, machine', result']
    exact ⟨congrArg Except.error (hfetched.faultNow c), hfetched.halt c⟩
  | executed w e running range word effect machine result =>
    obtain ⟨e', effect', hagree, hanomaly⟩ := (h.fetched w).execute hs (hfree _ result) effect
    obtain ⟨machine', result'⟩ := step_of_execute (h.running running)
      (h.nextWord? ▸ nextWord?_eq_some_iff.2 ⟨range, word⟩) effect'
    rw [machine, result, machine', result', hanomaly]
    exact ⟨rfl, hagree.reported _⟩

/-! ### Runs of machines that agree -/

/-- Steps with some results lead from a machine to another one, whatever its host
    does in between. -/
def Steps (s : Setup) : Machine → List (Except Fault Instruction) → Machine → Prop
  | m, [], n => m.Agree n
  | m, r :: rs, n =>
    ∃ m', m.Agree m' ∧ (m'.step s).result = r ∧ (m'.step s).machine.Steps s rs n

theorem Steps.of_agree {rs : List (Except Fault Instruction)} (h : m.Agree m')
    (h' : m'.Steps s rs n) : m.Steps s rs n := by
  cases rs with
  | nil => exact h.trans h'
  | cons r rs =>
    obtain ⟨m₁, hagree, hstep⟩ := h'
    exact ⟨m₁, h.trans hagree, hstep⟩

theorem Does.steps {ds : List Deed} (h : m.Does s ds n) :
    m.Steps s (ds.filterMap Deed.result?) n := by
  induction ds generalizing m with
  | nil => exact h ▸ .refl m
  | cons d ds ih =>
    have hrest := ih h.2
    cases d with
    | step result => exact ⟨m, .refl m, h.1 result rfl, hrest⟩
    | poll | setKey | refresh | tick | switch => exact hrest.of_agree (agree_deed rfl)

/-- Machines that agree have the same results as long as both make steps, and
    agree after as many steps, if none of the instructions asks the host. -/
theorem Agree.steps {rs rs' : List (Except Fault Instruction)} (hs : s.Alike s')
    (h : m.Agree m') (hsteps : m.Steps s rs n) (hsteps' : m'.Steps s' rs' n')
    (hfree : ∀ i, .ok i ∈ rs → ¬i.form.AsksHost) :
    (rs.map Deed.untimed <+: rs'.map Deed.untimed ∨
        rs'.map Deed.untimed <+: rs.map Deed.untimed) ∧
      (rs.length = rs'.length → n.Agree n') := by
  induction rs generalizing m m' rs' with
  | nil =>
    refine ⟨.inl List.nil_prefix, fun hlength => ?_⟩
    obtain rfl := List.length_eq_zero_iff.1 hlength.symm
    exact (hsteps.symm.trans h).trans hsteps'
  | cons r rs ih =>
    cases rs' with
    | nil => exact ⟨.inr List.nil_prefix, fun hlength => absurd hlength (Nat.succ_ne_zero _)⟩
    | cons r' rs' =>
      obtain ⟨m₁, hm, rfl, hrest⟩ := hsteps
      obtain ⟨m₁', hm', rfl, hrest'⟩ := hsteps'
      obtain ⟨hresult, hagree⟩ := ((hm.symm.trans h).trans hm').step hs fun i hi =>
        hfree i (hi ▸ List.mem_cons_self)
      obtain ⟨hpre, hlast⟩ := ih hagree hrest hrest' fun i hi =>
        hfree i (List.mem_cons_of_mem _ hi)
      refine ⟨?_, fun hlength => hlast (Nat.succ.inj hlength)⟩
      rw [List.map_cons, List.map_cons, hresult, List.cons_prefix_cons, List.cons_prefix_cons]
      exact hpre.imp (⟨rfl, ·⟩) (⟨rfl, ·⟩)

end Machine

end Chip8
