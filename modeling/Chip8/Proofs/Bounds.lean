import Chip8.Proofs.Guarded.Run

/-!
# Bounds of a running machine

The program counter is the only part of a machine that no type holds to its
range: jumps with an offset, skips, returns and the wait for a key all move it.
`Sound` bounds it together with the return addresses, whose bound depends on
that of the counter at the call, and is kept by everything that a host can do:

* by a step, as a fetch leaves the counter between 2 and `0x1000` and no
  instruction goes further than `0xFFF + 0xFF` (`nextPc_bounds`);
* by a reset and an accepted program, which start again at the load offset.

Hence every machine that a host can bring about is within the bounds of its
parts. What the types hold to its range is in it by the doing of each
instruction: told in integers, a run makes no access that is refused
(`withinBounds_performAll`).
-/

namespace Chip8.Machine

variable {s : Setup} {m : Machine}

/-- The bounds that are not held by the types of a machine's parts. -/
structure Sound (m : Machine) : Prop where
  pc_nonneg : 0 ≤ m.registers.pc
  pc_le : m.registers.pc ≤ 0x10FE
  limit : m.stack.limit = CallStack.standardLimit
  depth : m.stack.items.length ≤ 16
  returns : ∀ a ∈ m.stack.items, 2 ≤ a ∧ a ≤ 0x1000
  diagnostics : m.diagnostics.length ≤ 256

/-- The bounds of all parts of a machine. -/
structure WithinBounds (m : Machine) : Prop where
  memory_size : m.memory.cells.toList.length = 4096
  memory : ∀ b ∈ m.memory.cells.toList, b.toNat ≤ 255
  register_count : m.registers.v.toList.length = 16
  registers : ∀ b ∈ m.registers.v.toList, b.toNat ≤ 255
  index : m.registers.i.toNat ≤ 0xFFFF
  pc : 0 ≤ m.registers.pc ∧ m.registers.pc ≤ 0x10FE
  depth : m.stack.items.length ≤ 16
  returns : ∀ a ∈ m.stack.items, 2 ≤ a ∧ a ≤ 0x1000
  delay : m.timers.delay.toNat ≤ 255
  sound : m.timers.sound.toNat ≤ 255
  grid_size : m.display.cells.toList.length = 2048
  grid : ∀ c ∈ m.display.cells.toList.map Bool.toNat, c = 0 ∨ c = 1
  latch : ∀ key ∈ m.keypad.latch, key.val ≤ 15
  diagnostics : m.diagnostics.length ≤ 256

theorem Sound.withinBounds (h : m.Sound) : m.WithinBounds where
  memory_size := m.memory.cells.size_toArray
  memory b _ := Nat.le_of_lt_succ b.toNat_lt
  register_count := m.registers.v.size_toArray
  registers b _ := Nat.le_of_lt_succ b.toNat_lt
  index := Nat.le_of_lt_succ m.registers.i.toNat_lt
  pc := ⟨h.pc_nonneg, h.pc_le⟩
  depth := h.depth
  returns := h.returns
  delay := Nat.le_of_lt_succ m.timers.delay.toNat_lt
  sound := Nat.le_of_lt_succ m.timers.sound.toNat_lt
  grid_size := m.display.cells.size_toArray
  grid c hc := by
    obtain ⟨lit, _, rfl⟩ := List.mem_map.1 hc
    cases lit <;> simp
  latch key _ := Nat.le_of_lt_succ key.isLt
  diagnostics := h.diagnostics

/-- No instruction goes further than the highest address and the highest offset
    together. -/
theorem nextPc_bounds (d : Dialect) (w : Word)
    (hpc : 0 ≤ m.registers.pc ∧ m.registers.pc ≤ 0xFFE)
    (hreturns : ∀ a ∈ m.stack.items, 2 ≤ a ∧ a ≤ 0x1000) :
    0 ≤ m.nextPc d w ∧ m.nextPc d w ≤ 0x10FE := by
  have hnnn : w.nnn ≤ 0xFFF := Nat.le_of_lt_succ (Nat.mod_lt _ (by decide))
  unfold nextPc
  cases Form.ofWord w <;> simp only
  case ret =>
    cases hs : m.stack.items with
    | nil => simp only [List.headD_nil]; omega
    | cons a rest =>
      have := hreturns a (hs ▸ List.mem_cons_self)
      simp only [List.headD_cons]
      omega
  case jumpOffset =>
    split
    · have := m.registers.v[0].toNat_lt
      omega
    · have := m.registers.v[w.x].toNat_lt
      omega
  all_goals omega

/-- A call puts the address after its own on the stack, a return takes one off,
    and no other instruction touches it. -/
theorem Sound.stack {w : Word} {e : Effect} (h : m.Sound)
    (hpc : 0 ≤ m.registers.pc ∧ m.registers.pc ≤ 0xFFE)
    (he : (m.fetched w).execute s (.decode w) = .ok e) :
    e.machine.stack.limit = CallStack.standardLimit ∧ e.machine.stack.items.length ≤ 16 ∧
      ∀ a ∈ e.machine.stack.items, 2 ≤ a ∧ a ≤ 0x1000 := by
  have hstack := execute_stack he
  split at hstack
  · obtain ⟨hroom, hstack⟩ := hstack
    rw [hstack]
    refine ⟨h.limit, ?_, fun a ha => ?_⟩
    · have := h.limit
      simp only [fetched, CallStack.standardLimit, List.length_cons] at *
      omega
    · rcases List.mem_cons.1 ha with rfl | ha
      · -- The new return address is the counter moved past the call.
        simp only [fetched, Registers.pc_setPc]
        omega
      · exact h.returns a ha
  · rw [hstack.2]
    refine ⟨h.limit, ?_, fun a ha => h.returns a (List.mem_of_mem_tail ha)⟩
    rw [List.length_tail]
    exact Nat.le_trans (Nat.sub_le _ _) h.depth
  · rw [hstack]
    exact ⟨h.limit, h.depth, h.returns⟩

theorem Sound.reported {w : Word} {e : Effect} (h : m.Sound)
    (he : (m.fetched w).execute s (.decode w) = .ok e) :
    (e.machine.reported e.anomaly).diagnostics.length ≤ 256 := by
  cases ha : e.anomaly with
  | none =>
    simp only [Machine.reported, Option.elim_none, (execute_frame he).diagnostics]
    exact h.diagnostics
  | some a =>
    simp only [Machine.reported, Option.elim_some]
    rw [length_latest]
    exact Nat.min_le_left _ _

theorem Sound.step (h : m.Sound) (s : Setup) : (m.step s).machine.Sound := by
  cases stepCase s m with
  | halted f fault machine => rw [machine]; exact h
  | outside running range machine =>
    rw [machine]
    exact ⟨h.pc_nonneg, h.pc_le, h.limit, h.depth, h.returns, h.diagnostics⟩
  | refused w c running range word refusal machine =>
    rw [machine]
    refine ⟨?_, ?_, h.limit, h.depth, h.returns, h.diagnostics⟩ <;>
      simp only [fetched, Registers.pc_setPc] <;> omega
  | executed w e running range word effect machine =>
    have hpc := nextPc_bounds s.config.dialect w range h.returns
    rw [← execute_pc effect] at hpc
    have hstack := h.stack range effect
    rw [machine]
    exact ⟨hpc.1, hpc.2, hstack.1, hstack.2.1, hstack.2.2, h.reported effect⟩

theorem Sound.reset (c : Config) (m : Machine) : (m.reset c).Sound where
  pc_nonneg := Int.natCast_nonneg _
  pc_le := by
    have := c.belowEnd
    simp only [memoryEnd] at this
    simp only [Machine.reset, Registers.blank]
    omega
  limit := rfl
  depth := Nat.zero_le _
  returns _ ha := absurd ha List.not_mem_nil
  diagnostics := Nat.zero_le _

theorem Sound.act (h : m.Sound) (s : Setup) (a : Action) : (m.act s a).Sound := by
  cases a with
  | step => exact h.step s
  | tick => exact ⟨h.pc_nonneg, h.pc_le, h.limit, h.depth, h.returns, h.diagnostics⟩
  | setKey k pressed =>
    rw [act_setKey]
    exact ⟨h.pc_nonneg, h.pc_le, h.limit, h.depth, h.returns, h.diagnostics⟩

theorem Sound.perform (h : m.Sound) (s : Setup) (op : Operation) : (m.perform s op).Sound := by
  cases op with
  | load image =>
    simp only [Machine.perform]
    split
    · obtain ⟨program, _, rfl⟩ := load_eq_ok_iff.1 ‹_›
      exact .reset _ _
    · exact h
  | reset => exact .reset _ _
  | act a => exact h.act s a

/-- A machine without a program is the reset of itself. -/
theorem powerOn_eq_reset (c : Config) : powerOn c = (powerOn c).reset c := rfl

theorem sound_performAll (s : Setup) (ops : List Operation) :
    ((powerOn s.config).performAll s ops).Sound :=
  performAll_induction ops (powerOn_eq_reset s.config ▸ .reset _ _) fun _ op h => h.perform s op

/-- Whatever a host does with a machine, and whatever the program does, no value
    is stored that does not fit its cell or register, and no part of the machine
    leaves its bounds. -/
theorem withinBounds_performAll (s : Setup) (ops : List Operation) :
    (powerOn s.config).performAllGuarded s ops = .ok ((powerOn s.config).performAll s ops) ∧
      ((powerOn s.config).performAll s ops).WithinBounds :=
  ⟨performAllGuarded_eq (fits_powerOn s.config) ops, (sound_performAll s ops).withinBounds⟩

end Chip8.Machine
