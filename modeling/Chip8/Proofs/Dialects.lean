import Chip8.Proofs.Execution
import Chip8.Proofs.Replies
import Mathlib.Data.List.Basic

/-!
# Machines of different dialects

Dialects differ on six kinds of instructions, and not on all instructions of
these kinds: a shift of a register into itself has the same operand in both, a
sprite that does not reach an edge is neither wrapped nor clipped, and a jump
whose highest digit is zero takes its offset from the same register
(`Instruction.Disputed`).

* `Display.draw_edges`: a sprite within the grid is drawn alike;
* `execute_dialect`: an instruction that is not disputed is executed alike;
* `reply_dialect`: so is every call in which none is executed;
* `replies_dialect`: two machines of different dialects, to which the same calls
  are made, stay the same until a disputed instruction is executed.
-/

namespace Chip8

/-- Two dialects differ in what an instruction does with the byte registers `v`:
    on shifts (`8xy6`, `8xyE`) of one register into another one, on all instructions
    that store and load registers (`Fx55`, `Fx65`), on sprites (`Dxyn`) that reach
    beyond the right or the bottom edge, on all additions to the index (`Fx1E`), or
    on jumps (`Bnnn`) whose highest digit is not zero. -/
def Instruction.Disputed (d d' : Dialect) (v : Vector UInt8 16) (ins : Instruction) : Prop :=
  let f := ins.form
  let w := ins.word
  (d.shift ≠ d'.shift ∧ (f = .shiftRight ∨ f = .shiftLeft) ∧ w.x ≠ w.y) ∨
  (d.advanceIndex ≠ d'.advanceIndex ∧ (f = .store ∨ f = .load)) ∨
  (d.edges ≠ d'.edges ∧ f = .draw ∧
    (v[w.x].toNat % 64 + 8 > 64 ∨ v[w.y].toNat % 32 + w.n > 32)) ∨
  (d.flagIndexOverflow ≠ d'.flagIndexOverflow ∧ f = .addIndex) ∨
  (d.jump ≠ d'.jump ∧ f = .jumpOffset ∧ w.x ≠ 0)

instance (d d' : Dialect) (v : Vector UInt8 16) : DecidablePred (Instruction.Disputed d d' v) :=
  fun _ => inferInstanceAs (Decidable (_ ∨ _ ∨ _ ∨ _ ∨ _))

/-! ### Sprites within the grid -/

namespace Display

variable {width height : Nat} {x y : Int} (edges edges' : Edges)

/-- A position of the grid has its offset whatever becomes of others. -/
theorem locate_of_inside (hx : 0 ≤ x ∧ x < width) (hy : 0 ≤ y ∧ y < height) :
    locate width height edges x y = some (y * width + x) := by
  cases edges with
  | wrap => rw [locate, Int.emod_eq_of_lt hx.1 hx.2, Int.emod_eq_of_lt hy.1 hy.2]
  | clip => rw [locate, if_neg (by omega)]

theorem rowOffsets_edges (hx : 0 ≤ x ∧ x + 8 ≤ width) (hy : 0 ≤ y ∧ y < height) (row : Int) :
    rowOffsets width height edges x y row = rowOffsets width height edges' x y row := by
  refine List.filterMap_congr fun column hcolumn => ?_
  have hcolumn := List.mem_range.1 hcolumn
  have hinside : 0 ≤ x + Int.ofNat column ∧ x + Int.ofNat column < width := by
    rw [Int.ofNat_eq_natCast]
    omega
  rw [locate_of_inside edges hinside hy, locate_of_inside edges' hinside hy]

theorem spriteOffsets_edges (hx : 0 ≤ x ∧ x + 8 ≤ width) {rows : List Int}
    (hy : 0 ≤ y ∧ y + rows.length ≤ height) :
    spriteOffsets width height edges x y rows = spriteOffsets width height edges' x y rows := by
  induction rows generalizing y with
  | nil => rfl
  | cons row rest ih =>
    rw [List.length_cons] at hy
    rw [spriteOffsets, spriteOffsets, rowOffsets_edges edges edges' hx (by omega), ih (by omega)]

/-- A sprite that does not reach beyond the right and the bottom edge is drawn
    alike. -/
theorem draw_edges (d : Display width height) {rows : List Int}
    (hx : 0 ≤ x % width ∧ x % width + 8 ≤ width)
    (hy : 0 ≤ y % height ∧ y % height + rows.length ≤ height) :
    d.draw edges x y rows = d.draw edges' x y rows := by
  rw [draw, draw, spriteOffsets_edges edges edges' hx hy]

end Display

namespace Machine

variable {s : Setup} {m : Machine} {c : Config}

/-! ### Instructions -/

theorem advanced_dialect {d d' : Dialect} (h : d.advanceIndex = d'.advanceIndex) (r : Registers)
    (count : Nat) : advanced d r count = advanced d' r count := by
  rw [advanced, advanced, h]

theorem drawSprite_dialect {d d' : Dialect} {x y : Fin 16} {n : Nat}
    (h : d.edges = d'.edges ∨
      m.registers.v[x].toNat % 64 + 8 ≤ 64 ∧ m.registers.v[y].toNat % 32 + n ≤ 32) :
    drawSprite d m x y n = drawSprite d' m x y n := by
  have hdraw : m.display.draw d.edges m.registers.v[x].toNat m.registers.v[y].toNat
        ((m.memory.fetchAll m.registers.i.toNat n).map fun b => Int.ofNat b.toNat) =
      m.display.draw d'.edges m.registers.v[x].toNat m.registers.v[y].toNat
        ((m.memory.fetchAll m.registers.i.toNat n).map fun b => Int.ofNat b.toNat) := by
    rcases h with hedges | ⟨hx, hy⟩
    · rw [hedges]
    · refine Display.draw_edges _ _ _ ?_ ?_
      · simp only [Display.standardWidth]
        omega
      · rw [List.length_map, Memory.fetchAll, List.length_map, List.length_range]
        simp only [Display.standardHeight]
        omega
  simp only [drawSprite, hdraw]

/-- An instruction on which two dialects do not differ is executed alike in both. -/
theorem execute_dialect {ins : Instruction}
    (h : ¬ins.Disputed s.config.dialect c.dialect m.registers.v) :
    m.execute { s with config := c } ins = m.execute s ins := by
  obtain ⟨f, w⟩ := ins
  cases f <;> simp only [Instruction.Disputed, reduceCtorEq, or_true, true_and, false_and,
    and_false, and_true, or_false, false_or, ne_eq, not_and, Decidable.not_not] at h
  case shiftRight | shiftLeft =>
    -- Either the choice is the same, or both choose the same register.
    have hoperand : m.registers.shiftOperand c.dialect.shift w.x w.y =
        m.registers.shiftOperand s.config.dialect.shift w.x w.y := by
      by_cases hshift : s.config.dialect.shift = c.dialect.shift
      · rw [hshift]
      · rw [h hshift]
        cases c.dialect.shift <;> cases s.config.dialect.shift <;> rfl
    simp only [execute, hoperand]
  case jumpOffset =>
    by_cases hjump : s.config.dialect.jump = c.dialect.jump
    · simp only [execute, hjump]
    · have hx := h hjump
      simp only [execute, hx]
      cases c.dialect.jump <;> cases s.config.dialect.jump <;> rfl
  case draw =>
    refine congrArg Except.ok (drawSprite_dialect (x := w.x) (y := w.y) (n := w.n) ?_)
    by_cases hedges : s.config.dialect.edges = c.dialect.edges
    · exact .inl hedges.symm
    · have := h hedges
      exact .inr (by omega)
  case addIndex => simp only [execute, h]
  case store =>
    simp only [execute, storeRegisters, advanced_dialect h]
  case load =>
    simp only [execute, loadRegisters, advanced_dialect h]
  all_goals rfl

/-! ### Calls -/

/-- The next step does not execute an instruction on which two dialects differ. -/
def Undisputed (d d' : Dialect) (s : Setup) (m : Machine) : Prop :=
  ∀ ins, (m.step s).result = .ok ins → ¬ins.Disputed d d' m.registers.v

/-- An instruction that is refused is not disputed. -/
theorem not_disputed_of_refused {d d' : Dialect} {v : Vector UInt8 16} {ins : Instruction}
    {cause : FaultCause} (h : m.execute s ins = .error cause) : ¬ins.Disputed d d' v := by
  rcases execute_eq_error_iff.1 h with ⟨hform, -⟩ | ⟨hform, -⟩ <;>
    simp [Instruction.Disputed, hform]

theorem step_dialect (h : m.Undisputed s.config.dialect c.dialect s) :
    m.step { s with config := c } = m.step s := by
  cases hf : m.fault with
  | some f => simp only [step, hf]
  | none =>
    cases hw : m.nextWord? with
    | none => simp only [step, hf, hw]
    | some w =>
      have hfree : ¬(Instruction.decode w).Disputed s.config.dialect c.dialect
          (m.fetched w).registers.v := by
        cases he : (m.fetched w).execute s (.decode w) with
        | error cause => exact not_disputed_of_refused he
        | ok e => exact h _ (step_of_execute hf hw he).2
      simp only [step, hf, hw, execute_dialect hfree]

/-- A reset only looks at the load offset. -/
theorem reset_dialect (h : s.config.loadOffset = c.loadOffset) : m.reset c = m.reset s.config := by
  simp only [reset, h]

theorem load_dialect (h : s.config.loadOffset = c.loadOffset) (image : Image) :
    m.load c image = m.load s.config image := by
  simp only [load, h, reset_dialect h]

theorem powerOn_dialect (h : s.config.loadOffset = c.loadOffset) :
    powerOn c = powerOn s.config := by
  simp only [powerOn, h]

instance {d d' : Dialect} : Decidable (m.Undisputed d d' s) :=
  match h : (m.step s).result with
  | .ok ins =>
    decidable_of_iff (¬ins.Disputed d d' m.registers.v)
      ⟨fun hfree i hi => by cases h.symm.trans hi; exact hfree, fun hfree => hfree ins h⟩
  | .error _ => .isTrue fun _ hi => nomatch h.symm.trans hi

/-- A call that executes no disputed instruction has the same reply in both
    dialects. -/
theorem reply_dialect (hoffset : s.config.loadOffset = c.loadOffset) {op : Operation}
    (h : op = .act .step → m.Undisputed s.config.dialect c.dialect s) :
    m.reply { s with config := c } op = m.reply s op := by
  cases op with
  | load image => simp only [reply, load_dialect hoffset]
  | reset => simp only [reply, reset_dialect hoffset]
  | act a =>
    cases a with
    | step => simp only [reply, step_dialect (h rfl)]
    | tick => rfl
    | setKey k pressed => rfl

theorem replies_congr (hoffset : s.config.loadOffset = c.loadOffset) {ops : List Operation}
    (h : ∀ before, before ++ [.act .step] <+: ops →
      (m.performAll s before).Undisputed s.config.dialect c.dialect s) :
    m.replies { s with config := c } ops = m.replies s ops ∧
      m.performAll { s with config := c } ops = m.performAll s ops := by
  induction ops generalizing m with
  | nil => exact ⟨rfl, rfl⟩
  | cons op ops ih =>
    -- The first call has the same reply, and so leaves the same machine for the others.
    have hfirst : m.reply { s with config := c } op = m.reply s op := by
      refine reply_dialect hoffset fun hstep => ?_
      subst hstep
      exact h [] (List.prefix_append [_] ops)
    have hmachine : m.perform { s with config := c } op = m.perform s op := by
      rw [← machine_reply, ← machine_reply, hfirst]
    obtain ⟨hreplies, hlast⟩ := ih (m := m.perform s op) fun before hbefore =>
      h (op :: before) (List.cons_prefix_cons.2 ⟨rfl, hbefore⟩)
    constructor
    · rw [replies, replies, hfirst, machine_reply, hreplies]
    · rw [performAll, List.foldl_cons, hmachine]
      exact hlast

/-- Dialects only matter to disputed instructions. Two machines are made with
    configurations of the same load offset, whatever their dialects are, and the
    same calls are made to both. As long as no step executes an instruction on
    which the dialects differ, every call has the same reply, and the machines are
    the same after it. -/
theorem replies_dialect (s : Setup) (c : Config) (hoffset : s.config.loadOffset = c.loadOffset)
    (ops : List Operation)
    (h : ∀ before, before ++ [.act .step] <+: ops →
      ((powerOn s.config).performAll s before).Undisputed s.config.dialect c.dialect s) :
    let s' := { s with config := c }
    (powerOn c).replies s' ops = (powerOn s.config).replies s ops ∧
      (powerOn c).performAll s' ops = (powerOn s.config).performAll s ops := by
  intro s'
  rw [powerOn_dialect hoffset]
  exact replies_congr hoffset h

/-- A configuration with the other choice on every topic. -/
def oppositeConfig : Config :=
  { dialect := ⟨.vy, true, .clip, true, .vx⟩ }

/-- A program that draws a sprite which just fits into the last corner, shifts a
    register into itself and jumps. -/
def neutralProgram : List UInt8 :=
  [0x60, 0x38, 0x61, 0x1F, 0xA0, 0x50, 0xD0, 0x11, 0x80, 0x06, 0xB0, 0xE4]

/-- The calls that run it. -/
def neutralCalls : List Operation :=
  [.load (.bytes neutralProgram), .act .step, .act .step, .act .step, .act (.setKey 3 true),
    .act .step, .act .tick, .act .step, .act .step]

/-- It runs alike in two dialects that agree on no topic. -/
theorem replies_dialect_neutralCalls :
    (∀ before, before ++ [.act .step] <+: neutralCalls →
      ((powerOn standardSetup.config).performAll standardSetup before).Undisputed
        standardSetup.config.dialect oppositeConfig.dialect standardSetup) ∧
      (let now := (powerOn {}).performAll standardSetup neutralCalls
      (powerOn oppositeConfig).performAll { standardSetup with config := oppositeConfig }
          neutralCalls = now ∧
        now.registers.pc = 0x100) := by
  have hneutral : ∀ before, before ++ [.act .step] <+: neutralCalls →
      ((powerOn standardSetup.config).performAll standardSetup before).Undisputed
        standardSetup.config.dialect oppositeConfig.dialect standardSetup := by
    -- A prefix is told by its length.
    have htake : ∀ n ≤ 9, ((powerOn standardSetup.config).performAll standardSetup
        (neutralCalls.take n)).Undisputed standardSetup.config.dialect oppositeConfig.dialect
          standardSetup := by decide +kernel
    intro before hbefore
    have hprefix := (List.prefix_append before _).trans hbefore
    rw [List.prefix_iff_eq_take.1 hprefix]
    exact htake _ hprefix.length_le
  obtain ⟨-, hlast⟩ := replies_dialect standardSetup oppositeConfig rfl neutralCalls hneutral
  exact ⟨hneutral, hlast, by decide +kernel⟩

end Machine

end Chip8
