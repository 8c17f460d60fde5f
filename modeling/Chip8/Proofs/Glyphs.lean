import Chip8.Proofs.Arithmetic
import Chip8.Proofs.Loading
import Chip8.Proofs.Restart

/-!
# The index register and the font

Two instructions compute an address. `Fx1E` moves the index register by `Vx`, modulo its
sixteen bits, and in some dialects flags an index past the end of memory, which has twelve.
`Fx29` points it to the glyph of the low digit of `Vx`. The glyph is there, as the font is
put into memory by every load and reset, below all programs, and no other instruction but
`Fx33` and `Fx55` touches memory after that.

* `Executes.addIndex`, `Executes.glyph`: what the two instructions do;
* `SparesFont`: no step of a run stores anything in the font;
* `Furnished`: the font is in memory, and a reset puts it there again;
* `Furnished.perform`, `Furnished.performAll`: this is kept by every call of a host, and
  by all of them, as long as the font is spared;
* `index_and_font`: both instructions, from any machine and after any such run.
-/

namespace Chip8

/-- The rows of a digit's glyph. -/
def Font.glyph (digit : Nat) : List UInt8 :=
  (glyphs.drop (glyphSize * digit)).take glyphSize

theorem Font.getElem?_glyph {digit k : Nat} (hk : k < glyphSize) :
    (glyph digit)[k]? = glyphs[glyphSize * digit + k]? := by
  rw [glyph, List.getElem?_take_of_lt hk, List.getElem?_drop]

namespace Machine

variable {s : Setup} {m : Machine} {w : Word} {x : Fin 16} {ops : List Operation}

/-! ### The two instructions -/

/-- Adding to the index only changes it and the flag, modulo the width of the one and with
    regard to the sum before it is reduced for the other. -/
theorem Executes.addIndex (h : m.Executes x 0x1E) (s : Setup) :
    let sum := m.registers.i.toNat + m.registers.v[x].toNat
    let m' := (m.step s).machine
    (∃ ins, (m.step s).result = .ok ins) ∧ m'.registers.i.toNat = sum % 65536 ∧
      m'.registers.v[(15 : Fin 16)] =
        (if s.config.dialect.flagIndexOverflow then if 0xFFF < sum then 1 else 0
        else m.registers.v[(15 : Fin 16)]) ∧
      ∀ k : Fin 16, k ≠ 15 → m'.registers.v[k] = m.registers.v[k] := by
  intro sum m'
  obtain ⟨w, hfetch, ⟨hfamily, hkk⟩, rfl⟩ := h
  have hform : Form.ofWord w = .addIndex := by simp only [Form.ofWord, hfamily, hkk]
  have hregisters : m'.registers =
      (m.registers.setPc (m.registers.pc + 2)).addIndex s.config.dialect.flagIndexOverflow w.x :=
    hfetch.step_registers (by simp only [execute, Instruction.decode, hform]; rfl)
  rw [hregisters]
  exact ⟨⟨_, hfetch.result (by simp [hform]) (by simp [hform])⟩,
    Registers.toNat_i_addIndex _ _ _, Registers.v_addIndex_flag _ _ _,
    fun k hk => Registers.v_addIndex_of_ne _ _ _ hk⟩

/-- The index points to the glyph of a digit, and memory stays as it is. -/
theorem Executes.glyph (h : m.Executes x 0x29) (s : Setup) :
    (∃ ins, (m.step s).result = .ok ins) ∧
      (m.step s).machine.registers.i.toNat = 0x50 + 5 * (m.registers.v[x].toNat % 16) ∧
      (m.step s).machine.memory = m.memory := by
  obtain ⟨w, hfetch, ⟨hfamily, hkk⟩, rfl⟩ := h
  have hform : Form.ofWord w = .glyph := by simp only [Form.ofWord, hfamily, hkk]
  have hregisters : (m.step s).machine.registers = (m.registers.setPc (m.registers.pc + 2)).setIndex
      (Font.glyphAddress (m.registers.v[w.x].toNat % 16)) :=
    hfetch.step_registers (by simp only [execute, Instruction.decode, hform]; rfl)
  refine ⟨⟨_, hfetch.result (by simp [hform]) (by simp [hform])⟩, ?_, ?_⟩
  · rw [hregisters, Registers.toNat_i_setIndex, Font.glyphAddress]
    simp only [Font.address, Font.glyphSize]
    omega
  · rw [hfetch.memory, bytesStored_of_ne (by simp [hform]) (by simp [hform])]
    rfl

/-! ### The font in memory -/

/-- The cells of the font. -/
abbrev InFont (c : Fin Memory.standardSize) : Prop :=
  0x50 ≤ c.val ∧ c.val ≤ 0x9F

/-- No step of a run stores anything in a cell of the font. -/
def SparesFont (s : Setup) (m : Machine) (ops : List Operation) : Prop :=
  ∀ before after, ops = before ++ .act .step :: after →
    ∀ c, InFont c → ∀ b, ¬(m.performAll s before).Stores c b

theorem sparesFont_cons {op : Operation} :
    m.SparesFont s (op :: ops) ↔
      (op = .act .step → ∀ c, InFont c → ∀ b, ¬m.Stores c b) ∧
        (m.perform s op).SparesFont s ops := by
  constructor
  · intro h
    exact ⟨fun hop => h [] ops (by rw [hop, List.nil_append]),
      fun before after hops => h (op :: before) after (by rw [hops, List.cons_append])⟩
  · rintro ⟨hfirst, hrest⟩ before after hops
    cases before with
    | nil => exact hfirst (List.cons.inj hops).1
    | cons op' before =>
      obtain ⟨rfl, rfl⟩ := List.cons.inj hops
      exact hrest before after rfl

/-- The font is in memory, and the stored program would fit above it. -/
structure Furnished (c : Config) (m : Machine) : Prop where
  fits : m.Fits c
  font : ∀ k < 80, m.memory.cells[0x50 + k]? = Font.glyphs[k]?

theorem furnished_reset {c : Config} (h : m.Fits c) : (m.reset c).Furnished c :=
  ⟨h, (loaded_reset h).memory.font⟩

theorem furnished_of_load {c : Config} {image : Image} {start : Machine}
    (h : m.load c image = .ok start) : start.Furnished c := by
  obtain ⟨program, hcheck, rfl⟩ := load_eq_ok_iff.1 h
  exact furnished_reset (length_of_check hcheck)

/-- What a host does leaves the font in memory, unless a step stores something in it. -/
theorem Furnished.perform (h : m.Furnished s.config) (op : Operation)
    (hspares : op = .act .step → ∀ c, InFont c → ∀ b, ¬m.Stores c b) :
    (m.perform s op).Furnished s.config := by
  cases op with
  | load image =>
    simp only [Machine.perform]
    split
    · exact furnished_of_load ‹_›
    · exact h
  | reset => exact furnished_reset h.fits
  | act a =>
    refine ⟨h.fits.perform (.act a), fun k hk => ?_⟩
    -- Of what is left, only a step stores anything.
    by_cases hstep : a = .step
    · subst hstep
      have hcell : 0x50 + k < Memory.standardSize := by
        rw [Memory.standardSize]
        omega
      have hin : 0x50 ≤ 0x50 + k ∧ 0x50 + k ≤ 0x9F := by omega
      have hkept : (m.step s).machine.memory.cells[0x50 + k] = m.memory.cells[0x50 + k] :=
        step_of_not_stores (hspares rfl ⟨0x50 + k, hcell⟩ hin)
      rw [← h.font k hk, Machine.perform, act, Vector.getElem?_eq_getElem hcell,
        Vector.getElem?_eq_getElem hcell, hkept]
    · rw [Machine.perform, act_memory_of_ne hstep]
      exact h.font k hk

theorem Furnished.performAll (h : m.Furnished s.config) (hspares : m.SparesFont s ops) :
    (m.performAll s ops).Furnished s.config := by
  induction ops generalizing m with
  | nil => exact h
  | cons op ops ih =>
    obtain ⟨hfirst, hrest⟩ := sparesFont_cons.1 hspares
    exact ih (h.perform op hfirst) hrest

/-- The index register and the font. From any machine, `Fx1E` moves the index by `Vx`,
    modulo its width, and leaves the flag alone unless the dialect has it tell whether the
    sum, before it is reduced, is past the end of memory; no other register changes, and
    the operands are those before the step. After loading any program, and any run that
    spares the font, `Fx29` points the index to five cells of memory that hold the glyph of
    the low digit of `Vx`. -/
theorem index_and_font (s : Setup) (m : Machine) (x : Fin 16) :
    let m' := (m.step s).machine
    (m.Executes x 0x1E →
      let sum := m.registers.i.toNat + m.registers.v[x].toNat
      (∃ ins, (m.step s).result = .ok ins) ∧ m'.registers.i.toNat = sum % 65536 ∧
        m'.registers.v[(15 : Fin 16)] =
          (if s.config.dialect.flagIndexOverflow then if 0xFFF < sum then 1 else 0
          else m.registers.v[(15 : Fin 16)]) ∧
        ∀ k : Fin 16, k ≠ 15 → m'.registers.v[k] = m.registers.v[k]) ∧
      ∀ old image start ops, load s.config old image = .ok start → start.SparesFont s ops →
        m = start.performAll s ops → m.Executes x 0x29 →
          (∃ ins, (m.step s).result = .ok ins) ∧ m'.registers.i.toNat + 4 ≤ 0xFFF ∧
            ∀ k < 5, m'.memory.cells[m'.registers.i.toNat + k]? =
              (Font.glyph (m.registers.v[x].toNat % 16))[k]? := by
  intro m'
  refine ⟨fun h => h.addIndex s, fun old image start ops hload hspares hm h => ?_⟩
  -- What was loaded is furnished, so that the machine about to step is; the step keeps memory.
  have hfont : m.Furnished s.config := hm ▸ (furnished_of_load hload).performAll hspares
  obtain ⟨hresult, hindex, hmemory⟩ := h.glyph s
  have hindex : m'.registers.i.toNat = 0x50 + 5 * (m.registers.v[x].toNat % 16) := hindex
  have hmemory : m'.memory = m.memory := hmemory
  refine ⟨hresult, by omega, fun k hk => ?_⟩
  rw [hindex, hmemory, Font.getElem?_glyph hk, Nat.add_assoc]
  exact hfont.font _ (by omega)

/-- A setup whose dialect flags an index past the end of memory. -/
def flaggingSetup : Setup :=
  { standardSetup with config := { dialect := { flagIndexOverflow := true } } }

/-- A machine about to move the index by `VF`, past the last number it can hold. -/
def aboutToPassEnd : Machine :=
  { powerOn {} with
    memory := (Memory.blank _).putAll 0x200 [0xFF, 0x1E]
    registers := ⟨Vector.replicate 16 2, 0xFFFF, 0x200⟩ }

/-- A program that stores `V0` and `V1` away from the font, and points the index to the
    glyph of `0xAB`. -/
def pointing : List UInt8 := [0xA3, 0x00, 0x60, 0xAB, 0xF1, 0x55, 0xF0, 0x29]

/-- The machine with that program. -/
def pointingMachine : Machine :=
  { powerOn flaggingSetup.config with program := pointing }.reset flaggingSetup.config

/-- What happens to it before it points there. -/
def untilGlyph : List Operation :=
  [.reset, .act .step, .act .step, .act .tick, .act .step]

/-- The machine about to do so. -/
def aboutToPoint : Machine := pointingMachine.performAll flaggingSetup untilGlyph

/-- A step spares the font if no byte that it stores falls on a cell of it. -/
theorem sparesFont_step (h : m.Fetches w ∧ ∀ k < (m.bytesStored w).length,
      ¬InFont (Memory.cell Memory.standardSize (m.registers.i.toNat + k)))
    (hrest : (m.perform s (.act .step)).SparesFont s ops) :
    m.SparesFont s (.act .step :: ops) := by
  refine sparesFont_cons.2 ⟨fun _ c hc b hstores => ?_, hrest⟩
  obtain ⟨k, hk, hcell, -⟩ := (stores_iff h.1).1 hstores
  exact h.2 k hk (hcell ▸ hc)

theorem sparesFont_untilGlyph : pointingMachine.SparesFont flaggingSetup untilGlyph := by
  refine sparesFont_cons.2 ⟨nofun, sparesFont_step (w := 0xA300) (by decide +kernel) ?_⟩
  refine sparesFont_step (w := 0x60AB) (by decide +kernel) (sparesFont_cons.2 ⟨nofun, ?_⟩)
  refine sparesFont_step (w := 0xF155) (by decide +kernel) ?_
  intro before after h
  simp at h

/-- The index starts again from the beginning with its flag set, and the glyph of `B` is
    where it points to. -/
theorem index_and_font_pointing :
    (aboutToPassEnd.Executes 15 0x1E ∧
      (aboutToPassEnd.step flaggingSetup).machine.registers.i.toNat = 1 ∧
      (aboutToPassEnd.step flaggingSetup).machine.registers.v[(15 : Fin 16)] = 1) ∧
    (load flaggingSetup.config (powerOn flaggingSetup.config) (.bytes pointing) =
        .ok pointingMachine ∧
      pointingMachine.SparesFont flaggingSetup untilGlyph ∧ aboutToPoint.Executes 0 0x29) ∧
    let last := (aboutToPoint.step flaggingSetup).machine
    ∀ k < 5, last.memory.cells[last.registers.i.toNat + k]? =
      [0xE0, 0x90, 0xE0, 0x90, 0xE0][k]? := by
  have hadd : aboutToPassEnd.Executes 15 0x1E :=
    ⟨0xFF1E, ⟨rfl, by decide, by decide +kernel⟩, by decide, by decide⟩
  obtain ⟨-, hindex, hflag, -⟩ := (index_and_font flaggingSetup aboutToPassEnd 15).1 hadd
  have hload : load flaggingSetup.config (powerOn flaggingSetup.config) (.bytes pointing) =
      .ok pointingMachine :=
    load_eq_ok_iff.2 ⟨pointing, rfl, rfl⟩
  have hfacts : aboutToPoint.Fetches 0xF029 ∧
      Font.glyph (aboutToPoint.registers.v[(0 : Fin 16)].toNat % 16) =
        [0xE0, 0x90, 0xE0, 0x90, 0xE0] := by
    decide +kernel
  have hpoint : aboutToPoint.Executes 0 0x29 := ⟨0xF029, hfacts.1, by decide, by decide⟩
  obtain ⟨-, -, hglyph⟩ := (index_and_font flaggingSetup aboutToPoint 0).2 _ _ _ _ hload
    sparesFont_untilGlyph rfl hpoint
  rw [hfacts.2] at hglyph
  refine ⟨⟨hadd, ?_, ?_⟩, ⟨hload, sparesFont_untilGlyph, hpoint⟩, hglyph⟩
  · rw [hindex]
    decide
  · rw [hflag]
    decide

end Machine

end Chip8
