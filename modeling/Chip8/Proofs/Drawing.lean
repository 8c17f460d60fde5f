import Chip8.Proofs.Execution
import Chip8.Proofs.Sprite

/-!
# Drawing a sprite from memory

`Dxyn` draws the `n` bytes from the index register on, with their corner at the
pixel that `Vx` and `Vy` name. The flag register tells collisions, and may name
the corner as well: it is read before the sprite is drawn and written after it
(`step_draw`).
-/

namespace Chip8.Machine

open Display

variable {s : Setup} {m : Machine} {w : Word}

/-- A bit of the sprite that the index register points to, the leftmost column
    being the high bit. The rows wrap round memory. -/
def spriteBit (m : Machine) (row column : Nat) : Bool :=
  (m.memory.cells.get ⟨(m.registers.i.toNat + row) % 4096, Nat.mod_lt _ (by decide)⟩).toNat.testBit
    (7 - column)

/-- The pixels that the sprite of a drawing instruction covers. -/
def drawn (d : Dialect) (m : Machine) (w : Word) (px : Fin standardWidth)
    (py : Fin standardHeight) : Bool :=
  covers d.edges (m.registers.v[w.x].toNat % 64 : Nat) (m.registers.v[w.y].toNat % 32 : Nat) w.n
    m.spriteBit px py

/-- The rows that an instruction draws. -/
def spriteRows (m : Machine) (n : Nat) : List Int :=
  (m.memory.fetchAll m.registers.i.toNat n).map fun b => Int.ofNat b.toNat

theorem length_spriteRows (n : Nat) : (m.spriteRows n).length = n := by
  simp [spriteRows, Memory.fetchAll]

theorem fetch_natCast (memory : Memory Memory.standardSize) (a : Nat) :
    memory.fetch a = memory.cells.get ⟨a % 4096, Nat.mod_lt _ (by decide)⟩ := rfl

theorem rowBit_toNat (b : UInt8) (column : Nat) :
    rowBit (Int.ofNat b.toNat) column = b.toNat.testBit (7 - column) := by
  have hbyte : (Int.ofNat b.toNat % 256).toNat = b.toNat := by
    have := b.toNat_lt
    rw [Int.ofNat_eq_natCast]
    omega
  rw [rowBit, hbyte, Nat.testBit_eq_decide_div_mod_eq]
  rfl

theorem rowBit_eq_spriteBit {n r : Nat} {row : Int} (h : (m.spriteRows n)[r]? = some row)
    (column : Nat) : rowBit row column = m.spriteBit r column := by
  simp only [spriteRows, Memory.fetchAll, List.map_map, List.getElem?_map,
    Option.map_eq_some_iff, Function.comp_apply] at h
  obtain ⟨k, hk, rfl⟩ := h
  obtain ⟨_, rfl⟩ := List.getElem?_eq_some_iff.1 hk
  rw [rowBit_toNat, spriteBit, ← fetch_natCast, List.getElem_range]
  rfl

/-- Drawing a sprite, exactly: every pixel is flipped if the sprite covers it,
    the flag tells whether a covered pixel was lit, and nothing else of the
    registers or of memory changes. -/
theorem step_draw (hrun : m.fault = none)
    (hpc : 0 ≤ m.registers.pc ∧ m.registers.pc ≤ 0xFFE) (hw : m.wordAt m.registers.pc = w)
    (hform : w.family = 0xD) :
    let m' := (m.step s).machine
    let drawn := m.drawn s.config.dialect w
    (m.step s).result = .ok (.decode w) ∧
      (∀ px py, m'.display.lit px py = (m.display.lit px py ^^ drawn px py)) ∧
      m'.registers.v[15] =
        (if ∃ px py, drawn px py = true ∧ m.display.lit px py = true then 1 else 0) ∧
      (∀ k : Fin 16, k ≠ 15 → m'.registers.v[k] = m.registers.v[k]) ∧
      m'.registers.i = m.registers.i ∧ m'.memory = m.memory := by
  intro m' drawn
  let d := s.config.dialect
  let drawing := m.display.draw d.edges m.registers.v[w.x].toNat m.registers.v[w.y].toNat
    (m.spriteRows w.n)
  have hn : (m.spriteRows w.n).length ≤ standardHeight := by
    have : w.n < 16 := Nat.mod_lt _ (by decide)
    rw [length_spriteRows, standardHeight]
    omega
  have hbit : ∀ r row, (m.spriteRows w.n)[r]? = some row → ∀ c < 8, m.spriteBit r c = rowBit row c :=
    fun r row h c _ => (rowBit_eq_spriteBit h c).symm
  obtain ⟨hm, hr⟩ := step_of_execute (s := s) (e := drawSprite d (m.fetched w) w.x w.y w.n) hrun
    (nextWord?_eq_some_iff.2 ⟨hpc, hw⟩)
    (by simp only [execute, Instruction.decode, Form.ofWord_eq_draw_iff.2 hform, d])
  -- The corner is read from the registers as they were; the flag comes last.
  have hdisplay : m'.display = drawing.display := congrArg display hm
  have hregisters :
      m'.registers = (m.registers.setPc (m.registers.pc + 2)).setFlag drawing.collided :=
    congrArg registers hm
  refine ⟨hr, fun px py => ?_, ?_, fun k hk => ?_, ?_, (congrArg memory hm :)⟩
  · rw [hdisplay, lit_draw _ _ _ m.display (by decide) hn hbit, length_spriteRows]
    rfl
  · have hcollided := collided_draw d.edges m.registers.v[w.x].toNat
      m.registers.v[w.y].toNat m.display (by decide) hn (by decide) hbit
    rw [length_spriteRows] at hcollided
    rw [hregisters]
    exact (Registers.v_setFlag_flag _ _).trans (if_congr hcollided rfl rfl)
  · rw [hregisters, Registers.v_setFlag_of_ne _ _ hk, Registers.v_setPc]
  · rw [hregisters, Registers.i_setFlag, Registers.i_setPc]

/-- A machine about to draw two rows of two pixels at its last pixel, the
    corner opposite being lit. The second row is the first byte of memory. -/
def cornerMachine : Machine :=
  { powerOn {} with
    memory := ((Memory.blank _).putAll 0x200 [0xDF, 0xF2]).putAll 0xFFF [0xC0, 0xC0]
    registers := ⟨Vector.replicate 16 0xFF, 0xFFFF, 0x200⟩
    display := ⟨(Display.dark _ _ false).cells.set 0 true, false⟩ }

/-- The sprite wraps round both edges, and puts out the corner opposite. -/
theorem step_draw_cornerMachine :
    cornerMachine.fault = none ∧
      (0 ≤ cornerMachine.registers.pc ∧ cornerMachine.registers.pc ≤ 0xFFE) ∧
      cornerMachine.wordAt cornerMachine.registers.pc = 0xDFF2 ∧ (0xDFF2 : Word).family = 0xD ∧
      (cornerMachine.step standardSetup).machine.display.lit 63 31 = true ∧
      (cornerMachine.step standardSetup).machine.display.lit 0 0 = false ∧
      (cornerMachine.step standardSetup).machine.registers.v[15] = 1 := by
  have hpc : 0 ≤ cornerMachine.registers.pc ∧ cornerMachine.registers.pc ≤ 0xFFE := by decide
  have hw : cornerMachine.wordAt cornerMachine.registers.pc = 0xDFF2 := by decide +kernel
  obtain ⟨-, hlit, hflag, -⟩ := step_draw (s := standardSetup) rfl hpc hw (by decide)
  refine ⟨rfl, hpc, hw, by decide, ?_, ?_, ?_⟩
  · rw [hlit]
    decide +kernel
  · rw [hlit]
    decide +kernel
  · rw [hflag, if_pos ⟨0, 0, by decide +kernel⟩]

end Chip8.Machine
