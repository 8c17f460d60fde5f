import Chip8.Proofs.Guarded.Run
import Chip8.Proofs.Memory

/-!
# What a program stores

Two instructions store bytes in memory, from the index register on and round the
end: `Fx33` the decimal digits of `Vx`, `Fx55` the registers from `V0` to `Vx`.
Nothing else that happens while a program runs touches memory, so that its cells
are told by these stores alone, whatever code they hit.

* `Stores`: a step stores a byte in a cell;
* `Fetches.memory`: memory after a step;
* `StoredLast`, `Untouched`: the last store of a run in a cell, or that there is
  none;
* `actAll_memory`: a cell holds what was stored there last;
* `memory_of_run`: so it does from loading a program on.
-/

namespace Chip8.Machine

variable {s : Setup} {m : Machine} {w : Word} {c : Fin Memory.standardSize} {b : UInt8}

/-! ### A step -/

/-- The next step stores the byte `b` in the cell `c`. -/
inductive Stores (m : Machine) (c : Fin Memory.standardSize) : UInt8 → Prop
  /-- One of the three decimal digits of `Vx`, the most significant one first. -/
  | digit (w : Word) (fetches : m.Fetches w) (form : w.family = 0xF ∧ w.kk.toNat = 0x33)
      (d₀ d₁ d₂ : UInt8) (decimal : d₀.toNat ≤ 9 ∧ d₁.toNat ≤ 9 ∧ d₂.toNat ≤ 9)
      (value : 100 * d₀.toNat + 10 * d₁.toNat + d₂.toNat = m.registers.v[w.x].toNat)
      (k : Fin 3) (cell : c.val = (m.registers.i.toNat + k) % 4096) :
      Stores m c ([d₀, d₁, d₂].get k)
  /-- One of the registers `V0` to `Vx`. -/
  | register (w : Word) (fetches : m.Fetches w) (form : w.family = 0xF ∧ w.kk.toNat = 0x55)
      (k : Fin 16) (le : k ≤ w.x) (cell : c.val = (m.registers.i.toNat + k) % 4096) :
      Stores m c m.registers.v[k]

/-- The bytes that an instruction stores from the index register on. -/
def bytesStored (m : Machine) (w : Word) : List UInt8 :=
  match Form.ofWord w with
  | .decimal => decimalDigits m.registers.v[w.x]
  | .store => m.registers.upTo w.x
  | _ => []

theorem bytesStored_of_ne (hdecimal : Form.ofWord w ≠ .decimal) (hstore : Form.ofWord w ≠ .store) :
    m.bytesStored w = [] := by
  unfold bytesStored
  split
  · exact absurd ‹_› hdecimal
  · exact absurd ‹_› hstore
  · rfl

theorem length_bytesStored_le : (m.bytesStored w).length ≤ 16 := by
  unfold bytesStored
  split
  · exact (by decide : 3 ≤ 16)
  · rw [Registers.length_upTo]
    exact w.x.isLt
  · exact Nat.zero_le _

theorem execute_memory {e : Effect} (h : m.execute s (.decode w) = .ok e) :
    e.machine.memory = m.memory.putAll m.registers.i.toNat (m.bytesStored w) := by
  by_cases hdecimal : Form.ofWord w = .decimal
  · simp only [execute, Instruction.decode, hdecimal] at h
    cases h
    simp only [storeAtIndex, bytesStored, hdecimal]
  · by_cases hstore : Form.ofWord w = .store
    · simp only [execute, Instruction.decode, hstore] at h
      cases h
      simp only [storeRegisters, storeAtIndex, bytesStored, hstore]
    · rw [bytesStored_of_ne hdecimal hstore]
      exact (execute_frame h).memory hdecimal hstore

/-- Memory after a step. A call or a return that is refused stores nothing. -/
theorem Fetches.memory (h : m.Fetches w) :
    (m.step s).machine.memory = m.memory.putAll m.registers.i.toNat (m.bytesStored w) := by
  cases he : (m.fetched w).execute s (.decode w) with
  | ok e => exact (congrArg Machine.memory (h.step he).1).trans (execute_memory he :)
  | error cause =>
    have hword := nextWord?_eq_some_iff.2 ⟨h.range, h.word⟩
    have hnothing : m.bytesStored w = [] := by
      rcases execute_eq_error_iff.1 he with ⟨hform, -⟩ | ⟨hform, -⟩ <;>
        simp only [Instruction.decode] at hform <;>
        exact bytesStored_of_ne (by simp [hform]) (by simp [hform])
    rw [(step_of_refusal h.running hword he).1, hnothing]
    rfl

theorem decimalDigits_eq {v d₀ d₁ d₂ : UInt8}
    (decimal : d₀.toNat ≤ 9 ∧ d₁.toNat ≤ 9 ∧ d₂.toNat ≤ 9)
    (value : 100 * d₀.toNat + 10 * d₁.toNat + d₂.toNat = v.toNat) :
    decimalDigits v = [d₀, d₁, d₂] := by
  have hundreds : v / 100 = d₀ := by
    rw [← UInt8.toNat_inj, UInt8.toNat_div]
    exact (by omega : v.toNat / 100 = d₀.toNat)
  have tens : v / 10 % 10 = d₁ := by
    rw [← UInt8.toNat_inj, UInt8.toNat_mod, UInt8.toNat_div]
    exact (by omega : v.toNat / 10 % 10 = d₁.toNat)
  have ones : v % 10 = d₂ := by
    rw [← UInt8.toNat_inj, UInt8.toNat_mod]
    exact (by omega : v.toNat % 10 = d₂.toNat)
  rw [decimalDigits, hundreds, tens, ones]

/-- The digits of a byte are decimal, and make it up. -/
theorem exists_decimalDigits (v : UInt8) : ∃ d₀ d₁ d₂ : UInt8, decimalDigits v = [d₀, d₁, d₂] ∧
    (d₀.toNat ≤ 9 ∧ d₁.toNat ≤ 9 ∧ d₂.toNat ≤ 9) ∧
      100 * d₀.toNat + 10 * d₁.toNat + d₂.toNat = v.toNat := by
  have hundreds : (v / 100).toNat = v.toNat / 100 := UInt8.toNat_div v 100
  have tens : (v / 10 % 10).toNat = v.toNat / 10 % 10 := by
    rw [UInt8.toNat_mod, UInt8.toNat_div]
    rfl
  have ones : (v % 10).toNat = v.toNat % 10 := UInt8.toNat_mod v 10
  have := v.toNat_lt
  exact ⟨_, _, _, rfl, by omega, by omega⟩

theorem cell_index_iff {i : UInt16} {k : Nat} :
    Memory.cell Memory.standardSize (i.toNat + k) = c ↔ c.val = (i.toNat + k) % 4096 := by
  rw [Memory.cell_eq_iff]
  simp only [Memory.standardSize]
  omega

/-- What is stored, byte by byte. -/
theorem stores_iff (h : m.Fetches w) :
    m.Stores c b ↔ ∃ (k : Nat) (hk : k < (m.bytesStored w).length),
      Memory.cell Memory.standardSize (m.registers.i.toNat + k) = c ∧ (m.bytesStored w)[k] = b := by
  constructor
  · intro hstores
    cases hstores with
    | digit w' fetches form d₀ d₁ d₂ decimal value k cell =>
      obtain rfl : w' = w := fetches.word.symm.trans h.word
      have hbytes : m.bytesStored w' = [d₀, d₁, d₂] := by
        rw [bytesStored, Form.ofWord_eq_decimal_iff.2 form]
        exact decimalDigits_eq decimal value
      simp only [hbytes]
      exact ⟨k, k.isLt, cell_index_iff.2 cell, rfl⟩
    | register w' fetches form k le cell =>
      obtain rfl : w' = w := fetches.word.symm.trans h.word
      have hbytes : m.bytesStored w' = m.registers.upTo w'.x := by
        rw [bytesStored, Form.ofWord_eq_store_iff.2 form]
      simp only [hbytes]
      have hlength : k.val < (m.registers.upTo w'.x).length := by
        rw [Registers.length_upTo]
        exact Nat.lt_succ_of_le le
      exact ⟨k, hlength, cell_index_iff.2 cell, Registers.getElem_upTo _ _ k hlength⟩
  · rintro ⟨k, hk, hcell, rfl⟩
    have hcell := cell_index_iff.1 hcell
    by_cases hdecimal : Form.ofWord w = .decimal
    · obtain ⟨d₀, d₁, d₂, hdigits, decimal, value⟩ := exists_decimalDigits m.registers.v[w.x]
      have hbytes : m.bytesStored w = [d₀, d₁, d₂] := by
        rw [bytesStored, hdecimal]
        exact hdigits
      simp only [hbytes] at hk ⊢
      exact .digit w h (Form.ofWord_eq_decimal_iff.1 hdecimal) d₀ d₁ d₂ decimal value ⟨k, hk⟩ hcell
    · by_cases hstore : Form.ofWord w = .store
      · have hbytes : m.bytesStored w = m.registers.upTo w.x := by
          rw [bytesStored, hstore]
        simp only [hbytes] at hk ⊢
        have hle : k ≤ w.x.val := by
          rw [Registers.length_upTo] at hk
          omega
        rw [Registers.getElem_upTo _ _ ⟨k, by omega⟩ hk]
        exact .register w h (Form.ofWord_eq_store_iff.1 hstore) ⟨k, by omega⟩ hle hcell
      · rw [bytesStored_of_ne hdecimal hstore] at hk
        exact absurd hk (Nat.not_lt_zero k)

theorem Stores.fetches (h : m.Stores c b) : ∃ w, m.Fetches w := by
  cases h with
  | digit w fetches => exact ⟨w, fetches⟩
  | register w fetches => exact ⟨w, fetches⟩

/-- A byte that a step stores is in its cell afterwards. -/
theorem Stores.step (h : m.Stores c b) (s : Setup) : (m.step s).machine.memory.cells[c] = b := by
  obtain ⟨w, hfetch⟩ := h.fetches
  obtain ⟨k, hk, hcell, rfl⟩ := (stores_iff hfetch).1 h
  rw [hfetch.memory]
  exact Memory.getElem_putAll _ _ (length_bytesStored_le.trans (by decide)) hk hcell

/-- A cell in which a step stores nothing keeps its byte. -/
theorem step_of_not_stores (h : ∀ b, ¬m.Stores c b) :
    (m.step s).machine.memory.cells[c] = m.memory.cells[c] := by
  cases stepCase s m with
  | halted f fault machine => rw [machine]
  | outside running range machine => rw [machine]
  | refused w cause running range word refusal machine => rw [machine]; rfl
  | executed w e running range word effect machine =>
    have hfetch : m.Fetches w := ⟨running, range, word⟩
    rw [hfetch.memory]
    exact Memory.getElem_putAll_of_ne _ _ fun k hk hcell =>
      h _ ((stores_iff hfetch).2 ⟨k, hk, hcell, rfl⟩)

/-! ### A run -/

/-- No step of a run stores anything in the cell `c`. -/
def Untouched (s : Setup) (m : Machine) (as : List Action) (c : Fin Memory.standardSize) : Prop :=
  ∀ before after, as = before ++ .step :: after → ∀ b, ¬(m.actAll s before).Stores c b

/-- A step of a run stores the byte `b` in the cell `c`, and no later one stores
    anything there. -/
def StoredLast (s : Setup) (m : Machine) (as : List Action) (c : Fin Memory.standardSize)
    (b : UInt8) : Prop :=
  ∃ before after, as = before ++ .step :: after ∧ (m.actAll s before).Stores c b ∧
    ((m.actAll s before).step s).machine.Untouched s after c

theorem Untouched.cons {a : Action} {as : List Action} (hfirst : a = .step → ∀ b, ¬m.Stores c b)
    (hrest : (m.act s a).Untouched s as c) : m.Untouched s (a :: as) c := by
  intro before after e
  cases before with
  | nil => exact hfirst (List.cons.inj e).1
  | cons a' before =>
    obtain ⟨rfl, rfl⟩ := List.cons.inj e
    exact hrest before after rfl

theorem StoredLast.cons {as : List Action} (a : Action) (h : (m.act s a).StoredLast s as c b) :
    m.StoredLast s (a :: as) c b := by
  obtain ⟨before, after, rfl, hstores, huntouched⟩ := h
  exact ⟨a :: before, after, rfl, hstores, huntouched⟩

theorem act_memory_of_ne {a : Action} (h : a ≠ .step) : (m.act s a).memory = m.memory := by
  cases a with
  | step => exact absurd rfl h
  | tick => rfl
  | setKey k pressed => rw [act_setKey]

/-- A cell holds the byte that a run stored there last, and its first byte if
    there is none. -/
theorem actAll_memory (s : Setup) (m : Machine) (as : List Action)
    (c : Fin Memory.standardSize) :
    m.StoredLast s as c (m.actAll s as).memory.cells[c] ∨
      (m.Untouched s as c ∧ (m.actAll s as).memory.cells[c] = m.memory.cells[c]) := by
  induction as generalizing m with
  | nil => exact .inr ⟨fun before after e => by simp at e, rfl⟩
  | cons a as ih =>
    rcases ih (m.act s a) with hlast | ⟨huntouched, hcell⟩
    · exact .inl (hlast.cons a)
    · -- No later store: the first action decides.
      by_cases hstep : a = .step
      · subst hstep
        by_cases hstores : ∃ b, m.Stores c b
        · obtain ⟨b, hb⟩ := hstores
          have hnow : (m.actAll s (.step :: as)).memory.cells[c] = b := hcell.trans (hb.step s)
          rw [hnow]
          exact .inl ⟨[], as, rfl, hb, huntouched⟩
        · have hnone : ∀ b, ¬m.Stores c b := fun b hb => hstores ⟨b, hb⟩
          exact .inr ⟨.cons (fun _ => hnone) huntouched, hcell.trans (step_of_not_stores hnone)⟩
      · refine .inr ⟨.cons (fun h => absurd h hstep) huntouched, hcell.trans ?_⟩
        rw [act_memory_of_ne hstep]

/-! ### From loading a program on -/

/-- A program that is accepted is stored as it is. -/
theorem eq_of_check {content program : List UInt8} {loadOffset : Nat}
    (h : Program.check (.bytes content) loadOffset = .ok program) : content = program := by
  unfold Program.check at h
  split at h
  · cases h
  · cases h
  · split at h <;> cases h
    rename_i himage _
    exact Image.bytes.inj himage

/-- The byte that loading a program leaves at an address: the program's, the
    font's, or zero. -/
def loadedByte (loadOffset : Nat) (program : List UInt8) (a : Nat) : UInt8 :=
  if loadOffset ≤ a ∧ a < loadOffset + program.length then program.getD (a - loadOffset) 0
  else if Font.address ≤ a ∧ a < Font.address + Font.glyphs.length then
    Font.glyphs.getD (a - Font.address) 0
  else 0

theorem image_cells {loadOffset : Nat} {program : List UInt8}
    (h : loadOffset + program.length ≤ Memory.standardSize) :
    (image loadOffset program).cells[c] = loadedByte loadOffset program c := by
  have hblank : (Memory.blank Memory.standardSize).cells[c] = 0 := Vector.getElem_replicate _
  rw [image, Memory.getElem_putAll_of_le _ h, Memory.getElem_putAll_of_le _ (by decide), hblank]
  rfl

/-- Memory over a whole run. From loading a program on, and whatever the program
    and the host do, a cell holds the byte that a step stored there last; as long
    as there is none, it holds what loading left there. -/
theorem memory_of_run (s : Setup) {start : Machine} {program : List UInt8}
    (hload : m.load s.config (.bytes program) = .ok start) (as : List Action)
    (c : Fin Memory.standardSize) :
    start.StoredLast s as c (start.actAll s as).memory.cells[c] ∨
      (start.Untouched s as c ∧
        (start.actAll s as).memory.cells[c] = loadedByte s.config.loadOffset program c) := by
  obtain ⟨accepted, hcheck, hstart⟩ := load_eq_ok_iff.1 hload
  obtain rfl := eq_of_check hcheck
  have hcell : start.memory.cells[c] = loadedByte s.config.loadOffset program c := by
    rw [hstart]
    exact image_cells (length_of_check hcheck)
  rw [← hcell]
  exact actAll_memory s start as c

/-- A program that stores the digits of 254 across the end of memory. -/
def seamProgram : List UInt8 := [0x60, 0xFE, 0xAF, 0xFF, 0xF0, 0x33]

/-- The machine with that program. -/
def seamMachine : Machine :=
  { powerOn {} with program := seamProgram }.reset {}

/-- What happens to it. -/
def seamRun : List Action := [.step, .tick, .step, .setKey 3 true, .step]

/-- The middle digit lands on the first cell. -/
theorem memory_of_run_seamMachine :
    (powerOn {}).load standardSetup.config (.bytes seamProgram) = .ok seamMachine ∧
      seamMachine.StoredLast standardSetup seamRun 0 5 := by
  have hload : (powerOn {}).load standardSetup.config (.bytes seamProgram) = .ok seamMachine :=
    load_eq_ok_iff.2 ⟨seamProgram, rfl, rfl⟩
  have hnow : (seamMachine.actAll standardSetup seamRun).memory.cells[(0 : Fin 4096)] = 5 := by
    decide +kernel
  have h := memory_of_run standardSetup hload seamRun 0
  rw [hnow] at h
  rcases h with hlast | ⟨-, hfirst⟩
  · exact ⟨hload, hlast⟩
  · exact absurd hfirst (by decide)

end Chip8.Machine
