import Chip8.Proofs.Footprint
import Chip8.Proofs.Storing

/-!
# Storing and loading registers

`Fx55` stores the registers from `V0` to `Vx` from the index register on, and `Fx65`
loads them from there. Both capture the index before they move it, and address cells
modulo the size of memory, so that each is the inverse of the other wherever the
index points to: at cells on both sides of the end of memory, or far beyond it. In
between, the program may run on, as long as it stores nothing.

* `Executes`: the next step executes `Fxkk`;
* `Executes.store`, `Executes.load`: what the two do to memory and registers, and
  `Executes.index` to the index register;
* `StoresNothing.memory`: memory after a run that stores nothing;
* `store_load_inverse`: storing and loading are inverse.
-/

namespace Chip8.Machine

variable {s : Setup} {m : Machine} {w : Word} {x : Fin 16} {as : List Action}

/-- The next step executes `Fxkk`. -/
def Executes (m : Machine) (x : Fin 16) (kk : Nat) : Prop :=
  ∃ w, m.Fetches w ∧ (w.family = 0xF ∧ w.kk.toNat = kk) ∧ w.x = x

/-- No step of a run stores anything in memory. -/
def StoresNothing (s : Setup) (m : Machine) (as : List Action) : Prop :=
  ∀ found, (found, .step) ∈ m.moments s as →
    ∀ x, ¬found.Executes x 0x33 ∧ ¬found.Executes x 0x55

/-! ### A step -/

theorem toNat_i_advanced (d : Dialect) (r : Registers) (count : Nat) :
    (advanced d r count).i.toNat =
      if d.advanceIndex then (r.i.toNat + count) % 65536 else r.i.toNat := by
  unfold advanced
  split
  · exact r.toNat_i_setIndex _
  · rfl

/-- The registers after storing some of them. -/
theorem Fetches.registers_store (h : m.Fetches w) (hform : Form.ofWord w = .store) :
    (m.step s).machine.registers =
      advanced s.config.dialect (m.registers.setPc (m.registers.pc + 2)) (w.x + 1) := by
  have he : (m.fetched w).execute s (.decode w) =
      .ok (storeRegisters s.config.dialect (m.fetched w) w.x) := by
    simp only [execute, Instruction.decode, hform]
  exact congrArg Machine.registers (h.step he).1

/-- The registers after loading some of them. -/
theorem Fetches.registers_load (h : m.Fetches w) (hform : Form.ofWord w = .load) :
    (m.step s).machine.registers =
      advanced s.config.dialect ((m.registers.setPc (m.registers.pc + 2)).setFirst
        (m.memory.fetchAll m.registers.i.toNat (w.x + 1))) (w.x + 1) := by
  have he : (m.fetched w).execute s (.decode w) =
      .ok (loadRegisters s.config.dialect (m.fetched w) w.x) := by
    simp only [execute, Instruction.decode, hform]
  exact congrArg Machine.registers (h.step he).1

/-- Storing registers puts them into memory. -/
theorem Executes.store (h : m.Executes x 0x55) (s : Setup) :
    (m.step s).machine.memory = m.memory.putAll m.registers.i.toNat (m.registers.upTo x) := by
  obtain ⟨w, hfetch, hdigits, rfl⟩ := h
  rw [hfetch.memory, bytesStored, Form.ofWord_eq_store_iff.2 hdigits]

/-- Loading registers reads them from memory, and leaves it as it is. -/
theorem Executes.load (h : m.Executes x 0x65) (s : Setup) :
    (m.step s).machine.registers.upTo x = m.memory.fetchAll m.registers.i.toNat (x + 1) ∧
      (m.step s).machine.memory = m.memory := by
  obtain ⟨w, hfetch, hdigits, rfl⟩ := h
  have hform : Form.ofWord w = .load := Form.ofWord_eq_load_iff.2 hdigits
  constructor
  · rw [hfetch.registers_load hform, Registers.upTo, v_advanced]
    exact Registers.upTo_setFirst _ _ (Memory.length_fetchAll _ _ _)
  · rw [hfetch.memory, bytesStored_of_ne (by simp [hform]) (by simp [hform])]
    rfl

/-- Both are executed, and move the index past the registers in a dialect that does so. -/
theorem Executes.index (h : m.Executes x 0x55 ∨ m.Executes x 0x65) (s : Setup) :
    (∃ ins, (m.step s).result = .ok ins) ∧
      (m.step s).machine.registers.i.toNat =
        if s.config.dialect.advanceIndex then (m.registers.i.toNat + x + 1) % 65536
        else m.registers.i.toNat := by
  obtain ⟨w, hfetch, hdigits, rfl⟩ | ⟨w, hfetch, hdigits, rfl⟩ := h
  · have hform : Form.ofWord w = .store := Form.ofWord_eq_store_iff.2 hdigits
    refine ⟨⟨_, hfetch.result (by simp [hform]) (by simp [hform])⟩, ?_⟩
    rw [hfetch.registers_store hform, toNat_i_advanced]
    rfl
  · have hform : Form.ofWord w = .load := Form.ofWord_eq_load_iff.2 hdigits
    refine ⟨⟨_, hfetch.result (by simp [hform]) (by simp [hform])⟩, ?_⟩
    rw [hfetch.registers_load hform, toNat_i_advanced]
    rfl

/-! ### A run -/

theorem StoresNothing.not_stores (h : m.StoresNothing s as) {before after : List Action}
    (has : as = before ++ .step :: after) (c : Fin Memory.standardSize) (b : UInt8) :
    ¬(m.actAll s before).Stores c b := by
  have hmoment : (m.actAll s before, .step) ∈ m.moments s as := by
    rw [has, moments_append]
    exact List.mem_append_right _ List.mem_cons_self
  intro hstores
  cases hstores with
  | digit w fetches form => exact (h _ hmoment w.x).1 ⟨w, fetches, form, rfl⟩
  | register w fetches form => exact (h _ hmoment w.x).2 ⟨w, fetches, form, rfl⟩

/-- A run that stores nothing leaves memory as it is. -/
theorem StoresNothing.memory (h : m.StoresNothing s as) : (m.actAll s as).memory = m.memory := by
  have hcell (c : Fin Memory.standardSize) :
      (m.actAll s as).memory.cells[c] = m.memory.cells[c] := by
    rcases actAll_memory s m as c with ⟨before, after, has, hstores, -⟩ | ⟨-, hcell⟩
    · exact absurd hstores (h.not_stores has c _)
    · exact hcell
  exact congrArg Memory.mk (Vector.ext fun k hk => hcell ⟨k, hk⟩)

/-- Storing and loading registers are inverse, whatever the index is and whatever runs
    in between, if it stores nothing and the second index falls on the same cell as the
    first one. Loading what was stored gives the registers that were stored; storing what
    was loaded leaves memory as it is. Each moves the index past the registers, modulo
    its width, if the dialect does so, and leaves it otherwise. -/
theorem store_load_inverse (s : Setup) (m : Machine) (x : Fin 16) :
    let after := (m.step s).machine
    (∀ as, after.StoresNothing s as →
      let later := after.actAll s as
      let last := (later.step s).machine
      later.registers.i.toNat % 4096 = m.registers.i.toNat % 4096 →
        (m.Executes x 0x55 → later.Executes x 0x65 →
          ∀ k ≤ x, last.registers.v[k] = m.registers.v[k]) ∧
        (m.Executes x 0x65 → later.Executes x 0x55 →
          (∀ k ≤ x, later.registers.v[k] = after.registers.v[k]) →
            last.memory = later.memory)) ∧
      (m.Executes x 0x55 ∨ m.Executes x 0x65 →
        (∃ ins, (m.step s).result = .ok ins) ∧
          after.registers.i.toNat =
            if s.config.dialect.advanceIndex then (m.registers.i.toNat + x + 1) % 65536
            else m.registers.i.toNat) := by
  intro after
  refine ⟨fun as hnothing => ?_, fun h => Executes.index h s⟩
  intro later last hindex
  have hmemory : later.memory = after.memory := hnothing.memory
  have hcongruent : (later.registers.i.toNat : Int) % Memory.standardSize =
      (m.registers.i.toNat : Int) % Memory.standardSize := by
    simp only [Memory.standardSize]
    omega
  constructor
  · intro hstore hload
    have hlength : (m.registers.upTo x).length ≤ Memory.standardSize := by
      rw [Registers.length_upTo]
      exact le_trans x.isLt (by decide)
    rw [← Registers.upTo_eq_iff, (hload.load s).1, hmemory, hstore.store s,
      ← Registers.length_upTo m.registers x]
    exact Memory.fetchAll_putAll _ hlength hcongruent
  · intro hload hstore hkept
    have hregisters : later.registers.upTo x = after.registers.upTo x :=
      Registers.upTo_eq_iff.2 hkept
    obtain ⟨hloaded, hsame⟩ := hload.load s
    rw [hstore.store s, hregisters, hloaded, hmemory, hsame]
    exact Memory.putAll_fetchAll _ hcongruent _

/-- A step that fetches another word than `Fx33` and `Fx55` stores nothing. -/
theorem not_executes (hword : m.wordAt m.registers.pc = w)
    (h : w.kk.toNat ≠ 0x33 ∧ w.kk.toNat ≠ 0x55) (x : Fin 16) :
    ¬m.Executes x 0x33 ∧ ¬m.Executes x 0x55 := by
  constructor
  · rintro ⟨w', hfetch, ⟨-, hkk⟩, -⟩
    exact h.1 (hword ▸ hfetch.word ▸ hkk)
  · rintro ⟨w', hfetch, ⟨-, hkk⟩, -⟩
    exact h.2 (hword ▸ hfetch.word ▸ hkk)

/-- A program that stores `V0` to `V3` round the end of memory, changes `V0`, and loads
    and stores them again from there. -/
def roundTrip : List UInt8 :=
  [0xF3, 0x55, 0xAF, 0xFE, 0x60, 0x07, 0xF3, 0x65, 0xAF, 0xFE, 0xF3, 0x55]

/-- A setup whose dialect moves the index. -/
def advancingSetup : Setup :=
  { standardSetup with config := { dialect := { advanceIndex := true } } }

/-- The machine about to store, its index beyond the end of memory. -/
def aboutToStore : Machine :=
  { powerOn {} with
    memory := (Memory.blank _).putAll 0x200 roundTrip
    registers := ((Registers.blank 0x200).setFirst [1, 2, 3, 4]).setIndex 0x1FFE }

/-- What happens until it loads. -/
def untilLoad : List Action := [.step, .tick, .step, .setKey 3 true]

/-- The machine about to load. -/
def aboutToLoad : Machine :=
  (aboutToStore.step advancingSetup).machine.actAll advancingSetup untilLoad

/-- The machine about to store again. -/
def aboutToStoreAgain : Machine :=
  (aboutToLoad.step advancingSetup).machine.actAll advancingSetup [.step]

theorem executes_aboutToLoad : aboutToLoad.Executes 3 0x65 ∧
    aboutToLoad.registers.i.toNat = 0xFFE ∧ aboutToLoad.registers.v[(0 : Fin 16)] = 7 := by
  have hfacts : aboutToLoad.Fetches 0xF365 ∧
      aboutToLoad.registers.i.toNat = 0xFFE ∧ aboutToLoad.registers.v[(0 : Fin 16)] = 7 := by
    decide +kernel
  exact ⟨⟨0xF365, hfacts.1, by decide, by decide⟩, hfacts.2⟩

theorem executes_aboutToStoreAgain : aboutToStoreAgain.Executes 3 0x55 ∧
    aboutToStoreAgain.registers.i.toNat = 0xFFE ∧
      aboutToStoreAgain.registers.upTo 3 = aboutToStore.registers.upTo 3 := by
  have hfacts : aboutToStoreAgain.Fetches 0xF355 ∧
      aboutToStoreAgain.registers.i.toNat = 0xFFE ∧
        aboutToStoreAgain.registers.upTo 3 = aboutToStore.registers.upTo 3 := by
    decide +kernel
  exact ⟨⟨0xF355, hfacts.1, by decide, by decide⟩, hfacts.2⟩

theorem storesNothing_roundTrip :
    (aboutToStore.step advancingSetup).machine.StoresNothing advancingSetup untilLoad ∧
      (aboutToLoad.step advancingSetup).machine.StoresNothing advancingSetup [.step] := by
  constructor
  · intro found hfound
    simp only [untilLoad, moments, List.mem_cons, Prod.mk.injEq, reduceCtorEq, and_false,
      and_true, List.not_mem_nil, false_or, or_false] at hfound
    rcases hfound with hfound | hfound <;> rw [hfound]
    · exact not_executes (w := 0xAFFE) (by decide +kernel) (by decide)
    · exact not_executes (w := 0x6007) (by decide +kernel) (by decide)
  · intro found hfound
    simp only [moments, List.mem_cons, Prod.mk.injEq, and_true, List.not_mem_nil, or_false]
      at hfound
    rw [hfound]
    exact not_executes (w := 0xAFFE) (by decide +kernel) (by decide)

/-- All registers come back, and the second store changes nothing. -/
theorem store_load_inverse_aboutToStore :
    (aboutToStore.Executes 3 0x55 ∧ aboutToLoad.Executes 3 0x65 ∧
      aboutToStoreAgain.Executes 3 0x55) ∧
      aboutToLoad.registers.v[(0 : Fin 16)] = 7 ∧
      (∀ k : Fin 16, k ≤ 3 → (aboutToLoad.step advancingSetup).machine.registers.v[k] =
        aboutToStore.registers.v[k]) ∧
      (aboutToLoad.step advancingSetup).machine.registers.i.toNat = 0x1002 ∧
      (aboutToStoreAgain.step advancingSetup).machine.memory = aboutToStoreAgain.memory := by
  have hstore : aboutToStore.Executes 3 0x55 :=
    ⟨0xF355, ⟨rfl, by decide, by decide +kernel⟩, by decide, by decide⟩
  have hstart : aboutToStore.registers.i.toNat = 0x1FFE := by decide
  obtain ⟨hload, hindex, hchanged⟩ := executes_aboutToLoad
  obtain ⟨hagain, hindex', hkept⟩ := executes_aboutToStoreAgain
  obtain ⟨hnothing, hnothing'⟩ := storesNothing_roundTrip
  have hfirst := (store_load_inverse advancingSetup aboutToStore 3).1 untilLoad hnothing
  have hsecond := (store_load_inverse advancingSetup aboutToLoad 3).1 [.step] hnothing'
  have hmoved := ((store_load_inverse advancingSetup aboutToLoad 3).2 (.inr hload)).2
  rw [← aboutToLoad] at hfirst
  rw [← aboutToStoreAgain] at hsecond
  have hloaded := (hfirst (by rw [hstart, hindex])).1 hstore hload
  refine ⟨⟨hstore, hload, hagain⟩, hchanged, hloaded, ?_, ?_⟩
  · rw [hmoved, hindex]
    rfl
  · refine (hsecond (by rw [hindex, hindex'])).2 hload hagain fun k hk => ?_
    exact (Registers.upTo_eq_iff.1 hkept k hk).trans (hloaded k hk).symm

end Chip8.Machine
