import Chip8.Proofs.InPlace
import Chip8.Proofs.Storing

/-!
# What resets and loads restore

A reset leaves nothing behind of what has happened to a machine but the program
accepted last, the held keys and the random numbers drawn: it gives the machine
that was just made, with that program loaded. A load either does all of this
with a new program, or changes nothing.

* `Program.check_eq_ok_iff`: the programs that are accepted;
* `Memory.Holds`, `Machine.Loaded`: memory, and the whole machine, with a program
  just loaded;
* `loaded_reset`: a reset leaves the stored program loaded;
* `reset_restores`, `load_all_or_nothing`: resets and loads after any history,
  in place.
-/

namespace Chip8

variable {c : Config} {m : Machine} {image : Image} {content : List UInt8}

/-! ### Accepted programs -/

/-- An image is bytes, not empty, that fit in memory from an address on. -/
structure Program.Suitable (loadOffset : Nat) (image : Image) (content : List UInt8) : Prop where
  bytes : image = .bytes content
  nonempty : 1 ≤ content.length
  fits : content.length ≤ Memory.standardSize - loadOffset

theorem Program.check_eq_ok_iff :
    Program.check image c.loadOffset = .ok content ↔ Suitable c.loadOffset image content := by
  have hend : c.loadOffset < 4096 := c.belowEnd
  constructor
  · intro h
    have hfits := Machine.length_of_check h
    unfold Program.check at h
    split at h
    · cases h
    · cases h
    · rename_i hnonempty
      split at h <;> cases h
      exact ⟨rfl, List.length_pos_iff.2 hnonempty, Nat.le_sub_of_add_le' hfits⟩
  · rintro ⟨rfl, hnonempty, hfits⟩
    unfold Program.check
    split
    · cases ‹Image.bytes _ = _›
    · cases ‹Image.bytes _ = _›
      exact absurd hnonempty (Nat.not_succ_le_zero 0)
    · cases ‹Image.bytes _ = _›
      have hshort : ¬(content.length : Int) > capacity c.loadOffset := by
        simp only [capacity, memoryEnd, Memory.standardSize] at hfits ⊢
        omega
      rw [if_neg hshort]

/-- The program accepted last is one that would be accepted. -/
theorem check_lastAccepted {es : List Event} (h : lastAccepted c es = some content) :
    Program.check (.bytes content) c.loadOffset = .ok content := by
  obtain ⟨e, -, he⟩ := List.mem_filterMap.1 (List.mem_of_getLast? h)
  unfold Event.accepted? at he
  split at he
  · rename_i image
    have hcheck : Program.check image c.loadOffset = .ok content := by
      cases hc : Program.check image c.loadOffset <;> rw [hc] at he <;> cases he
      rfl
    have hsuitable := Program.check_eq_ok_iff.1 hcheck
    exact Program.check_eq_ok_iff.2 ⟨rfl, hsuitable.nonempty, hsuitable.fits⟩
  · cases he

/-! ### The machine with a program loaded -/

/-- Memory holds a program, the font and zeros. -/
structure Memory.Holds (memory : Memory Memory.standardSize) (loadOffset : Nat)
    (content : List UInt8) : Prop where
  program : ∀ k < content.length, memory.cells[loadOffset + k]? = content[k]?
  font : ∀ k < 80, memory.cells[0x50 + k]? = Font.glyphs[k]?
  rest : ∀ a < Memory.standardSize, ¬(0x50 ≤ a ∧ a ≤ 0x9F) →
    ¬(loadOffset ≤ a ∧ a < loadOffset + content.length) → memory.cells[a]? = some 0

/-- The machine has a program loaded, and nothing is left of what was before. -/
structure Machine.Loaded (c : Config) (content : List UInt8) (m : Machine) : Prop where
  memory : m.memory.Holds c.loadOffset content
  program : m.program = content
  pc : m.registers.pc = c.loadOffset
  fault : m.fault = none
  awaiting : m.awaiting = false
  stack : m.stack.items = []
  diagnostics : m.diagnostics = []

namespace Machine

theorem image_getElem? {loadOffset a : Nat}
    (h : loadOffset + content.length ≤ Memory.standardSize) (ha : a < Memory.standardSize) :
    (Machine.image loadOffset content).cells[a]? = some (loadedByte loadOffset content a) := by
  rw [Vector.getElem?_eq_getElem ha]
  exact congrArg some (image_cells (c := ⟨a, ha⟩) h)

theorem holds_image (h : c.loadOffset + content.length ≤ Memory.standardSize) :
    (Machine.image c.loadOffset content).Holds c.loadOffset content := by
  have habove : 0x1FF < c.loadOffset := c.aboveReserved
  have hsize : Memory.standardSize = 4096 := rfl
  have hfont : Font.address = 0x50 ∧ Font.glyphs.length = 80 := by decide
  refine ⟨fun k hk => ?_, fun k hk => ?_, fun a ha hrange hprogram => ?_⟩
  · rw [image_getElem? h (by omega), loadedByte, if_pos (by omega), Nat.add_sub_cancel_left,
      List.getElem?_eq_getElem hk, List.getD_eq_getElem _ _ hk]
  · -- The font ends below the lowest load offset.
    have hglyph : k < Font.glyphs.length := by omega
    rw [image_getElem? h (by omega), loadedByte, if_neg (by omega), if_pos (by omega), hfont.1,
      Nat.add_sub_cancel_left, List.getElem?_eq_getElem hglyph, List.getD_eq_getElem _ _ hglyph]
  · rw [image_getElem? h ha, loadedByte, if_neg hprogram, if_neg (by omega)]

/-- A reset leaves the stored program loaded. -/
theorem loaded_reset (h : m.Fits c) : Loaded c m.program (m.reset c) where
  memory := holds_image h
  program := rfl
  pc := rfl
  fault := rfl
  awaiting := rfl
  stack := rfl
  diagnostics := rfl

/-- A machine is just made, with a program loaded if there is one. -/
inductive Fresh (c : Config) : Option (List UInt8) → Machine → Prop
  | unloaded : Fresh c none (powerOn c)
  | loaded {content : List UInt8} {m : Machine}
      (load : (InPlace.load c (.bytes content)).run (powerOn c) = .ok () m) :
      Fresh c (some content) m

/-- Machines with the same program differ in their held keys and the numbers
    drawn only, once they are reset. -/
theorem reset_eq_of_program {m' : Machine} (h : m.program = m'.program) :
    m.reset c = { m'.reset c with
      keypad := { (m'.reset c).keypad with held := m.keypad.held }
      draws := m.draws } := by
  simp only [reset, h, Keypad.forget]

theorem reset_reset : (m.reset c).reset c = m.reset c := rfl

/-- The fresh machine with the program accepted last. -/
theorem exists_fresh (c : Config) (es : List Event) :
    ∃ fresh, Fresh c (lastAccepted c es) fresh ∧ fresh.reset c = fresh ∧
      fresh.program = (lastAccepted c es).getD [] := by
  cases hlast : lastAccepted c es with
  | none => exact ⟨powerOn c, .unloaded, rfl, rfl⟩
  | some content =>
    have hload := InPlace.load_run_of_check (intact_powerOn c) (check_lastAccepted hlast)
    exact ⟨_, .loaded hload, reset_reset, rfl⟩

/-- A load in place, as its image is accepted or refused. -/
theorem load_run (h : m.Intact c) (image : Image) :
    (∃ content, Program.Suitable c.loadOffset image content ∧
      (InPlace.load c image).run m = .ok () ({ m with program := content }.reset c)) ∨
    ((∀ content, ¬Program.Suitable c.loadOffset image content) ∧
      ∃ e, (InPlace.load c image).run m = .error (.program e) m) := by
  cases hcheck : Program.check image c.loadOffset with
  | ok content =>
    exact .inl ⟨content, Program.check_eq_ok_iff.1 hcheck, InPlace.load_run_of_check h hcheck⟩
  | error e =>
    refine .inr ⟨fun content hsuitable => ?_, e, InPlace.load_run_of_refused hcheck⟩
    have := Program.check_eq_ok_iff.2 hsuitable
    rw [hcheck] at this
    cases this

/-- Resets, after any history. A reset goes through, and what it leaves is a
    fresh machine with the program loaded that was accepted last, but for the
    held keys and the random numbers drawn. A second reset changes nothing, and
    a refused load before it makes no difference. -/
theorem reset_restores (s : Setup) (es : List Event) :
    let c := s.config
    let m := (powerOn c).occurAll s es
    (InPlace.reset c).run m = .ok () (m.reset c) ∧
    (∃ fresh, Fresh c (lastAccepted c es) fresh ∧
      m.reset c = { fresh with
        keypad := { fresh.keypad with held := m.keypad.held }
        draws := m.draws }) ∧
    (InPlace.reset c).run (m.reset c) = .ok () (m.reset c) ∧
    ∀ image e m', (InPlace.load c image).run m = .error e m' →
      (InPlace.reset c).run m' = .ok () (m.reset c) := by
  intro c m
  have hintact : m.Intact c := (intact_powerOn c).occurAll es
  have hreset := InPlace.reset_run hintact
  refine ⟨hreset, ?_, ?_, fun image e m' hload => ?_⟩
  · obtain ⟨fresh, hfresh, hsame, hprogram⟩ := exists_fresh c es
    have hstored : m.program = fresh.program := (program_occurAll s _ es).trans hprogram.symm
    refine ⟨fresh, hfresh, ?_⟩
    rw [← hsame]
    exact reset_eq_of_program hstored
  · exact InPlace.reset_run ⟨hintact.fits, rfl⟩
  · -- A refused load leaves the machine as it was.
    rcases load_run hintact image with ⟨_, -, hok⟩ | ⟨-, _, herror⟩
    · rw [hok] at hload
      cases hload
    · rw [herror] at hload
      cases hload
      exact hreset

end Machine

end Chip8
