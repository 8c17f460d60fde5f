import Chip8.Proofs.Memory

/-!
# Checked accesses

The host's accesses are checked, but only at their last byte. So they come to
one of three things, told here in full for any memory and any address:

* an access inside memory is that of the cells its addresses fall on;
* one whose last byte is outside is refused as an address outside of memory;
* one that starts below memory and ends inside passes the check. A word that
  does so starts at -1, and is read from the last cell and the first one. A
  block (`Straddles`) is refused for its length.

Main statements:

* `at?_eq`, `read_eq`, `readWord_eq`, `write_eq`, `writeBlock_eq_ok`,
  `writeBlock_eq_error`: what each access comes to;
* `ChecksWord`, `ChecksBlock`: what checking every byte of an access means;
* `checks_iff`: which accesses are checked like that.
-/

namespace Chip8.Memory

-- The zero of `NeZero`, as for the definitions.
attribute [local instance (high)] Zero.ofOfNat0

variable {size : Nat} {address : Int} {block : List UInt8}

theorem check_eq (m : Memory size) (address : Int) :
    m.check address =
      if 0 ≤ address ∧ address < size then .ok () else .error (.outside address) := by
  simp only [check, inBounds, Bool.and_eq_true, decide_eq_true_eq]

/-- A block of no bytes stores nothing, if its place is one after a cell. -/
theorem writeBlock_nil (m : Memory size) (address : Int) :
    m.writeBlock address [] =
      if 0 < address ∧ address ≤ size then .ok m else .error (.outside (address - 1)) := by
  have hlength : address + ([] : List UInt8).length = address := Int.add_zero address
  rw [writeBlock, check_eq, hlength]
  by_cases h : 0 < address ∧ address ≤ size
  · have hspan : (Span.of size address address).length = 0 := Nat.sub_self _
    rw [if_pos (by omega), if_pos h, overwrite?, hspan]
    rfl
  · rw [if_neg (by omega), if_neg h]
    rfl

variable [NeZero size]

/-! ### Reading -/

theorem at?_eq (m : Memory size) (address : Int) :
    m.at? address =
      if -size ≤ address ∧ address < size then .ok (m.fetch address)
      else .error (.outside address) := by
  unfold at?
  cases h : position? size address with
  | none =>
    have hbounds := position?_eq_none_iff.1 h
    rw [if_neg (by omega)]
  | some p =>
    obtain ⟨hbounds, hp⟩ := position?_eq_some_iff.1 h
    have hcell : cell size address = p := cell_eq_iff.2 hp.symm
    rw [if_pos hbounds, fetch, hcell]

theorem read_eq (m : Memory size) (address : Int) :
    m.read address =
      if 0 ≤ address ∧ address < size then .ok (m.fetch address)
      else .error (.outside address) := by
  rw [read, check_eq]
  split
  · exact (at?_eq m address).trans (if_pos (by omega))
  · rfl

/-- The address -1 passes the check of a word, as its last byte is the first cell. -/
theorem readWord_eq (m : Memory size) (address : Int) :
    m.readWord address =
      if -1 ≤ address ∧ address + 1 < size then
        .ok (Word.ofBytes (m.fetch address) (m.fetch (address + 1)))
      else .error (.outside (address + 1)) := by
  have hsize := Nat.pos_of_ne_zero (NeZero.ne size)
  rw [readWord, check_eq, at?_eq, at?_eq]
  by_cases h : -1 ≤ address ∧ address + 1 < size
  · rw [if_pos (by omega), if_pos (by omega), if_pos (by omega), if_pos h]
    rfl
  · rw [if_neg (by omega), if_neg h]
    rfl

/-! ### Storing -/

theorem write_eq (m : Memory size) (address value : Int) :
    m.write address value =
      if 0 ≤ address ∧ address < size then
        match byte? value with
        | some b => .ok (m.put address b)
        | none => .error .notAByte
      else .error (.outside address) := by
  rw [write, check_eq]
  split
  · have hposition : position? size address = some (cell size address) :=
      position?_eq_some_iff.2 ⟨by omega, (cell_eq_iff.1 rfl).symm⟩
    rw [hposition]
    cases byte? value <;> rfl
  · rfl

/-- Bytes that end inside memory are put into one stretch of cells. -/
theorem cells_putAll {start : Nat} (m : Memory size) (h : start + block.length ≤ size) :
    (m.putAll start block).cells = overwrite m.cells start block := by
  induction block generalizing m start with
  | nil => rfl
  | cons b rest ih =>
    rw [List.length_cons] at h
    have hstart : start < size := by omega
    have hcell : cell size start = ⟨start, hstart⟩ :=
      cell_eq_iff.2 (Int.emod_eq_of_lt (Int.natCast_nonneg _) (Int.ofNat_lt.2 hstart))
    have hput : (m.put start b).cells = m.cells.set start b hstart := by
      simp only [put, hcell]
    rw [putAll, overwrite, dif_pos hstart, ← hput, ← Int.natCast_succ]
    exact ih _ (by omega)

/-- A block of bytes inside memory is stored. -/
theorem writeBlock_eq_ok (m : Memory size) (hne : block ≠ [])
    (h : 0 ≤ address ∧ address + block.length ≤ size) :
    m.writeBlock address block = .ok (m.putAll address block) := by
  obtain ⟨start, rfl⟩ := Int.eq_ofNat_of_zero_le h.1
  have hpos := List.length_pos_iff.2 hne
  have hspan : Span.of size start (start + block.length) = ⟨start, block.length⟩ := by
    simp only [Span.of, bound]
    rw [if_neg (by omega), if_neg (by omega), Span.mk.injEq]
    omega
  have hcells : (m.putAll start block).cells = overwrite m.cells start block :=
    cells_putAll m (by omega)
  rw [writeBlock, check_eq, if_pos (by omega), hspan, overwrite?, if_pos rfl, ← hcells]
  rfl

/-- A stretch that starts below memory and ends inside. -/
abbrev Straddles (size : Nat) (address : Int) (length : Nat) : Prop :=
  address < 0 ∧ 0 < address + length ∧ address + length ≤ size

/-- The stretch that a straddling block names is shorter than the block. -/
theorem Straddles.length_span_lt {length : Nat} (h : Straddles size address length) :
    (Span.of size address (address + length)).length < length := by
  have hsize := Nat.pos_of_ne_zero (NeZero.ne size)
  simp only [Span.of, bound]
  rw [if_pos h.1, if_neg (by omega)]
  omega

/-- A block of bytes that is not inside memory is refused. -/
theorem writeBlock_eq_error (m : Memory size) (hne : block ≠ [])
    (h : ¬(0 ≤ address ∧ address + block.length ≤ size)) :
    m.writeBlock address block =
      .error (if Straddles size address block.length then .lengthMismatch
        else .outside (address + block.length - 1)) := by
  have hpos := List.length_pos_iff.2 hne
  rw [writeBlock, check_eq]
  by_cases hstraddles : Straddles size address block.length
  · have hspan := hstraddles.length_span_lt
    rw [if_pos (by omega), if_pos hstraddles, overwrite?, if_neg (by omega)]
    rfl
  · rw [if_neg (by omega), if_neg hstraddles]
    rfl

/-! ### Every byte of an access -/

/-- The memory after an access that stores something, which is as it was if the access
    is refused. -/
def settle (m : Memory size) (result : Except MemoryError (Memory size)) : Memory size :=
  match result with
  | .ok after => after
  | .error _ => m

/-- A word is read if both of its bytes are, and then made of them, the first one being
    the more significant; otherwise its address is refused. -/
structure ChecksWord (m : Memory size) (address : Int) : Prop where
  read_iff : (∃ w, m.readWord address = .ok w) ↔
    (∃ b, m.read address = .ok b) ∧ ∃ b, m.read (address + 1) = .ok b
  value : ∀ w, m.readWord address = .ok w → ∀ first second, m.read address = .ok first →
    m.read (address + 1) = .ok second → w.toNat = 256 * first.toNat + second.toNat
  refused : ∀ e, m.readWord address = .error e → ∃ place, e = .outside place

/-- A block is stored if it lies inside memory; otherwise its address is refused, and
    nothing is stored. -/
structure ChecksBlock (m : Memory size) (address : Int) (block : List UInt8) : Prop where
  stored_iff : (∃ after, m.writeBlock address block = .ok after) ↔
    0 ≤ address ∧ address + block.length ≤ size
  refused : ∀ e, m.writeBlock address block = .error e →
    (∃ place, e = .outside place) ∧ m.settle (m.writeBlock address block) = m

theorem exists_read_iff (m : Memory size) (address : Int) :
    (∃ b, m.read address = .ok b) ↔ 0 ≤ address ∧ address < size := by
  rw [read_eq]
  split <;> simp [*]

theorem toNat_ofBytes (first second : UInt8) :
    (Word.ofBytes first second).toNat = 256 * first.toNat + second.toNat := by
  have hfirst := first.toNat_lt
  have hsecond := second.toNat_lt
  rw [Word.ofBytes, UInt16.toNat_ofNat']
  omega

theorem checksWord_of_ne (m : Memory size) (h : address ≠ -1) : m.ChecksWord address where
  read_iff := by
    rw [exists_read_iff, exists_read_iff, readWord_eq]
    split
    · exact iff_of_true ⟨_, rfl⟩ (by omega)
    · refine iff_of_false ?_ (by omega)
      rintro ⟨w, hw⟩
      cases hw
  value := by
    intro w hw first second hfirst hsecond
    have hin := (exists_read_iff m address).1 ⟨first, hfirst⟩
    have hnext := (exists_read_iff m (address + 1)).1 ⟨second, hsecond⟩
    rw [read_eq, if_pos hin] at hfirst
    rw [read_eq, if_pos hnext] at hsecond
    rw [readWord_eq, if_pos (by omega)] at hw
    cases hw
    cases hfirst
    cases hsecond
    exact toNat_ofBytes _ _
  refused := by
    intro e he
    rw [readWord_eq] at he
    split at he <;> cases he
    exact ⟨_, rfl⟩

/-- The word at -1 is read from the last cell and the first one. -/
theorem readWord_neg_one (m : Memory size) :
    m.readWord (-1) = .ok (Word.ofBytes (m.fetch (-1)) (m.fetch 0)) := by
  have hsize := Nat.pos_of_ne_zero (NeZero.ne size)
  rw [readWord_eq, if_pos (by omega)]
  rfl

theorem not_checksWord (m : Memory size) : ¬m.ChecksWord (-1) := by
  intro h
  obtain ⟨hin, -⟩ := h.read_iff.1 ⟨_, readWord_neg_one m⟩
  have := (exists_read_iff m (-1)).1 hin
  omega

theorem checksBlock_of_not_straddles (m : Memory size) (hne : block ≠ [])
    (h : ¬Straddles size address block.length) : m.ChecksBlock address block := by
  by_cases hin : 0 ≤ address ∧ address + block.length ≤ size
  · have hok := m.writeBlock_eq_ok hne hin
    exact ⟨iff_of_true ⟨_, hok⟩ hin, fun e he => nomatch hok.symm.trans he⟩
  · have herror := m.writeBlock_eq_error hne hin
    rw [if_neg h] at herror
    refine ⟨iff_of_false (fun ⟨_, hok⟩ => nomatch hok.symm.trans herror) hin, fun e he => ?_⟩
    cases herror.symm.trans he
    exact ⟨⟨_, rfl⟩, congrArg m.settle herror⟩

theorem Straddles.writeBlock (h : Straddles size address block.length) (m : Memory size) :
    m.writeBlock address block = .error .lengthMismatch := by
  have hne : block ≠ [] := by
    rintro rfl
    simp only [Straddles, List.length_nil] at h
    omega
  rw [m.writeBlock_eq_error hne (by omega), if_pos h]

theorem Straddles.not_checksBlock (h : Straddles size address block.length) (m : Memory size) :
    ¬m.ChecksBlock address block := by
  intro hchecks
  obtain ⟨⟨place, hplace⟩, -⟩ := hchecks.refused _ (h.writeBlock m)
  cases hplace

/-- Which accesses are checked at every byte: every word but that at -1, which is read from
    the two ends of memory, and every block but those that start below memory and end
    inside, which are refused for their length. -/
theorem checks_iff (m : Memory size) :
    (∀ address, m.ChecksWord address ↔ address ≠ -1) ∧
      m.readWord (-1) = .ok (Word.ofBytes (m.fetch (-1)) (m.fetch 0)) ∧
      ∀ address block, block ≠ [] →
        (m.ChecksBlock address block ↔ ¬Straddles size address block.length) ∧
          (Straddles size address block.length →
            m.writeBlock address block = .error .lengthMismatch) := by
  refine ⟨fun address => ⟨?_, m.checksWord_of_ne⟩, m.readWord_neg_one, fun address block hne => ?_⟩
  · rintro h rfl
    exact m.not_checksWord h
  · exact ⟨⟨fun h hstraddles => hstraddles.not_checksBlock m h,
      m.checksBlock_of_not_straddles hne⟩, fun hstraddles => hstraddles.writeBlock m⟩

/-- Four cells. -/
def fourCells : Memory 4 := ⟨#v[0x10, 0x20, 0x30, 0x40]⟩

/-- A block of two bytes at address 1 is checked, and one at address -1 is not. -/
theorem checks_iff_fourCells :
    NeZero 4 ∧ [0xAA, 0xBB] ≠ ([] : List UInt8) ∧ fourCells.ChecksBlock 1 [0xAA, 0xBB] ∧
      fourCells.ChecksBlock 3 [0xAA, 0xBB] ∧ fourCells.ChecksWord 3 := by
  have hne : [0xAA, 0xBB] ≠ ([] : List UInt8) := by decide
  obtain ⟨hwords, -, hblocks⟩ := checks_iff fourCells
  exact ⟨inferInstance, hne, (hblocks 1 _ hne).1.2 (by decide), (hblocks 3 _ hne).1.2 (by decide),
    (hwords 3).2 (by decide)⟩

/-- The word at -1 is read, although its first byte is not, and a block that starts there
    is not refused as an address outside of memory. -/
theorem not_checks_belowMemory :
    fourCells.read (-1) = .error (.outside (-1)) ∧ fourCells.readWord (-1) = .ok 0x4010 ∧
      ¬fourCells.ChecksWord (-1) ∧
      fourCells.writeBlock (-1) [0xAA, 0xBB] = .error .lengthMismatch ∧
      ¬fourCells.ChecksBlock (-1) [0xAA, 0xBB] := by
  have hstraddles : Straddles 4 (-1) [0xAA, 0xBB].length := by decide
  exact ⟨rfl, rfl, fourCells.not_checksWord, hstraddles.writeBlock fourCells,
    hstraddles.not_checksBlock fourCells⟩

end Chip8.Memory
