import Chip8.Memory

/-!
# Accesses that wrap round memory

What the cells of a memory hold after bytes were stored from an address on,
round the end if need be: a cell that an address of the stretch falls on holds
the byte for it, as the stretch is not longer than memory, and every other cell
what it held before. Storing and fetching are inverse (`fetchAll_putAll`,
`putAll_fetchAll`), also where the two addresses differ by whole memories.
-/

namespace Chip8.Memory

-- The zero of `NeZero`, as for the definitions.
attribute [local instance (high)] Zero.ofOfNat0

variable {size : Nat} [NeZero size] (memory : Memory size) (start : Int) {bytes : List UInt8}
  {c : Fin size}

theorem cell_eq_iff {a : Int} : cell size a = c ↔ a % size = c.val := by
  have hsize := Nat.pos_of_ne_zero (NeZero.ne size)
  have hnonneg := Int.emod_nonneg a (b := size) (by omega)
  simp only [Fin.ext_iff, cell]
  omega

theorem cell_add_inj {i j : Nat} (hi : i < size) (hj : j < size)
    (h : cell size (start + i) = cell size (start + j)) : i = j :=
  eq_of_emod_eq hi hj ((cell_eq_iff.1 h).trans (cell_eq_iff.1 rfl).symm)

theorem length_fetchAll (count : Nat) : (memory.fetchAll start count).length = count := by
  rw [fetchAll, List.length_map, List.length_range]

theorem fetchAll_succ (count : Nat) :
    memory.fetchAll start (count + 1) =
      memory.fetch start :: memory.fetchAll (start + 1) count := by
  rw [fetchAll, List.range_succ_eq_map, List.map_cons, List.map_map, fetchAll]
  congr 1
  · rw [Int.ofNat_eq_natCast, Int.natCast_zero, Int.add_zero]
  · refine List.map_congr_left fun k _ => ?_
    rw [Function.comp_apply, Int.ofNat_eq_natCast, Int.natCast_succ, Int.add_assoc,
      Int.add_comm 1]
    rfl

theorem getElem_fetchAll {count k : Nat} (hk : k < (memory.fetchAll start count).length) :
    (memory.fetchAll start count)[k] = memory.cells[cell size (start + k)] := by
  simp only [fetchAll, List.getElem_map, List.getElem_range]
  rfl

theorem getElem_put (b : UInt8) :
    (memory.put start b).cells[c] = if cell size start = c then b else memory.cells[c] := by
  simp only [put, getElem_fin, Vector.getElem_set, Fin.val_inj]

/-- The addresses of a stretch, told from that of its first byte or of its
    second one. -/
theorem add_natCast_succ (k : Nat) : start + 1 + k = start + (k + 1 : Nat) := by
  omega

theorem getElem_putAll_of_ne (h : ∀ k < bytes.length, cell size (start + k) ≠ c) :
    (memory.putAll start bytes).cells[c] = memory.cells[c] := by
  induction bytes generalizing memory start with
  | nil => rfl
  | cons b rest ih =>
    have hfirst : cell size start ≠ c := by
      have := h 0 (Nat.zero_lt_succ _)
      rwa [Int.natCast_zero, Int.add_zero] at this
    have hrest : ∀ k < rest.length, cell size (start + 1 + k) ≠ c := fun k hk => by
      rw [add_natCast_succ]
      exact h (k + 1) (Nat.succ_lt_succ hk)
    rw [putAll, ih _ _ hrest, getElem_put, if_neg hfirst]

theorem getElem_putAll {k : Nat} (hlength : bytes.length ≤ size) (hk : k < bytes.length)
    (hc : cell size (start + k) = c) : (memory.putAll start bytes).cells[c] = bytes[k] := by
  induction bytes generalizing memory start k with
  | nil => exact absurd hk (Nat.not_lt_zero k)
  | cons b rest ih =>
    rw [List.length_cons] at hlength hk
    cases k with
    | zero =>
      -- The later bytes are less than a memory away, and fall on other cells.
      have hrest : ∀ k < rest.length, cell size (start + 1 + k) ≠ c := fun k hk e => by
        rw [add_natCast_succ, ← hc] at e
        exact absurd (cell_add_inj start (by omega) (by omega) e) (Nat.succ_ne_zero k)
      rw [Int.natCast_zero, Int.add_zero] at hc
      rw [putAll, getElem_putAll_of_ne _ _ hrest, getElem_put, if_pos hc]
      rfl
    | succ k =>
      rw [← add_natCast_succ] at hc
      exact ih _ _ (by omega) (Nat.lt_of_succ_lt_succ hk) hc

/-- A stretch that ends inside memory does not wrap round. -/
theorem getElem_putAll_of_le {start : Nat} (h : start + bytes.length ≤ size) :
    (memory.putAll start bytes).cells[c] =
      if start ≤ c.val ∧ c.val < start + bytes.length then bytes.getD (c.val - start) 0
      else memory.cells[c] := by
  have hc := c.isLt
  split
  · have hk : c.val - start < bytes.length := by omega
    rw [List.getD_eq_getElem?_getD, List.getElem?_eq_getElem hk, Option.getD_some]
    refine getElem_putAll _ _ (by omega) hk (cell_eq_iff.2 ?_)
    rw [Int.emod_eq_of_lt (by omega) (by omega)]
    omega
  · refine getElem_putAll_of_ne _ _ fun k hk hcell => ?_
    rw [cell_eq_iff, Int.emod_eq_of_lt (by omega) (by omega)] at hcell
    omega

/-! ### Storing and fetching the same stretch -/

/-- Congruent addresses fall on the same cell. -/
theorem cell_congr {a b : Int} (h : a % size = b % size) : cell size a = cell size b :=
  cell_eq_iff.2 (h.trans (cell_eq_iff.1 rfl))

variable {first second : Int}

/-- Fetching a stretch gives the bytes stored there. -/
theorem fetchAll_putAll (hlength : bytes.length ≤ size) (h : second % size = first % size) :
    (memory.putAll first bytes).fetchAll second bytes.length = bytes := by
  refine List.ext_getElem (length_fetchAll _ _ _) fun k _ hk => ?_
  have hcell : cell size (first + k) = cell size (second + k) :=
    cell_congr ((Int.emod_add_cancel_right _).2 h.symm)
  rw [getElem_fetchAll]
  exact getElem_putAll _ _ hlength hk hcell

/-- Storing what was fetched from a stretch there changes nothing. -/
theorem putAll_fetchAll (h : second % size = first % size) (count : Nat) :
    memory.putAll second (memory.fetchAll first count) = memory := by
  induction count generalizing first second with
  | zero => rfl
  | succ n ih =>
    have hfetch : memory.fetch first = memory.fetch second :=
      congrArg (memory.cells[·]) (cell_congr h.symm)
    have hput : memory.put second (memory.fetch first) = memory := by
      rw [hfetch]
      exact congrArg Memory.mk (Vector.set_getElem_self _)
    rw [fetchAll_succ, putAll, hput]
    exact ih ((Int.emod_add_cancel_right 1).2 h)

end Chip8.Memory
