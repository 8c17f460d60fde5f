/-!
# Rows of bytes

The cells of a row: a program names them by their positions, a host names those
of a row of bytes by integers of any size and sign.

* `instGetElemFin`: the cell at a position, which is in the row by its type;
* `byte?`: the byte that an integer is, if it is one;
* `position?`: a position, negative ones counting from the end of the row;
* `Span.of`: a stretch between two positions, each of them moved into the row
  if it lies outside;
* `overwrite?`: replacing a stretch, by exactly as many bytes as it has.
-/

namespace Chip8

-- `NeZero` is to mean the same wherever this is imported: its zero is that of the numerals, also
-- where `Nat` has one from some algebraic structure.
attribute [local instance (high)] Zero.ofOfNat0

/-- The cell of a row at a position of its own, with no bound left to show. -/
instance instGetElemFin {α : Type} {size : Nat} :
    GetElem (Vector α size) (Fin size) α fun _ _ => True where
  getElem row k _ := row.get k

@[simp] theorem getElem_fin {α : Type} {size : Nat} (row : Vector α size) (k : Fin size) :
    row[k] = row[k.val] := rfl

instance instNeZeroSixteen : NeZero 16 := ⟨by decide⟩

/-- The byte that an integer is. -/
def byte? (k : Int) : Option UInt8 :=
  if 0 ≤ k ∧ k ≤ 255 then some (UInt8.ofNat k.toNat) else none

/-- The position that an integer names in a row of `size` cells: itself, or
    from the end if it is negative. -/
def position? (size : Nat) (k : Int) : Option (Fin size) :=
  let p := if k < 0 then size + k else k
  if h : 0 ≤ p ∧ p < size then some ⟨p.toNat, by omega⟩ else none

theorem byte?_toNat (b : UInt8) : byte? b.toNat = some b := by
  have := b.toNat_lt
  rw [byte?, if_pos (by omega), Int.toNat_natCast, UInt8.ofNat_toNat]

theorem position?_coe {size : Nat} (p : Fin size) : position? size p = some p := by
  have h : ¬(p.val : Int) < 0 := Int.not_lt.2 (Int.natCast_nonneg _)
  simp only [position?, if_neg h]
  rw [dif_pos ⟨Int.natCast_nonneg _, Int.ofNat_lt.2 p.isLt⟩]
  rfl

/-- Which cell an integer names in a row: negative ones count from the end. -/
theorem position?_eq_some_iff {size : Nat} {k : Int} {p : Fin size} :
    position? size k = some p ↔ (-size ≤ k ∧ k < size) ∧ (p : Int) = k % size := by
  have hp := p.isLt
  simp only [position?]
  -- Within the bounds, the remainder is what counting from the end comes to.
  by_cases hneg : k < 0
  · have hmod : -size ≤ k → k % size = size + k := fun h => by
      rw [← Int.add_emod_left, Int.emod_eq_of_lt (by omega) (by omega)]
    simp only [hneg, if_true]
    split
    · rw [Option.some_inj, Fin.ext_iff, hmod (by omega)]
      simp only
      omega
    · simp only [reduceCtorEq, false_iff]
      omega
  · have hmod : k < size → k % size = k := fun h => Int.emod_eq_of_lt (by omega) h
    simp only [hneg, if_false]
    split
    · rw [Option.some_inj, Fin.ext_iff, hmod (by omega)]
      simp only
      omega
    · simp only [reduceCtorEq, false_iff]
      omega

theorem position?_eq_none_iff {size : Nat} {k : Int} :
    position? size k = none ↔ k < -size ∨ size ≤ k := by
  simp only [position?]
  split <;> split <;> simp only [reduceCtorEq, false_iff, true_iff] <;> omega

/-- Positions less than a row apart do not wrap round to the same place. -/
theorem eq_of_emod_eq {a : Int} {n i j : Nat} (hi : i < n) (hj : j < n)
    (h : (a + i) % n = (a + j) % n) : i = j := by
  rw [Int.emod_add_cancel_left, Int.emod_eq_of_lt (by omega) (by omega),
    Int.emod_eq_of_lt (by omega) (by omega)] at h
  exact Int.natCast_inj.1 h

/-- The bound that an integer stands for in a row of `size` cells. -/
def bound (size : Nat) (k : Int) : Nat :=
  if k < 0 then (size + k).toNat else min k.toNat size

/-- A stretch of a row. -/
structure Span where
  start : Nat
  length : Nat
  deriving DecidableEq, Repr

/-- The stretch from one position up to another, empty if they are in the
    wrong order. -/
def Span.of (size : Nat) (first last : Int) : Span where
  start := bound size first
  length := bound size last - bound size first

/-- The row with the bytes from `start` on. -/
def overwrite {size : Nat} (row : Vector UInt8 size) : Nat → List UInt8 → Vector UInt8 size
  | _, [] => row
  | start, b :: rest =>
    if h : start < size then overwrite (row.set start b h) (start + 1) rest else row

/-- A row with a stretch of it replaced. -/
theorem toList_overwrite {size start : Nat} (row : Vector UInt8 size) {bytes : List UInt8}
    (h : start + bytes.length ≤ size) :
    (overwrite row start bytes).toList =
      row.toList.take start ++ bytes ++ row.toList.drop (start + bytes.length) := by
  induction bytes generalizing row start with
  | nil => simp [overwrite]
  | cons b rest ih =>
    rw [List.length_cons] at h
    have hstart : start < size := by omega
    have hset : (row.set start b hstart).toList =
        row.toList.take start ++ [b] ++ row.toList.drop (start + 1) := by
      rw [Vector.toList_set, List.set_eq_take_append_cons_drop,
        if_pos (by rwa [Vector.length_toList]), List.append_assoc, List.singleton_append]
    have hlength : (row.toList.take start ++ [b]).length = start + 1 := by
      simp
      omega
    rw [overwrite, dif_pos hstart, ih _ (by omega), ← List.drop_drop, hset,
      List.take_left' hlength, List.drop_left' hlength, List.drop_drop, List.length_cons,
      Nat.add_right_comm, Nat.add_assoc]
    simp

/-- The row with the bytes in place of a stretch, if they are as many. -/
def overwrite? {size : Nat} (row : Vector UInt8 size) (s : Span) (bytes : List UInt8) :
    Option (Vector UInt8 size) :=
  if bytes.length = s.length then some (overwrite row s.start bytes) else none

/-- The bytes of a stretch. -/
def Span.extract {size : Nat} (s : Span) (row : Vector UInt8 size) : List UInt8 :=
  (row.toList.drop s.start).take s.length

end Chip8
