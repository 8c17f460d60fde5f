import Chip8.Display
import Mathlib.Data.List.Basic
import Mathlib.Data.Nat.Bits

/-!
# Flipping cells

Flips happen one after the other in place (`Display.toggleAll`), yet what they
do together is told cell by cell:

* a cell ends up at its old value, flipped as often as it is named
  (`cells_toggleAll`), so that the order of the flips does not matter;
* if no cell is named twice, a lit cell goes dark exactly if one of the named
  cells was lit at the start (`collided_toggleAll`).
-/

namespace Chip8

/-- A drawing with more offsets flipped after it. -/
def Drawing.extend {width height : Nat} (acc : Drawing width height) (offsets : List Int) :
    Drawing width height :=
  let more := acc.display.toggleAll offsets
  ⟨more.display, acc.commands ++ more.commands, acc.collided || more.collided⟩

namespace Display

variable {width height : Nat} (d : Display width height) {offset : Int} {rest : List Int}
  {c k : Fin (width * height)}

/-- The cells that offsets name. -/
def cellsOf (width height : Nat) (offsets : List Int) : List (Fin (width * height)) :=
  offsets.filterMap (position? (width * height))

theorem toggleAll_cons_of_none (h : position? (width * height) offset = none) :
    d.toggleAll (offset :: rest) = d.toggleAll rest := by
  simp only [toggleAll, h]

theorem toggleAll_cons_of_some (h : position? (width * height) offset = some c) :
    d.toggleAll (offset :: rest) = (d.toggle offset c).extend rest := by
  simp only [toggleAll, h, Drawing.extend]

/-- Flips are made one list after the other. -/
theorem toggleAll_append (first rest : List Int) :
    d.toggleAll (first ++ rest) = (d.toggleAll first).extend rest := by
  induction first generalizing d with
  | nil => rfl
  | cons offset first ih =>
    cases hp : position? (width * height) offset with
    | none => rw [List.cons_append, toggleAll_cons_of_none d hp, toggleAll_cons_of_none d hp, ih]
    | some c =>
      simp only [List.cons_append, toggleAll_cons_of_some d hp, Drawing.extend, ih,
        List.append_assoc, Bool.or_assoc]

theorem cells_toggle : (d.toggle offset c).display.cells[k] = (d.cells[k] ^^ decide (c = k)) := by
  simp only [toggle, getElem_fin, Vector.getElem_set, Fin.val_inj]
  split <;> simp_all

theorem collided_toggle : (d.toggle offset c).collided = d.cells[c] := rfl

/-- Every cell is flipped as often as it is named. -/
theorem cells_toggleAll (offsets : List Int) :
    (d.toggleAll offsets).display.cells[k] =
      (d.cells[k] ^^ ((cellsOf width height offsets).count k).bodd) := by
  induction offsets generalizing d with
  | nil => simp [toggleAll, cellsOf]
  | cons offset rest ih =>
    cases hp : position? (width * height) offset with
    | none =>
      rw [toggleAll_cons_of_none d hp, ih, cellsOf, cellsOf, List.filterMap_cons_none hp]
    | some c =>
      rw [toggleAll_cons_of_some d hp, Drawing.extend, ih, cells_toggle, cellsOf, cellsOf,
        List.filterMap_cons_some hp, List.count_cons, Bool.xor_assoc]
      congr 1
      by_cases hc : c = k
      · rw [if_pos (beq_iff_eq.2 hc), Nat.bodd_succ, decide_eq_true hc, Bool.true_xor]
      · rw [if_neg (mt beq_iff_eq.1 hc), decide_eq_false hc, Bool.false_xor, Nat.add_zero]

/-- If no cell is named twice, a lit one goes dark if one was lit at the start. -/
theorem collided_toggleAll {offsets : List Int} (h : (cellsOf width height offsets).Nodup) :
    (d.toggleAll offsets).collided = true ↔
      ∃ k ∈ cellsOf width height offsets, d.cells[k] = true := by
  induction offsets generalizing d with
  | nil => simp [toggleAll, cellsOf]
  | cons offset rest ih =>
    cases hp : position? (width * height) offset with
    | none =>
      rw [cellsOf, List.filterMap_cons_none hp] at h ⊢
      rw [toggleAll_cons_of_none d hp]
      exact ih d h
    | some c =>
      rw [cellsOf, List.filterMap_cons_some hp] at h ⊢
      obtain ⟨hc, hrest⟩ := List.nodup_cons.1 h
      rw [toggleAll_cons_of_some d hp, Drawing.extend, Bool.or_eq_true, ih _ hrest, collided_toggle,
        List.exists_mem_cons_iff]
      -- The cells flipped later are other ones, where the flip of `c` does not show.
      refine or_congr_right (exists_congr fun k => and_congr_right fun hk => ?_)
      have hck : c ≠ k := fun e => hc (e ▸ hk)
      rw [cells_toggle, decide_eq_false hck, Bool.xor_false]

end Display

end Chip8
