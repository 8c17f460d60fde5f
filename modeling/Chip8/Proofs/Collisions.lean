import Chip8.Proofs.Overlays

/-!
# Collisions and lit pixels

A flip lights a dark pixel, or puts out a lit one, which is a collision. So every flip
without a collision adds a lit pixel and every one with a collision takes one away, and
the lit pixels before and after a sprite is drawn tell whether it collided: with the grid
as it was, or with itself, where several of its bits land on one pixel.

* `litCount_toggleAll`: how flips change the number of lit pixels;
* `onGrid`, `landed`: the set bits of a sprite that land on the grid;
* `collided_iff_litCount`: a sprite does not collide exactly if each of them adds a lit
  pixel.
-/

namespace Chip8.Display

variable {width height : Nat} (d : Display width height)

/-! ### Flips -/

theorem litCount_toggle (offset : Int) (c : Fin (width * height)) :
    (d.toggle offset c).display.litCount + 2 * d.cells[c].toNat = d.litCount + 1 := by
  have hc : c.val < d.cells.toList.length := by
    rw [Vector.length_toList]
    exact c.isLt
  have hcell : d.cells.toList[c.val] = d.cells[c] := Vector.getElem_toList _
  have hcount : (d.toggle offset c).display.litCount =
      d.litCount - d.cells[c].toNat + (!d.cells[c]).toNat := by
    simp only [litCount, toggle, Vector.toList_set, List.count_set hc, hcell]
    cases d.cells[c] <;> rfl
  rw [hcount]
  cases hlit : d.cells[c] with
  | false => rfl
  | true =>
    -- The cell is one of the lit ones, so that there is one to be put out.
    have hmem : true ∈ d.cells.toList := hlit ▸ hcell ▸ List.getElem_mem hc
    have hpos : 0 < d.litCount := List.count_pos_iff.2 hmem
    simp only [Bool.not_true, Bool.toNat_true, Bool.toNat_false]
    omega

/-- Every flip adds a lit pixel, but for those that hit a lit one and take it away. -/
theorem litCount_toggleAll (offsets : List Int) :
    ∃ hits, ((d.toggleAll offsets).collided = true ↔ 0 < hits) ∧
      (d.toggleAll offsets).display.litCount + 2 * hits =
        d.litCount + (cellsOf width height offsets).length := by
  induction offsets generalizing d with
  | nil => exact ⟨0, by simp [toggleAll], rfl⟩
  | cons offset rest ih =>
    cases hp : position? (width * height) offset with
    | none =>
      -- An offset that names no cell flips nothing.
      rw [toggleAll_cons_of_none d hp, cellsOf, List.filterMap_cons_none hp]
      exact ih d
    | some c =>
      have hfirst := d.litCount_toggle offset c
      obtain ⟨hits, hcollided, hrest⟩ := ih (d.toggle offset c).display
      rw [toggleAll_cons_of_some d hp, cellsOf, List.filterMap_cons_some hp, List.length_cons,
        ← cellsOf]
      simp only [Drawing.extend, Bool.or_eq_true, hcollided, collided_toggle]
      -- The first flip is one more hit if its cell was lit before it.
      refine ⟨d.cells[c].toNat + hits, ?_, by omega⟩
      cases d.cells[c] with
      | false => simp only [Bool.false_eq_true, false_or, Bool.toNat_false, Nat.zero_add]
      | true => simp only [true_or, Bool.toNat_true, Nat.add_pos_left Nat.one_pos]

/-! ### Sprites -/

/-- Whether a position right of and below the corner of the grid is on the grid, round the
    edges if they wrap. -/
def onGrid (edges : Edges) (width height : Nat) (x y : Int) : Bool :=
  match edges with
  | .wrap => true
  | .clip => x < width && y < height

/-- How many set bits of a sprite land on the grid, its corner wrapped into it. -/
def landed (edges : Edges) (width height : Nat) (x y : Int) (rows : List Int) : Nat :=
  (bitsFrom 0 rows).countP fun b => onGrid edges width height (x % width + b.2) (y % height + b.1)

theorem isSome_locate (edges : Edges) (x y : Int) :
    (locate width height edges x y).isSome = onGrid edges width height x y := by
  cases edges with
  | wrap => rfl
  | clip =>
    by_cases hin : x ≥ width ∨ y ≥ height
    · rw [locate, if_pos hin, onGrid]
      simp only [Option.isSome_none, Bool.false_eq, Bool.and_eq_false_iff, decide_eq_false_iff_not]
      omega
    · rw [locate, if_neg hin, onGrid]
      simp only [Option.isSome_some, Bool.true_eq, Bool.and_eq_true, decide_eq_true_eq]
      omega

variable {edges : Edges} {x y : Int} (hw : 0 < width) (hh : 0 < height)
include hw hh

/-- A position on the grid names a cell. -/
theorem isSome_position?_locate (hx : 0 ≤ x) (hy : 0 ≤ y) :
    ((locate width height edges x y).bind (position? (width * height))).isSome =
      onGrid edges width height x y := by
  rw [← isSome_locate]
  rcases locate_cases edges hx hy hw hh with ⟨q, p, -, hloc⟩ | ⟨-, hloc⟩
  · rw [hloc, Option.bind_some, position?_coe, Option.isSome_some, Option.isSome_some]
  · rw [hloc]
    rfl

/-- A sprite makes as many flips as set bits of it land on the grid. -/
theorem length_cellsOf_spriteOffsets (x y : Int) (rows : List Int) :
    (cellsOf width height
        (spriteOffsets width height edges (x % width) (y % height) rows)).length =
      landed edges width height x y rows := by
  obtain ⟨hx, hy⟩ := corner_nonneg hw hh x y
  rw [cellsOf_spriteOffsets, List.length_filterMap_eq_countP]
  refine List.countP_congr fun b _ => ?_
  rw [isSome_position?_locate hw hh (Int.add_nonneg hx (Int.natCast_nonneg _))
    (Int.add_nonneg hy (Int.natCast_nonneg _))]

/-- Collisions are told by counting. Drawing a sprite is not refused; it adds at most as
    many lit pixels as set bits of it land on the grid, and exactly as many if, and only
    if, no lit pixel went dark. -/
theorem collided_iff_litCount (edges : Edges) (d : Display width height) (x y : Int)
    (rows : List Int) :
    let drawing := d.draw edges x y rows
    let flips := landed edges width height x y rows
    d.drawGuarded edges ⟨x, y, rows⟩ = .ok drawing ∧
      drawing.display.litCount ≤ d.litCount + flips ∧
      (drawing.collided = false ↔ drawing.display.litCount = d.litCount + flips) := by
  intro drawing flips
  obtain ⟨hits, hcollided, hcount⟩ :=
    d.litCount_toggleAll (spriteOffsets width height edges (x % width) (y % height) rows)
  rw [length_cellsOf_spriteOffsets hw hh] at hcount
  -- Every hit makes the grid fall short of the bound by two, which is how a count tells it.
  have hcount : drawing.display.litCount + 2 * hits = d.litCount + flips := hcount
  have hcollided : drawing.collided = true ↔ 0 < hits := hcollided
  refine ⟨drawGuarded_eq hw hh d ⟨x, y, rows⟩, by omega, ?_⟩
  rw [← Bool.not_eq_true, hcollided]
  omega

omit hw hh

/-- On a dark grid of three by two pixels the large sprite collides with itself if it
    wraps round the edges. If it is clipped, only one bit of it is left. -/
theorem collided_iff_litCount_large :
    let d := dark 3 2 false
    (0 < 3 ∧ 0 < 2) ∧
      landed .wrap 3 2 large.x large.y large.rows = 17 ∧
      (d.draw .wrap large.x large.y large.rows).collided = true ∧
      landed .clip 3 2 large.x large.y large.rows = 1 ∧
      (d.draw .clip large.x large.y large.rows).collided = false := by
  intro d
  have hsize : 0 < 3 ∧ 0 < 2 := by decide
  have hwrap : landed .wrap 3 2 large.x large.y large.rows = 17 ∧
      (d.draw .wrap large.x large.y large.rows).display.litCount = 3 := by
    decide +kernel
  have hclip : landed .clip 3 2 large.x large.y large.rows = 1 ∧
      (d.draw .clip large.x large.y large.rows).display.litCount = 1 ∧ d.litCount = 0 := by
    decide +kernel
  obtain ⟨-, -, hwraps⟩ :=
    collided_iff_litCount hsize.1 hsize.2 .wrap d large.x large.y large.rows
  obtain ⟨-, -, hclips⟩ :=
    collided_iff_litCount hsize.1 hsize.2 .clip d large.x large.y large.rows
  refine ⟨hsize, hwrap.1, ?_, hclip.1, hclips.2 ?_⟩
  · rw [← Bool.not_eq_false, hwraps, hwrap.1, hwrap.2]
    omega
  · rw [hclip.1, hclip.2.1, hclip.2.2]

end Chip8.Display
