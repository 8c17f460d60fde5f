import Chip8.Proofs.Flipping
import Mathlib.Data.List.Nodup

/-!
# Sprites, pixel by pixel

A sprite is drawn by flipping, row by row, the pixels that its set bits land
on. The rule for a single pixel goes the other way (`covers`): it looks up the
row and the column of the sprite that lie on it, counted from the sprite's
corner, round the edges if they wrap.

On a grid that is at least as large as the sprite, no two bits land on one pixel
(`nodup_cellsOf_spriteOffsets`), and the two rules agree:

* `lit_draw`: a pixel is flipped exactly if the sprite covers it;
* `collided_draw`: a collision is a covered pixel that was lit.
-/

namespace Chip8.Display

variable {width height : Nat} {edges : Edges} {x y : Int} {rows : List Int}
  {px : Fin width} {py : Fin height}

/-! ### Pixels and cells -/

/-- The cell of a pixel. -/
def cellAt (px : Fin width) (py : Fin height) : Fin (width * height) :=
  ⟨py * width + px, by
    have : (py.val + 1) * width ≤ height * width := Nat.mul_le_mul_right _ py.isLt
    rw [Nat.mul_comm width]
    rw [Nat.succ_mul] at this
    omega⟩

/-- Whether a pixel is lit. -/
def lit (d : Display width height) (px : Fin width) (py : Fin height) : Bool :=
  d.cells[cellAt px py]

theorem cellAt_inj {px' : Fin width} {py' : Fin height} :
    cellAt px py = cellAt px' py' ↔ px = px' ∧ py = py' := by
  refine ⟨fun h => ?_, fun ⟨hx, hy⟩ => hx ▸ hy ▸ rfl⟩
  have h : py.val * width + px.val = py'.val * width + px'.val := congrArg Fin.val h
  have hy : py.val = py'.val := by
    have := congrArg (· / width) h
    simpa [Nat.mul_comm _ width, Nat.mul_add_div px.pos, Nat.div_eq_of_lt] using this
  rw [hy, Nat.add_left_cancel_iff] at h
  exact ⟨Fin.ext h, Fin.ext hy⟩

theorem exists_cellAt (k : Fin (width * height)) :
    ∃ (px : Fin width) (py : Fin height), cellAt px py = k := by
  have hw : 0 < width := Nat.pos_of_mul_pos_right (Nat.zero_lt_of_lt k.isLt)
  refine ⟨⟨k % width, Nat.mod_lt _ hw⟩, ⟨k / width, Nat.div_lt_of_lt_mul k.isLt⟩, Fin.ext ?_⟩
  simp only [cellAt, Nat.mul_comm _ width]
  exact Nat.div_add_mod _ _

/-! ### Where a bit lands -/

/-- A position right of and below the corner of the grid is that of a pixel,
    round the edges if they wrap. -/
def Lands (edges : Edges) (x y : Int) (px : Fin width) (py : Fin height) : Prop :=
  match edges with
  | .wrap => x % width = px ∧ y % height = py
  | .clip => x = px ∧ y = py

theorem Lands.unique {q : Fin width} {p : Fin height} (h : Lands edges x y px py)
    (h' : Lands edges x y q p) : px = q ∧ py = p := by
  cases edges <;> exact ⟨Fin.ext (Int.natCast_inj.1 (h.1.symm.trans h'.1)),
    Fin.ext (Int.natCast_inj.1 (h.2.symm.trans h'.2))⟩

/-- Drawing finds the offset of the pixel that a position lands on, and nothing
    if there is none. -/
theorem locate_cases (edges : Edges) (hx : 0 ≤ x) (hy : 0 ≤ y) (hw : 0 < width) (hh : 0 < height) :
    (∃ (q : Fin width) (p : Fin height), Lands edges x y q p ∧
      locate width height edges x y = some (((cellAt q p).val : Nat) : Int)) ∨
    ((∀ (q : Fin width) (p : Fin height), ¬Lands edges x y q p) ∧
      locate width height edges x y = none) := by
  cases edges with
  | wrap =>
    have hw : 0 < (width : Int) := Int.natCast_pos.2 hw
    have hh : 0 < (height : Int) := Int.natCast_pos.2 hh
    have hx := Int.emod_nonneg x (Int.ne_of_gt hw)
    have hy := Int.emod_nonneg y (Int.ne_of_gt hh)
    have hxw := Int.emod_lt_of_pos x hw
    have hyh := Int.emod_lt_of_pos y hh
    refine .inl ⟨⟨(x % width).toNat, by omega⟩, ⟨(y % height).toNat, by omega⟩, ?_, ?_⟩
    · exact ⟨(Int.toNat_of_nonneg hx).symm, (Int.toNat_of_nonneg hy).symm⟩
    · simp only [locate, cellAt, Int.natCast_add, Int.natCast_mul, Int.toNat_of_nonneg hx,
        Int.toNat_of_nonneg hy]
  | clip =>
    by_cases hin : x ≥ width ∨ y ≥ height
    · -- Beyond an edge there is no pixel to land on.
      refine .inr ⟨fun q p h => ?_, by rw [locate, if_pos hin]⟩
      simp only [Lands] at h
      omega
    · refine .inl ⟨⟨x.toNat, by omega⟩, ⟨y.toNat, by omega⟩, ?_, ?_⟩
      · exact ⟨(Int.toNat_of_nonneg hx).symm, (Int.toNat_of_nonneg hy).symm⟩
      · simp only [locate, if_neg hin, cellAt, Int.natCast_add, Int.natCast_mul,
          Int.toNat_of_nonneg hx, Int.toNat_of_nonneg hy]

/-- Drawing finds the cell of the pixel that a position lands on. -/
theorem position?_locate (hx : 0 ≤ x) (hy : 0 ≤ y) :
    (locate width height edges x y).bind (position? (width * height)) = some (cellAt px py) ↔
      Lands edges x y px py := by
  obtain ⟨q, p, hland, hloc⟩ | ⟨hland, hloc⟩ := locate_cases edges hx hy px.pos py.pos
  · rw [hloc, Option.bind_some, position?_coe, Option.some_inj, cellAt_inj]
    exact ⟨fun ⟨hq, hp⟩ => hq ▸ hp ▸ hland, hland.unique⟩
  · simp [hloc, hland]

/-! ### The bits of a sprite -/

/-- The set bits of a sprite, by row and column, the first row being numbered
    `r`. -/
def bitsFrom (r : Nat) : List Int → List (Nat × Nat)
  | [] => []
  | row :: rest => ((List.range 8).filter (rowBit row)).map (r, ·) ++ bitsFrom (r + 1) rest

theorem mem_bitsFrom {r : Nat} {b : Nat × Nat} :
    b ∈ bitsFrom r rows ↔
      ∃ k row, rows[k]? = some row ∧ b.1 = r + k ∧ b.2 < 8 ∧ rowBit row b.2 = true := by
  induction rows generalizing r with
  | nil => simp [bitsFrom]
  | cons row rest ih =>
    obtain ⟨b₁, b₂⟩ := b
    simp only [bitsFrom, List.mem_append, List.mem_map, List.mem_filter, List.mem_range,
      Prod.mk.injEq, ih]
    constructor
    · rintro (⟨c, ⟨hc, hbit⟩, rfl, rfl⟩ | ⟨k, row', hrow, rfl, hc, hbit⟩)
      · -- A bit of the first row, or else of a later one.
        exact ⟨0, row, rfl, rfl, hc, hbit⟩
      · exact ⟨k + 1, row', hrow, by omega, hc, hbit⟩
    · rintro ⟨k, row', hrow, rfl, hc, hbit⟩
      cases k with
      | zero =>
        cases hrow
        exact .inl ⟨b₂, ⟨hc, hbit⟩, rfl, rfl⟩
      | succ k => exact .inr ⟨k, row', hrow, by omega, hc, hbit⟩

theorem nodup_bitsFrom (r : Nat) (rows : List Int) : (bitsFrom r rows).Nodup := by
  induction rows generalizing r with
  | nil => exact List.nodup_nil
  | cons row rest ih =>
    refine List.nodup_append.2 ⟨?_, ih _, ?_⟩
    · exact (List.nodup_range.filter _).map fun _ _ h => congrArg Prod.snd h
    · rintro _ hb _ hb' rfl
      obtain ⟨c, _, rfl⟩ := List.mem_map.1 hb
      obtain ⟨k, _, _, hk, _⟩ := mem_bitsFrom.1 hb'
      simp only at hk
      omega

theorem spriteOffsets_eq (r : Nat) (rows : List Int) :
    spriteOffsets width height edges x (y + r) rows =
      (bitsFrom r rows).filterMap fun b => locate width height edges (x + b.2) (y + b.1) := by
  induction rows generalizing r with
  | nil => rfl
  | cons row rest ih =>
    have hrest := ih (r + 1)
    rw [Int.natCast_add, Int.natCast_one, ← Int.add_assoc] at hrest
    rw [spriteOffsets, hrest, bitsFrom, List.filterMap_append, List.filterMap_map,
      List.filterMap_filter]
    rfl

theorem cellsOf_spriteOffsets (rows : List Int) :
    cellsOf width height (spriteOffsets width height edges x y rows) =
      (bitsFrom 0 rows).filterMap fun b =>
        (locate width height edges (x + b.2) (y + b.1)).bind (position? (width * height)) := by
  have h := @spriteOffsets_eq width height edges x y 0 rows
  rw [Int.natCast_zero, Int.add_zero] at h
  rw [cellsOf, h, List.filterMap_filterMap]

/-- A sprite flips the pixels that its set bits land on. -/
theorem mem_cellsOf_spriteOffsets (hx : 0 ≤ x) (hy : 0 ≤ y) :
    cellAt px py ∈ cellsOf width height (spriteOffsets width height edges x y rows) ↔
      ∃ b ∈ bitsFrom 0 rows, Lands edges (x + b.2) (y + b.1) px py := by
  rw [cellsOf_spriteOffsets, List.mem_filterMap]
  exact exists_congr fun b => and_congr_right fun _ =>
    position?_locate (Int.add_nonneg hx (Int.natCast_nonneg _))
      (Int.add_nonneg hy (Int.natCast_nonneg _))

/-- Two bits less than a grid apart do not land on one pixel. -/
theorem Lands.eq {r r' c c' : Nat} (h : Lands edges (x + c) (y + r) px py)
    (h' : Lands edges (x + c') (y + r') px py) (hc : c < width) (hc' : c' < width)
    (hr : r < height) (hr' : r' < height) : r = r' ∧ c = c' := by
  cases edges with
  | wrap => exact ⟨eq_of_emod_eq hr hr' (h.2.trans h'.2.symm),
      eq_of_emod_eq hc hc' (h.1.trans h'.1.symm)⟩
  | clip =>
    simp only [Lands] at h h'
    omega

theorem nodup_cellsOf_spriteOffsets (edges : Edges) (hx : 0 ≤ x) (hy : 0 ≤ y) (hw : 8 ≤ width)
    (hh : rows.length ≤ height) :
    (cellsOf width height (spriteOffsets width height edges x y rows)).Nodup := by
  rw [cellsOf_spriteOffsets, List.Nodup, List.pairwise_filterMap]
  refine (nodup_bitsFrom 0 rows).imp_of_mem fun {b b'} hb hb' hne k hk k' hk' => ?_
  -- Two bits that land on one pixel are one bit: they are less than a grid apart.
  rintro rfl
  obtain ⟨px, py, rfl⟩ := exists_cellAt k
  obtain ⟨i, row, hi, hr, hc, _⟩ := mem_bitsFrom.1 hb
  obtain ⟨i', row', hi', hr', hc', _⟩ := mem_bitsFrom.1 hb'
  have hi := (List.getElem?_eq_some_iff.1 hi).1
  have hi' := (List.getElem?_eq_some_iff.1 hi').1
  have hl := (position?_locate (by omega) (by omega)).1 hk
  have hl' := (position?_locate (by omega) (by omega)).1 hk'
  have := hl.eq hl' (by omega) (by omega) (by omega) (by omega)
  exact hne (Prod.ext this.1 this.2)

/-! ### The rule for a pixel -/

/-- The row and the column of a sprite with its corner at `(x, y)` that lie on a
    pixel. -/
def place (edges : Edges) (x y : Int) (px : Fin width) (py : Fin height) : Int × Int :=
  match edges with
  | .wrap => ((py - y) % height, (px - x) % width)
  | .clip => (py - y, px - x)

/-- Whether a sprite of `n` rows with its corner at `(x, y)` covers a pixel:
    whether it has the row `r` and the column `c` that lie on the pixel, and
    the bit there is set. -/
def covers (edges : Edges) (x y : Int) (n : Nat) (bit : Nat → Nat → Bool) (px : Fin width)
    (py : Fin height) : Bool :=
  let (r, c) := place edges x y px py
  decide (0 ≤ r ∧ r < n) && decide (0 ≤ c ∧ c < 8) && bit r.toNat c.toNat

theorem emod_eq_iff {a p : Int} {n r : Nat} (hp : 0 ≤ p ∧ p < n) (hr : r < n) :
    (a + r) % n = p ↔ (p - a) % n = r := by
  constructor
  · rintro rfl
    rw [Int.emod_sub_emod, Int.add_comm, Int.add_sub_cancel,
      Int.emod_eq_of_lt (by omega) (by omega)]
  · intro h
    rw [← h, Int.add_emod_emod, Int.add_comm, Int.sub_add_cancel, Int.emod_eq_of_lt hp.1 hp.2]

theorem lands_iff_place {r c : Nat} (hr : r < height) (hc : c < width) :
    Lands edges (x + c) (y + r) px py ↔ place edges x y px py = (↑r, ↑c) := by
  cases edges with
  | wrap =>
    rw [Lands, emod_eq_iff (by omega) hc, emod_eq_iff (by omega) hr, place, Prod.mk.injEq, and_comm]
  | clip =>
    rw [Lands, place, Prod.mk.injEq]
    omega

variable {bit : Nat → Nat → Bool}

theorem covers_iff (hw : 8 ≤ width) (hh : rows.length ≤ height)
    (hbit : ∀ r row, rows[r]? = some row → ∀ c < 8, bit r c = rowBit row c) :
    covers edges x y rows.length bit px py = true ↔
      ∃ b ∈ bitsFrom 0 rows, Lands edges (x + b.2) (y + b.1) px py := by
  simp only [covers, Bool.and_eq_true, decide_eq_true_eq]
  constructor
  · -- The row and the column that lie on the pixel are those of a set bit.
    rintro ⟨⟨hr, hc⟩, hset⟩
    obtain ⟨r, hr'⟩ := Int.eq_ofNat_of_zero_le hr.1
    obtain ⟨c, hc'⟩ := Int.eq_ofNat_of_zero_le hc.1
    have hlt : r < rows.length := by omega
    rw [hr', hc', Int.toNat_natCast, Int.toNat_natCast,
      hbit r _ (List.getElem?_eq_getElem hlt) c (by omega)] at hset
    exact ⟨(r, c), mem_bitsFrom.2 ⟨r, _, List.getElem?_eq_getElem hlt, by omega, by omega, hset⟩,
      (lands_iff_place (by omega) (by omega)).2 (Prod.ext hr' hc')⟩
  · -- A bit that lands on the pixel is the one that lies on it.
    rintro ⟨⟨r, c⟩, hb, hland⟩
    obtain ⟨k, row, hrow, hr, hc, hset⟩ := mem_bitsFrom.1 hb
    have hlt := (List.getElem?_eq_some_iff.1 hrow).1
    simp only [Nat.zero_add] at hr hc hset hland
    subst hr
    rw [(lands_iff_place (by omega) (by omega)).1 hland]
    simp only [Int.toNat_natCast, hbit r row hrow c hc]
    exact ⟨⟨by omega, by omega⟩, hset⟩

/-! ### Drawing -/

variable (d : Display width height) (edges) (x y)

/-- On a grid at least as large as the sprite, drawing flips the pixels that the
    sprite covers. -/
theorem lit_draw (hw : 8 ≤ width) (hh : rows.length ≤ height)
    (hbit : ∀ r row, rows[r]? = some row → ∀ c < 8, bit r c = rowBit row c) :
    (d.draw edges x y rows).display.lit px py =
      (d.lit px py ^^ covers edges (x % width) (y % height) rows.length bit px py) := by
  have hx := Int.emod_nonneg x (Int.ne_of_gt (Int.natCast_pos.2 px.pos))
  have hy := Int.emod_nonneg y (Int.ne_of_gt (Int.natCast_pos.2 py.pos))
  have hnodup := nodup_cellsOf_spriteOffsets edges hx hy hw hh
  rw [lit, draw, cells_toggleAll, lit]
  congr 1
  rw [Bool.eq_iff_iff, covers_iff hw hh hbit, ← mem_cellsOf_spriteOffsets hx hy]
  -- A cell is named once or not at all, so flipped as it is covered or not.
  rw [hnodup.count]
  split <;> simp [*]

/-- A collision is a covered pixel that was lit. -/
theorem collided_draw (hw : 8 ≤ width) (hh : rows.length ≤ height) (hpos : 0 < height)
    (hbit : ∀ r row, rows[r]? = some row → ∀ c < 8, bit r c = rowBit row c) :
    (d.draw edges x y rows).collided = true ↔
      ∃ (px : Fin width) (py : Fin height),
        covers edges (x % width) (y % height) rows.length bit px py = true ∧
          d.lit px py = true := by
  have hx := Int.emod_nonneg x (b := width) (by omega)
  have hy := Int.emod_nonneg y (b := height) (by omega)
  rw [draw, collided_toggleAll d (nodup_cellsOf_spriteOffsets edges hx hy hw hh)]
  constructor
  · rintro ⟨k, hk, hlit⟩
    obtain ⟨px, py, rfl⟩ := exists_cellAt k
    exact ⟨px, py, (covers_iff hw hh hbit).2 ((mem_cellsOf_spriteOffsets hx hy).1 hk), hlit⟩
  · rintro ⟨px, py, hcov, hlit⟩
    exact ⟨cellAt px py, (mem_cellsOf_spriteOffsets hx hy).2 ((covers_iff hw hh hbit).1 hcov), hlit⟩

end Chip8.Display
