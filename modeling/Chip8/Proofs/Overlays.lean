import Chip8.Proofs.Guarded
import Mathlib.Algebra.GroupWithZero.Nat

/-!
# Sprites on top of each other

Sprites are drawn one after the other, each by flipping pixels one after the other, and
on a grid smaller than a sprite several of its bits may land on one pixel. In spite of
this order nothing depends on it: a pixel ends up at its old value, flipped as often as
set bits of all the sprites land on it (`lit_drawAll`). Bits that are clipped land on no
pixel, whenever they are drawn.

* `landings`: how many set bits of a sprite land on a pixel;
* `drawAll`: the display with sprites drawn on it;
* `drawGuarded`, `drawAllGuarded`: the same by flips each of which may be refused, and
  none is;
* `sprites_commute_and_cancel`: the grid does not depend on the order of the sprites, and
  two equal ones cancel out.
-/

namespace Chip8

/-- A sprite with the position of its corner. -/
structure Placed where
  x : Int
  y : Int
  rows : List Int

namespace Display

variable {width height : Nat} {edges : Edges} {px : Fin width} {py : Fin height}

/-! ### A sprite -/

instance instDecidableLands (edges : Edges) (x y : Int) (px : Fin width) (py : Fin height) :
    Decidable (Lands edges x y px py) :=
  match edges with
  | .wrap => inferInstanceAs (Decidable (_ ∧ _))
  | .clip => inferInstanceAs (Decidable (_ ∧ _))

/-- How many set bits of a sprite land on a pixel, its corner wrapped into the grid. -/
def landings (edges : Edges) (p : Placed) (px : Fin width) (py : Fin height) : Nat :=
  (bitsFrom 0 p.rows).countP fun b =>
    Lands edges (p.x % width + b.2) (p.y % height + b.1) px py

/-- The corner of a sprite is not left of or above the grid, once it is wrapped into it. -/
theorem corner_nonneg (hw : 0 < width) (hh : 0 < height) (x y : Int) :
    0 ≤ x % width ∧ 0 ≤ y % height :=
  ⟨Int.emod_nonneg x (by omega), Int.emod_nonneg y (by omega)⟩

/-- A sprite flips a pixel as often as its set bits land on it. -/
theorem count_cellsOf_spriteOffsets {x y : Int} (hx : 0 ≤ x) (hy : 0 ≤ y) (rows : List Int) :
    (cellsOf width height (spriteOffsets width height edges x y rows)).count (cellAt px py) =
      (bitsFrom 0 rows).countP fun b => Lands edges (x + b.2) (y + b.1) px py := by
  rw [cellsOf_spriteOffsets, List.count_filterMap]
  refine List.countP_congr fun b _ => ?_
  rw [beq_iff_eq, decide_eq_true_eq]
  exact position?_locate (Int.add_nonneg hx (Int.natCast_nonneg _))
    (Int.add_nonneg hy (Int.natCast_nonneg _))

theorem lit_draw_landings (d : Display width height) (edges : Edges) (p : Placed)
    (px : Fin width) (py : Fin height) :
    (d.draw edges p.x p.y p.rows).display.lit px py =
      (d.lit px py ^^ (landings edges p px py).bodd) := by
  obtain ⟨hx, hy⟩ := corner_nonneg px.pos py.pos p.x p.y
  rw [lit, draw, cells_toggleAll, count_cellsOf_spriteOffsets hx hy]
  rfl

/-! ### Sprites -/

/-- The display with sprites drawn on it, one after the other. -/
def drawAll (edges : Edges) (d : Display width height) (sprites : List Placed) :
    Display width height :=
  sprites.foldl (fun d p => (d.draw edges p.x p.y p.rows).display) d

/-- A pixel is flipped as often as set bits of the sprites land on it. -/
theorem lit_drawAll (d : Display width height) (edges : Edges) (sprites : List Placed)
    (px : Fin width) (py : Fin height) :
    (d.drawAll edges sprites).lit px py =
      (d.lit px py ^^ (sprites.map (landings edges · px py)).sum.bodd) := by
  -- The first sprite leaves another display, of which the rest is known by induction.
  induction sprites generalizing d with
  | nil => rw [List.map_nil, List.sum_nil, Nat.bodd_zero, Bool.xor_false, drawAll, List.foldl_nil]
  | cons p sprites ih =>
    rw [drawAll, List.foldl_cons, ← drawAll, ih, lit_draw_landings, List.map_cons, List.sum_cons,
      Nat.bodd_add, Bool.xor_assoc]

/-- A grid is told by its pixels. -/
theorem cells_eq_of_lit {d d' : Display width height} (h : ∀ px py, d.lit px py = d'.lit px py) :
    d.cells = d'.cells := by
  refine Vector.ext fun k hk => ?_
  obtain ⟨px, py, hcell⟩ := exists_cellAt ⟨k, hk⟩
  have hlit := h px py
  rw [lit, lit, hcell] at hlit
  exact hlit

/-- Sprites whose set bits land on every pixel as often, but for an even number, make the same
    grid. -/
theorem cells_drawAll_congr (d : Display width height) {sprites sprites' : List Placed}
    (h : ∀ (px : Fin width) (py : Fin height),
      (sprites.map (landings edges · px py)).sum.bodd =
        (sprites'.map (landings edges · px py)).sum.bodd) :
    (d.drawAll edges sprites).cells = (d.drawAll edges sprites').cells :=
  cells_eq_of_lit fun px py => by rw [lit_drawAll, lit_drawAll, h]

theorem cells_drawAll_perm (d : Display width height) {sprites sprites' : List Placed}
    (h : sprites.Perm sprites') :
    (d.drawAll edges sprites).cells = (d.drawAll edges sprites').cells :=
  d.cells_drawAll_congr fun _ _ => congrArg Nat.bodd (h.map _).sum_nat

/-- Two equal sprites cancel out if nothing is drawn in between. -/
theorem cells_drawAll_pair (d : Display width height) (p : Placed) (sprites : List Placed) :
    (d.drawAll edges (p :: p :: sprites)).cells = (d.drawAll edges sprites).cells :=
  d.cells_drawAll_congr fun px py => by
    rw [List.map_cons, List.map_cons, List.sum_cons, List.sum_cons, Nat.bodd_add, Nat.bodd_add,
      ← Bool.xor_assoc, Bool.xor_self, Bool.false_xor]

/-! ### Flips that may be refused -/

/-- Draws a sprite, unless one of its flips is refused. -/
def drawGuarded (edges : Edges) (d : Display width height) (p : Placed) :
    Guarded (Drawing width height) :=
  Drawing.flipRows edges (p.x % width) ⟨d, [], false⟩ (p.y % height) p.rows

/-- Draws sprites, unless a flip is refused. -/
def drawAllGuarded (edges : Edges) (d : Display width height) (sprites : List Placed) :
    Guarded (Display width height) :=
  sprites.foldlM (fun d p => return (← d.drawGuarded edges p).display) d

variable (hw : 0 < width) (hh : 0 < height)
include hw hh

theorem drawGuarded_eq (d : Display width height) (p : Placed) :
    d.drawGuarded edges p = .ok (d.draw edges p.x p.y p.rows) := by
  obtain ⟨hx, hy⟩ := corner_nonneg hw hh p.x p.y
  rw [drawGuarded, Drawing.flipRows_eq _ hx hy hw hh]
  simp only [Drawing.extend, List.nil_append, Bool.false_or, draw]

theorem drawAllGuarded_eq (d : Display width height) (sprites : List Placed) :
    d.drawAllGuarded edges sprites = .ok (d.drawAll edges sprites) := by
  induction sprites generalizing d with
  | nil => rfl
  | cons p sprites ih =>
    rw [drawAllGuarded, List.foldlM_cons, drawGuarded_eq hw hh]
    exact ih _

/-- Drawing sprites is a commutative action, of which every sprite is its own inverse. No
    flip is refused, whatever the sprites, and a pixel is flipped as often as set bits of
    them land on it, so that what they leave on the grid depends neither on their order nor
    on two equal ones among them. In particular drawing a sprite twice restores the grid. -/
theorem sprites_commute_and_cancel (edges : Edges) (d : Display width height)
    (sprites : List Placed) :
    d.drawAllGuarded edges sprites = .ok (d.drawAll edges sprites) ∧
      (∀ px py, (d.drawAll edges sprites).lit px py =
        (d.lit px py ^^ (sprites.map (landings edges · px py)).sum.bodd)) ∧
      (∀ sprites', sprites.Perm sprites' →
        (d.drawAll edges sprites').cells = (d.drawAll edges sprites).cells) ∧
      (∀ p first between rest, sprites = first ++ p :: (between ++ p :: rest) →
        (d.drawAll edges (first ++ (between ++ rest))).cells = (d.drawAll edges sprites).cells) ∧
      ∀ x y rows, ((d.draw edges x y rows).display.draw edges x y rows).display.cells =
        d.cells := by
  refine ⟨drawAllGuarded_eq hw hh d sprites, lit_drawAll d edges sprites,
    fun sprites' h => d.cells_drawAll_perm h.symm, ?_,
    fun x y rows => d.cells_drawAll_pair ⟨x, y, rows⟩ []⟩
  rintro p first between rest rfl
  -- Both are moved to the front, where nothing stands between them.
  have hfront : (first ++ p :: (between ++ p :: rest)).Perm
      (p :: p :: (first ++ (between ++ rest))) := by
    refine List.perm_middle.trans (List.Perm.cons p ?_)
    rw [← List.append_assoc, ← List.append_assoc]
    exact List.perm_middle
  rw [d.cells_drawAll_perm hfront, cells_drawAll_pair]

omit hw hh

/-- A sprite larger than the grid that it is drawn on. -/
def large : Placed := ⟨-1, 3, [0xFF, 0x81, -2]⟩

/-- A sprite of one pixel, the last one of the grid. -/
def small : Placed := ⟨5, -7, [0x180]⟩

/-- Bits of the large sprite land on each other. Still the order does not matter, and
    the large one cancels itself out with the small one in between. -/
theorem sprites_commute_and_cancel_large :
    let d := dark 3 2 false
    (0 < 3 ∧ 0 < 2) ∧
      (d.drawAll .wrap [large]).cells.toList = [true, false, true, true, false, false] ∧
      (d.drawAll .wrap [small, large]).cells = (d.drawAll .wrap [large, small]).cells ∧
      (d.drawAll .wrap [small]).cells = (d.drawAll .wrap [large, small, large]).cells ∧
      (d.drawAll .wrap [small]).lit 2 1 = true := by
  intro d
  have hsize : 0 < 3 ∧ 0 < 2 := by decide
  obtain ⟨-, -, horder, -⟩ :=
    sprites_commute_and_cancel hsize.1 hsize.2 .wrap d [large, small]
  obtain ⟨-, -, -, hpair, -⟩ :=
    sprites_commute_and_cancel hsize.1 hsize.2 .wrap d [large, small, large]
  exact ⟨hsize, by decide +kernel, horder _ (List.Perm.swap _ _ _), hpair large [] [small] [] rfl,
    by decide +kernel⟩

end Display

end Chip8
