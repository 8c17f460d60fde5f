import Chip8.Proofs.Mirror

/-!
# Clipping at the edges

A display that clips looks at the right and the bottom edge only. Sprites do not go past
the other two, as their corner is wrapped into the grid first, but a single pixel may be
asked for at any position. One left of or above the grid has an offset like any other: it
may be that of a pixel in another row, or count from the end of the grid, and if it is
further away than that it is refused.

* `Hits`, `Ignores`, `Refuses`: what may become of a position that is read and flipped;
* `ClipsAt`: what should become of it, if all four edges are to clip;
* `Stray`: a position left of or above the grid that is past no other edge;
* `clipsAt_iff_not_stray`: all four edges clip, but for the stray positions.
-/

namespace Chip8

namespace Display

variable {width height : Nat} (d : Display width height) (edges : Edges) (x y : Int)

/-- A position is read and flipped as a cell, and no other one changes. -/
structure Hits (k : Fin (width * height)) : Prop where
  pixel : d.pixel edges x y = .ok d.cells[k]
  flip : ∃ drawing, d.flip edges x y = .ok (some drawing) ∧ drawing.collided = d.cells[k] ∧
    ∀ j, drawing.display.cells[j] = (d.cells[j] ^^ decide (k = j))

/-- A position is clipped: it is not lit, and flipping it gives no answer, changes nothing
    and tells the renderer nothing. -/
structure Ignores : Prop where
  pixel : d.pixel edges x y = .ok false
  flip : d.flip edges x y = .ok none
  perform : d.perform edges (.flip x y) = ⟨d, [], false⟩

/-- A position is neither read nor flipped, and not clipped either. -/
structure Refuses : Prop where
  pixel : d.pixel edges x y = .error .noSuchPixel
  flip : d.flip edges x y = .error .noSuchPixel

/-- A position of the grid. -/
abbrev Inside (width height : Nat) (x y : Int) : Prop :=
  (0 ≤ x ∧ x < width) ∧ 0 ≤ y ∧ y < height

/-- What all four edges clipping means for a position: it is its own cell if it is one of
    the grid, and clipped otherwise. -/
structure ClipsAt : Prop where
  inside : Inside width height x y → ∃ k, ((k : Fin (width * height)) : Int) = y * width + x ∧
    d.Hits .clip x y k
  outside : ¬Inside width height x y → d.Ignores .clip x y

/-- A position left of or above the grid, and not past the right or the bottom edge. -/
abbrev Stray (width height : Nat) (x y : Int) : Prop :=
  (x < 0 ∨ y < 0) ∧ x < width ∧ y < height

variable {d edges x y} {offset : Int} {k : Fin (width * height)}

theorem hits_of_locate (hloc : locate width height edges x y = some offset)
    (hk : position? (width * height) offset = some k) : d.Hits edges x y k where
  pixel := by simp only [pixel, hloc, hk]
  flip := ⟨d.toggle offset k, by simp only [flip, hloc, hk], rfl, fun _ => cells_toggle d⟩

theorem refuses_of_locate (hloc : locate width height edges x y = some offset)
    (hnone : position? (width * height) offset = none) : d.Refuses edges x y where
  pixel := by simp only [pixel, hloc, hnone]
  flip := by simp only [flip, hloc, hnone]

theorem ignores_of_locate (hloc : locate width height edges x y = none) :
    d.Ignores edges x y where
  pixel := by simp only [pixel, hloc]
  flip := by simp only [flip, hloc]
  perform := by simp only [perform, flip, hloc]

/-- A position that is clipped has no offset. -/
theorem Ignores.locate (h : d.Ignores edges x y) :
    Display.locate width height edges x y = none := by
  cases hloc : Display.locate width height edges x y with
  | none => rfl
  | some offset =>
    have hflip := h.flip
    cases hk : position? (width * height) offset with
    | none => exact nomatch hflip.symm.trans (refuses_of_locate hloc hk).flip
    | some k =>
      obtain ⟨drawing, hsome, -⟩ := (hits_of_locate (d := d) hloc hk).flip
      exact nomatch hflip.symm.trans hsome

/-! ### A display that clips -/

theorem locate_clip_eq_none_iff :
    locate width height .clip x y = none ↔ width ≤ x ∨ height ≤ y := by
  simp only [locate, ite_eq_left_iff, reduceCtorEq, imp_false, not_not]

theorem locate_clip (h : x < width ∧ y < height) :
    locate width height .clip x y = some (y * width + x) := by
  rw [locate, if_neg (by omega)]

/-- A position past neither the right nor the bottom edge has its offset before the end of
    the grid. -/
theorem offset_lt (h : x < width ∧ y < height) : y * width + x < (width * height : Nat) := by
  -- The offsets of a row are past those of the rows above it, and `y` is the last one at most.
  have hrow : y * width ≤ (height - 1) * width :=
    Int.mul_le_mul_of_nonneg_right (by omega) (Int.natCast_nonneg _)
  rw [Int.sub_mul, Int.one_mul] at hrow
  rw [Nat.mul_comm, Int.natCast_mul]
  omega

theorem hits_of_inside (d : Display width height) (h : Inside width height x y) :
    ∃ k, ((k : Fin (width * height)) : Int) = y * width + x ∧ d.Hits .clip x y k := by
  have hnonneg : 0 ≤ y * width + x :=
    Int.add_nonneg (Int.mul_nonneg h.2.1 (Int.natCast_nonneg _)) h.1.1
  have hlt : y * width + x < (width * height : Nat) := offset_lt ⟨h.1.2, h.2.2⟩
  obtain ⟨k, hk⟩ := Int.eq_ofNat_of_zero_le hnonneg
  refine ⟨⟨k, by omega⟩, hk.symm, hits_of_locate (locate_clip ⟨h.1.2, h.2.2⟩) ?_⟩
  rw [hk]
  exact position?_coe ⟨k, by omega⟩

/-- A stray position is not one of the grid, but has an offset, so that it is not clipped. -/
theorem Stray.not_clipsAt (h : Stray width height x y) : ¬d.ClipsAt x y := by
  rintro ⟨-, houtside⟩
  have hout : ¬Inside width height x y := by
    simp only [Stray, Inside] at h ⊢
    omega
  have hnone := (houtside hout).locate
  rw [locate_clip h.2] at hnone
  cases hnone

/-- Which positions a display clips as all four edges would have it: every one that is not
    a stray one. A stray one has a cell of another row, or one counted from the end of the
    grid, unless it is further away than the grid is large. -/
theorem clipsAt_iff_not_stray (d : Display width height) (x y : Int) :
    (d.ClipsAt x y ↔ ¬Stray width height x y) ∧
      (Stray width height x y →
        let offset := y * width + x
        if -(width * height : Nat) ≤ offset then
          ∃ k, ((k : Fin (width * height)) : Int) = offset % (width * height : Nat) ∧
            d.Hits .clip x y k
        else d.Refuses .clip x y) := by
  constructor
  · constructor
    · exact fun hclips hstray => hstray.not_clipsAt hclips
    · intro hstray
      refine ⟨d.hits_of_inside, fun hout => ignores_of_locate (locate_clip_eq_none_iff.2 ?_)⟩
      simp only [Stray, Inside] at hstray hout
      omega
  · rintro ⟨-, hnotPast⟩ offset
    have hloc : locate width height .clip x y = some offset := locate_clip hnotPast
    have hlt : offset < (width * height : Nat) := offset_lt hnotPast
    split
    · cases hk : position? (width * height) offset with
      | none =>
        have := position?_eq_none_iff.1 hk
        omega
      | some k => exact ⟨k, (position?_eq_some_iff.1 hk).2, hits_of_locate hloc hk⟩
    · exact refuses_of_locate hloc (position?_eq_none_iff.2 (.inl (by omega)))

/-- A pixel left of the sixth row is that at the end of the fifth row, and one far above
    the grid is refused. -/
theorem not_clipsAt_leftEdge :
    let d := dark 64 32 false
    ¬d.ClipsAt (-1) 5 ∧ d.Hits .clip (-1) 5 (cellAt 63 4) ∧
      ¬d.ClipsAt 0 (-40) ∧ d.Refuses .clip 0 (-40) := by
  intro d
  have hleft : Stray 64 32 (-1) 5 := by decide
  have habove : Stray 64 32 0 (-40) := by decide
  exact ⟨hleft.not_clipsAt, hits_of_locate (locate_clip hleft.2) (by decide), habove.not_clipsAt,
    refuses_of_locate (locate_clip habove.2) (by decide)⟩

end Display

end Chip8
