import Chip8.Proofs.Sprite

/-!
# Renderers mirror the grid

A renderer never looks at the grid of a display; it is only told which pixels
are lit or dark from now on. If it keeps what it is told (`Mirror`), it has the
picture of the grid, whatever the display has been asked to do
(`mirrors_performAll`):

* `InGrid`: a position that is not clipped has the offset of a cell;
* `Drawing.Faithful`: a drawing tells of pixels of the grid only, and of all
  that it changes;
* `faithful_perform`: every drawing is faithful.

A clipping display is not to be asked to flip pixels left of or above the grid:
it does not clip these, and their offsets may count from the end of the grid.
-/

namespace Chip8

/-- What a renderer has been told: which pixels are lit, wherever they are. -/
abbrev Mirror := Int → Int → Bool

namespace Mirror

/-- No pixel is lit. -/
def blank : Mirror := fun _ _ => false

/-- The picture after a command. -/
def paint (p : Mirror) : RenderCommand → Mirror
  | .pixel x y lit => fun px py => if px = x ∧ py = y then lit else p px py
  | _ => p

/-- The picture after commands. -/
def paintAll (p : Mirror) (commands : List RenderCommand) : Mirror :=
  commands.foldl paint p

theorem paintAll_append (p : Mirror) (first rest : List RenderCommand) :
    p.paintAll (first ++ rest) = (p.paintAll first).paintAll rest :=
  List.foldl_append

/-- The picture of a grid row by row, one number a pixel. -/
def view (p : Mirror) (width height : Nat) : List Nat :=
  (List.range height).flatMap fun (y : Nat) => (List.range width).map fun (x : Nat) => (p x y).toNat

end Mirror

/-- A pixel that a command writes is one of the grid. -/
def RenderCommand.Inside (width height : Nat) (c : RenderCommand) : Prop :=
  ∀ x y lit, c = .pixel x y lit → (0 ≤ x ∧ x < width) ∧ 0 ≤ y ∧ y < height

namespace Display

variable {width height : Nat}

/-- The cells row by row, one number a cell. -/
def view (d : Display width height) : List Nat :=
  d.cells.toList.map Bool.toNat

/-- What a display is asked to do. -/
inductive Request
  | draw (x y : Int) (rows : List Int)
  | flip (x y : Int)
  | look (x y : Int)
  | clear
  | refresh

/-- What a request does. A pixel that is clipped, or that is not found, is not
    flipped. -/
def perform (edges : Edges) (d : Display width height) : Request → Drawing width height
  | .draw x y rows => d.draw edges x y rows
  | .flip x y =>
    match d.flip edges x y with
    | .ok (some drawing) => drawing
    | _ => ⟨d, [], false⟩
  | .look _ _ => ⟨d, [], false⟩
  | .clear => d.clear
  | .refresh => d.refresh

/-- What requests do, one after the other. -/
def performAll (edges : Edges) (d : Display width height) : List Request → Drawing width height
  | [] => ⟨d, [], false⟩
  | r :: rest =>
    let first := d.perform edges r
    let others := first.display.performAll edges rest
    ⟨others.display, first.commands ++ others.commands, first.collided || others.collided⟩

/-- A position that a clipping display is asked to flip is not negative. -/
def Request.Sound (edges : Edges) : Request → Prop
  | .flip x y => edges = .wrap ∨ 0 ≤ x ∧ 0 ≤ y
  | _ => True

/-! ### Offsets of cells -/

/-- An offset is that of a cell, counted from the start of the grid. -/
def InGrid (width height : Nat) (offset : Int) : Prop :=
  ∃ (px : Fin width) (py : Fin height), offset = ((cellAt px py).val : Nat)

variable {edges : Edges} {x y offset : Int}

theorem inGrid_of_locate (hw : 0 < width) (hh : 0 < height)
    (h : locate width height edges x y = some offset) (hsound : edges = .wrap ∨ 0 ≤ x ∧ 0 ≤ y) :
    InGrid width height offset := by
  -- Wrapping takes a position to one that is not negative before anything else.
  obtain ⟨x, y, hx, hy, h⟩ :
      ∃ x y, 0 ≤ x ∧ 0 ≤ y ∧ locate width height edges x y = some offset := by
    rcases hsound with rfl | ⟨hx, hy⟩
    · refine ⟨x % width, y % height, Int.emod_nonneg x (by omega), Int.emod_nonneg y (by omega), ?_⟩
      rw [← h]
      simp only [locate, Int.emod_emod]
    · exact ⟨x, y, hx, hy, h⟩
  rcases locate_cases edges hx hy hw hh with ⟨q, p, -, hloc⟩ | ⟨-, hloc⟩
  · exact ⟨q, p, Option.some.inj (h.symm.trans hloc)⟩
  · rw [hloc] at h
    cases h

theorem inGrid_spriteOffsets (hw : 0 < width) (hh : 0 < height) (hx : 0 ≤ x) (hy : 0 ≤ y)
    (rows : List Int) :
    ∀ offset ∈ spriteOffsets width height edges x y rows, InGrid width height offset := by
  intro offset hoffset
  have h := @spriteOffsets_eq width height edges x y 0 rows
  rw [Int.natCast_zero, Int.add_zero] at h
  rw [h] at hoffset
  obtain ⟨b, _, hb⟩ := List.mem_filterMap.1 hoffset
  exact inGrid_of_locate hw hh hb (.inr ⟨by omega, by omega⟩)

/-! ### Faithful drawings -/

/-- A renderer has the picture of a grid. -/
def Mirrors (p : Mirror) (d : Display width height) : Prop :=
  ∀ (px : Fin width) (py : Fin height), p px py = d.lit px py

end Display

/-- The commands of a drawing tell of pixels of the grid, and take the picture of
    the grid before it to the one after it. -/
structure Drawing.Faithful {width height : Nat} (d : Display width height)
    (drawing : Drawing width height) : Prop where
  inside : ∀ c ∈ drawing.commands, c.Inside width height
  mirrors : ∀ p, Display.Mirrors p d → Display.Mirrors (p.paintAll drawing.commands) drawing.display

namespace Drawing

variable {width height : Nat} {d : Display width height}

theorem faithful_nothing (d : Display width height) : Faithful d ⟨d, [], false⟩ where
  inside := fun _ hc => absurd hc List.not_mem_nil
  mirrors := fun _ h => h

/-- One faithful drawing after another. -/
theorem Faithful.append {first others : Drawing width height} {collided : Bool}
    (h : Faithful d first) (h' : Faithful first.display others) :
    Faithful d ⟨others.display, first.commands ++ others.commands, collided⟩ where
  inside := fun c hc => (List.mem_append.1 hc).elim (h.inside c) (h'.inside c)
  mirrors := fun p hp => by
    rw [Mirror.paintAll_append]
    exact h'.mirrors _ (h.mirrors p hp)

end Drawing

namespace Display

variable {width height : Nat} {edges : Edges} {x y offset : Int} (d : Display width height)

theorem lit_toggle (px q : Fin width) (py r : Fin height) :
    (d.toggle offset (cellAt q r)).display.lit px py =
      if px = q ∧ py = r then !d.lit q r else d.lit px py := by
  rw [lit, cells_toggle]
  by_cases h : px = q ∧ py = r
  · obtain ⟨rfl, rfl⟩ := h
    simp [lit]
  · have hne : cellAt q r ≠ cellAt px py := fun e => h ((cellAt_inj.1 e).imp Eq.symm Eq.symm)
    simp [lit, h, hne]

/-- The offset of a cell gives the column and the row of its pixel. -/
theorem cellAt_emod (px : Fin width) (py : Fin height) :
    (((cellAt px py).val : Nat) : Int) % width = px ∧
      (((cellAt px py).val : Nat) : Int) / width = py := by
  have hmod : (py.val * width + px.val) % width = px.val := by
    rw [Nat.mul_add_mod', Nat.mod_eq_of_lt px.isLt]
  have hdiv : (py.val * width + px.val) / width = py.val := by
    rw [Nat.mul_comm, Nat.mul_add_div px.pos, Nat.div_eq_of_lt px.isLt, Nat.add_zero]
  exact ⟨congrArg Nat.cast hmod, congrArg Nat.cast hdiv⟩

/-- A flip tells of the pixel whose cell it flips. -/
theorem faithful_toggle (q : Fin width) (r : Fin height) :
    Drawing.Faithful d (d.toggle ((cellAt q r).val : Nat) (cellAt q r)) := by
  obtain ⟨hx, hy⟩ := cellAt_emod q r
  have hcommands : (d.toggle ((cellAt q r).val : Nat) (cellAt q r)).commands =
      [.pixel q r !d.lit q r] := by
    simp only [toggle, hx, hy, lit]
  constructor
  · intro c hc x y lit h
    rw [hcommands, List.mem_singleton] at hc
    cases hc.symm.trans h
    exact ⟨by omega, by omega⟩
  · intro p hp px py
    rw [hcommands, lit_toggle, Mirror.paintAll, List.foldl_cons, List.foldl_nil, Mirror.paint]
    simp only [Int.natCast_inj, Fin.val_inj, hp px py]

theorem faithful_toggleAll {offsets : List Int}
    (h : ∀ offset ∈ offsets, InGrid width height offset) :
    Drawing.Faithful d (d.toggleAll offsets) := by
  induction offsets generalizing d with
  | nil => exact Drawing.faithful_nothing d
  | cons offset rest ih =>
    obtain ⟨q, r, rfl⟩ := h offset List.mem_cons_self
    rw [toggleAll_cons_of_some d (position?_coe (cellAt q r))]
    exact (d.faithful_toggle q r).append (ih _ fun o ho => h o (List.mem_cons_of_mem _ ho))

theorem mem_erasure (px : Fin width) (py : Fin height) :
    .pixel px py false ∈ erasure width height :=
  List.mem_flatMap.2 ⟨py, List.mem_range.2 py.isLt,
    List.mem_map.2 ⟨px, List.mem_range.2 px.isLt, rfl⟩⟩

theorem exists_of_mem_erasure {c : RenderCommand} (h : c ∈ erasure width height) :
    ∃ (px : Fin width) (py : Fin height), c = .pixel px py false := by
  obtain ⟨py, hpy, h⟩ := List.mem_flatMap.1 h
  obtain ⟨px, hpx, rfl⟩ := List.mem_map.1 h
  exact ⟨⟨px, List.mem_range.1 hpx⟩, ⟨py, List.mem_range.1 hpy⟩, rfl⟩

/-- A pixel that was told to be dark, and never to be lit, is dark. -/
theorem paintAll_eq_false {commands : List RenderCommand} {px py : Int} {p : Mirror}
    (hdark : ∀ x y, .pixel x y true ∉ commands)
    (h : .pixel px py false ∈ commands ∨ p px py = false) :
    p.paintAll commands px py = false := by
  induction commands generalizing p with
  | nil => exact h.resolve_left List.not_mem_nil
  | cons c commands ih =>
    refine ih (fun x y hxy => hdark x y (List.mem_cons_of_mem _ hxy)) ?_
    rcases h with h | h
    · rcases List.mem_cons.1 h with rfl | h
      · exact .inr (if_pos ⟨rfl, rfl⟩)
      · exact .inl h
    · refine .inr ?_
      cases c with
      | pixel x y lit =>
        cases lit with
        | true => exact absurd List.mem_cons_self (hdark x y)
        | false =>
          simp only [Mirror.paint]
          split
          · rfl
          · exact h
      | resolution | refresh | title => exact h

/-- Clearing tells of every pixel. -/
theorem faithful_clear : Drawing.Faithful d d.clear := by
  constructor
  · intro c hc x y lit h
    obtain ⟨px, py, rfl⟩ := exists_of_mem_erasure hc
    cases h
    exact ⟨by omega, by omega⟩
  · intro p _ px py
    have hdark (x y : Int) : .pixel x y true ∉ erasure width height := by
      intro h
      obtain ⟨px, py, h⟩ := exists_of_mem_erasure h
      cases h
    have hlit : (d.clear).display.lit px py = false := by
      simp [clear, dark, lit]
    rw [hlit]
    exact paintAll_eq_false hdark (.inl (mem_erasure px py))

theorem faithful_refresh : Drawing.Faithful d d.refresh where
  inside := fun c hc x y lit h => by
    cases (List.mem_singleton.1 hc).symm.trans h
  mirrors := fun _ h => h

/-! ### Requests -/

/-- Whatever a display is asked to do, its drawing is faithful. -/
theorem faithful_perform {r : Request} (hw : 0 < width) (hh : 0 < height) (hr : r.Sound edges) :
    Drawing.Faithful d (d.perform edges r) := by
  cases r with
  | draw x y rows =>
    exact d.faithful_toggleAll (inGrid_spriteOffsets hw hh (Int.emod_nonneg x (by omega))
      (Int.emod_nonneg y (by omega)) rows)
  | flip x y =>
    simp only [perform, flip]
    cases hloc : locate width height edges x y with
    | none => exact Drawing.faithful_nothing d
    | some offset =>
      obtain ⟨q, r, rfl⟩ := inGrid_of_locate hw hh hloc hr
      simp only [position?_coe]
      exact d.faithful_toggle q r
  | look x y => exact Drawing.faithful_nothing d
  | clear => exact d.faithful_clear
  | refresh => exact d.faithful_refresh

theorem faithful_performAll {requests : List Request} (hw : 0 < width) (hh : 0 < height)
    (hrequests : ∀ r ∈ requests, r.Sound edges) :
    Drawing.Faithful d (d.performAll edges requests) := by
  induction requests generalizing d with
  | nil => exact Drawing.faithful_nothing d
  | cons r rest ih =>
    exact (d.faithful_perform hw hh (hrequests r List.mem_cons_self)).append
      (ih _ fun q hq => hrequests q (List.mem_cons_of_mem _ hq))

/-! ### Views -/

/-- Cells numbered row by row. -/
theorem flatMap_rows (g : Nat → Nat) (width height : Nat) :
    (List.range height).flatMap (fun y => (List.range width).map fun x => g (y * width + x)) =
      (List.range (height * width)).map g := by
  induction height with
  | zero => simp
  | succ height ih =>
    rw [List.range_succ, List.flatMap_append, ih, List.flatMap_singleton, Nat.succ_mul,
      List.range_add, List.map_append, List.map_map]
    rfl

theorem view_eq (d : Display width height) :
    d.view = (List.range (height * width)).map fun k => (d.cells.toList[k]?.getD false).toNat := by
  refine List.ext_getElem (by simp [view, Nat.mul_comm]) fun k hk _ => ?_
  have hk : k < width * height := by simpa [view] using hk
  simp [view, hk]

/-- A renderer that has the picture of a grid has its view. -/
theorem Mirrors.view {d : Display width height} {p : Mirror} (h : Mirrors p d) :
    p.view width height = d.view := by
  rw [view_eq, ← flatMap_rows, Mirror.view]
  refine List.flatMap_congr fun y hy => List.map_congr_left fun x hx => ?_
  have hpixel := h ⟨x, List.mem_range.1 hx⟩ ⟨y, List.mem_range.1 hy⟩
  have hcell := (cellAt ⟨x, List.mem_range.1 hx⟩ ⟨y, List.mem_range.1 hy⟩).isLt
  simp only [cellAt] at hcell
  simp only [hpixel, lit, cellAt, getElem_fin]
  simp [hcell]

/-- Whatever a display is asked to do, it only tells of pixels of its grid, and a
    renderer that was blank and has kept all it was told has the display's view,
    in which all numbers are 0 or 1. -/
theorem mirrors_performAll (hw : 0 < width) (hh : 0 < height) (edges : Edges) (changed : Bool)
    (requests : List Request) (hrequests : ∀ r ∈ requests, r.Sound edges) :
    let drawing := (dark width height changed).performAll edges requests
    (∀ (x y : Int) lit, .pixel x y lit ∈ drawing.commands →
        (0 ≤ x ∧ x < width) ∧ 0 ≤ y ∧ y < height) ∧
      (Mirror.blank.paintAll drawing.commands).view width height = drawing.display.view ∧
      ∀ cell ∈ drawing.display.view, cell = 0 ∨ cell = 1 := by
  intro drawing
  have hfaithful : Drawing.Faithful (dark width height changed) drawing :=
    faithful_performAll _ hw hh hrequests
  have hblank : Mirrors .blank (dark width height changed) := by
    intro px py
    simp [Mirror.blank, lit, dark]
  refine ⟨fun x y lit h => hfaithful.inside _ h x y lit rfl, (hfaithful.mirrors _ hblank).view, ?_⟩
  intro cell hcell
  obtain ⟨lit, -, rfl⟩ := List.mem_map.1 hcell
  cases lit
  · exact .inl rfl
  · exact .inr rfl

/-- A sprite larger than a clipping grid, from a corner that wraps, and flips
    within the grid and beyond it. -/
def clippedRequests : List Request :=
  [.draw (-2) 5 [0xFF, 0x81, 0x3C], .flip 2 1, .look (-1) (-1), .flip 9 1, .refresh]

/-- Of the sprite two pixels of one row are left, and one more is flipped. -/
theorem mirrors_performAll_clippedRequests :
    let drawing := (dark 3 2 false).performAll .clip clippedRequests
    drawing.commands =
        [.pixel 1 1 true, .pixel 2 1 true, .pixel 2 1 false, .refresh true] ∧
      (Mirror.blank.paintAll drawing.commands).view 3 2 = [0, 0, 0, 0, 1, 0] ∧
      drawing.display.view = [0, 0, 0, 0, 1, 0] := by
  have hsound : ∀ r ∈ clippedRequests, r.Sound .clip := by
    intro r hr
    simp only [clippedRequests, List.mem_cons, List.not_mem_nil, or_false] at hr
    obtain rfl | rfl | rfl | rfl | rfl := hr <;> simp [Request.Sound]
  have hwidth : 0 < 3 := by decide
  have hheight : 0 < 2 := by decide
  obtain ⟨-, hview, -⟩ := mirrors_performAll hwidth hheight .clip false clippedRequests hsound
  have hcells : ((dark 3 2 false).performAll .clip clippedRequests).display.view =
      [0, 0, 0, 0, 1, 0] := by
    decide +kernel
  exact ⟨by decide +kernel, hview.trans hcells, hcells⟩

end Display

end Chip8
