import Chip8.Proofs.Mirror
import Chip8.Renderer.Window

/-!
# The picture of a window

A window keeps the colours of all pixels in one row of bytes, three bytes a pixel,
and changes them in place. With two whole colours (`Colour`) the row is at all
times what writing the colours of the grid one after the other would give
(`Window.Depicts`).

* `Palette.parse_text`: two groups of six hexadecimal digits are a palette of two
  colours of three bytes;
* `piece_flatMap`, `flatMap_set`: rows made of pieces of one length;
* `depicts_resolution`, `Depicts.handle_pixel`: a window that is told a size
  depicts a dark grid, and one that is told of a pixel the grid with this pixel.
-/

namespace Chip8

/-! ### Colours -/

/-- A colour as it is written, six hexadecimal digits. -/
structure Colour where
  digits : List Char
  length : digits.length = 6
  hex : ∀ c ∈ digits, (Hex.value? c).isSome = true

namespace Colour

/-- The bytes of a colour, two digits each. -/
def bytes (colour : Colour) : List UInt8 :=
  (Hex.toBytes? colour.digits).getD []

theorem le_toNat_of_hex {c : Char} (h : (Hex.value? c).isSome = true) : '0'.toNat ≤ c.toNat := by
  have hle {a : Char} (h : a ≤ c) : a.toNat ≤ c.toNat := h
  unfold Hex.value? at h
  split at h
  next hdigit => exact hle hdigit.1
  split at h
  next hlower => exact Nat.le_trans (by decide) (hle hlower.1)
  split at h
  next hupper => exact Nat.le_trans (by decide) (hle hupper.1)
  cases h

/-- A digit is no blank, so that a group of digits has no blanks to skip. -/
theorem not_isBlank_of_hex {c : Char} (h : (Hex.value? c).isSome = true) :
    Palette.isBlank c = false := by
  have hle : 48 ≤ c.toNat := le_toNat_of_hex h
  have hspace : c ≠ ' ' := fun e => by subst e; cases h
  simp only [Palette.isBlank, Bool.or_eq_false_iff, beq_eq_false_iff_ne, Bool.and_eq_false_iff,
    decide_eq_false_iff_not]
  exact ⟨hspace, .inr (by omega)⟩

/-- Pairs of digits are read, each as a byte. -/
theorem exists_bytes_of_hex {digits : List Char}
    (hhex : ∀ c ∈ digits, (Hex.value? c).isSome = true) (heven : digits.length % 2 = 0) :
    ∃ bytes, Hex.toBytes? digits = some bytes ∧ Palette.readPairs? digits = some bytes ∧
      2 * bytes.length = digits.length := by
  fun_induction Hex.toBytes? digits with
  | case1 => exact ⟨[], rfl, rfl, rfl⟩
  | case2 high low rest ih =>
    simp only [List.forall_mem_cons] at hhex
    obtain ⟨hhigh, hlow, hrest⟩ := hhex
    obtain ⟨h, hh⟩ := Option.isSome_iff_exists.1 hhigh
    obtain ⟨l, hl⟩ := Option.isSome_iff_exists.1 hlow
    simp only [List.length_cons] at heven ⊢
    obtain ⟨bytes, hbytes, hpairs, hlength⟩ := ih hrest (by omega)
    refine ⟨UInt8.ofNat (16 * h + l) :: bytes, ?_, ?_, ?_⟩
    · simp only [hh, hl, hbytes]
      rfl
    · simp only [Palette.readPairs?, not_isBlank_of_hex hhigh, hh, hl, hpairs]
      rfl
    · simp only [List.length_cons]
      omega
  | case3 c => cases heven

theorem readPairs?_digits (colour : Colour) :
    Palette.readPairs? colour.digits = some colour.bytes ∧ colour.bytes.length = 3 := by
  obtain ⟨read, hread, hpairs, hlength⟩ := exists_bytes_of_hex colour.hex (by rw [colour.length])
  rw [bytes, hread, Option.getD_some]
  rw [colour.length] at hlength
  exact ⟨hpairs, by omega⟩

theorem length_bytes (colour : Colour) : colour.bytes.length = 3 :=
  colour.readPairs?_digits.2

theorem readColour_digits (colour : Colour) :
    Palette.readColour colour.digits = .ok colour.bytes := by
  simp only [Palette.readColour, colour.length, colour.readPairs?_digits.1, ne_eq,
    not_true_eq_false, if_false]

theorem comma_not_mem (colour : Colour) : ',' ∉ colour.digits := by
  intro h
  cases colour.hex _ h

end Colour

namespace Palette

/-- The text of a palette of two colours. -/
def text (background foreground : Colour) : String :=
  String.ofList (background.digits ++ ',' :: foreground.digits)

/-- The palette of two colours. -/
def ofColours (background foreground : Colour) : Palette :=
  ⟨background.bytes, foreground.bytes⟩

theorem parse_text (background foreground : Colour) :
    parse (text background foreground) = .ok (ofColours background foreground) := by
  rw [parse, text, String.toList_ofList, Text.splitAt_eq_splitOn,
    List.splitOn_append_cons_self_of_not_mem background.comma_not_mem,
    List.splitOn_eq_singleton foreground.comma_not_mem]
  simp only [background.readColour_digits, foreground.readColour_digits]
  rfl

theorem length_colour (background foreground : Colour) (lit : Bool) :
    ((ofColours background foreground).colour lit).length = 3 := by
  cases lit
  · exact background.length_bytes
  · exact foreground.length_bytes

end Palette

/-! ### Rows made of pieces -/

section Pieces

variable {α β : Type} {f : α → List β} {n : Nat}

/-- Whole pieces come and go with their items. -/
theorem take_drop_flatMap (hf : ∀ a, (f a).length = n) (l : List α) (k : Nat) :
    (l.flatMap f).take (n * k) = (l.take k).flatMap f ∧
      (l.flatMap f).drop (n * k) = (l.drop k).flatMap f := by
  induction l generalizing k with
  | nil => simp
  | cons a l ih =>
    cases k with
    | zero => exact ⟨rfl, rfl⟩
    | succ k =>
      have hlength : n * (k + 1) = (f a).length + n * k := by rw [hf, Nat.mul_succ, Nat.add_comm]
      obtain ⟨htake, hdrop⟩ := ih k
      rw [List.flatMap_cons, hlength, List.take_length_add_append, List.drop_length_add_append,
        htake, hdrop]
      exact ⟨rfl, rfl⟩

/-- The piece of an item. -/
theorem piece_flatMap (hf : ∀ a, (f a).length = n) (l : List α) {k : Nat} (hk : k < l.length) :
    ((l.flatMap f).drop (n * k)).take n = f l[k] := by
  rw [(take_drop_flatMap hf l k).2, List.drop_eq_getElem_cons hk, List.flatMap_cons,
    List.take_left' (hf _)]

/-- The piece of an item replaced by that of another one. -/
theorem flatMap_set (hf : ∀ a, (f a).length = n) (l : List α) {k : Nat} (hk : k < l.length)
    (a : α) :
    (l.flatMap f).take (n * k) ++ f a ++ (l.flatMap f).drop (n * k + n) =
      (l.set k a).flatMap f := by
  rw [List.set_eq_take_append_cons_drop, if_pos hk, (take_drop_flatMap hf l k).1, ← Nat.mul_succ,
    (take_drop_flatMap hf l (k + 1)).2, List.flatMap_append, List.flatMap_cons, List.append_assoc]

end Pieces

/-! ### Grids -/

section Grid

variable {width height : Nat}

/-- The pixels of a grid, row by row. -/
def Mirror.pixels (p : Mirror) (width height : Nat) : List Bool :=
  (List.range (width * height)).map fun k => p (k % width : Nat) (k / width : Nat)

@[simp] theorem Mirror.length_pixels (p : Mirror) :
    (p.pixels width height).length = width * height := by
  simp [pixels]

theorem Mirror.pixels_blank :
    blank.pixels width height = List.replicate (width * height) false := by
  simp [pixels, blank]

/-- Painting a pixel replaces it. -/
theorem Mirror.pixels_paint (p : Mirror) {x y : Nat} (hx : x < width) (lit : Bool) :
    (p.paint (.pixel x y lit)).pixels width height =
      (p.pixels width height).set (y * width + x) lit := by
  refine List.ext_getElem (by simp) fun k _ _ => ?_
  have hplace : (k % width = x ∧ k / width = y) ↔ y * width + x = k := by
    constructor
    · rintro ⟨rfl, rfl⟩
      rw [Nat.mul_comm, Nat.div_add_mod]
    · rintro rfl
      rw [Nat.mul_add_mod', Nat.mod_eq_of_lt hx, Nat.mul_comm, Nat.mul_add_div (by omega),
        Nat.div_eq_of_lt hx]
      exact ⟨rfl, rfl⟩
  simp only [pixels, List.getElem_map, List.getElem_range, List.getElem_set, paint,
    Int.natCast_inj, hplace]

/-- The picture of a grid tells its cells. -/
theorem Display.Mirrors.cell {p : Mirror} {d : Display width height} (h : Mirrors p d)
    (k : Fin (width * height)) : p (k % width : Nat) (k / width : Nat) = d.cells[k] := by
  obtain ⟨px, py, rfl⟩ := exists_cellAt k
  obtain ⟨hx, hy⟩ := cellAt_emod px py
  rw [Int.natCast_emod, Int.natCast_ediv, hx, hy]
  exact h px py

end Grid

/-! ### Windows -/

namespace Renderer

namespace Picture

/-- The bytes of a pixel. -/
def pixel (p : Picture) (k : Nat) : List UInt8 :=
  (p.bytes.toList.drop (3 * k)).take 3

theorem toList_filled (colour : List UInt8) (pixels : Nat) :
    (filled colour pixels).bytes.toList = (List.replicate pixels colour).flatten := by
  simp [filled]

/-- A colour of three bytes replaces those of a pixel. -/
theorem setPixel?_eq_some (p : Picture) {pixels k : Nat} (hsize : p.size = 3 * pixels)
    (hk : k < pixels) {colour : List UInt8} (hcolour : colour.length = 3) :
    ∃ p', p.setPixel? k colour = some p' ∧
      p'.bytes.toList =
        p.bytes.toList.take (3 * k) ++ colour ++ p.bytes.toList.drop (3 * k + 3) := by
  obtain ⟨size, bytes⟩ := p
  subst hsize
  have hspan : Span.of (3 * pixels) (k * 3) (k * 3 + 3) = ⟨3 * k, 3⟩ := by
    simp only [Span.of, bound, Span.mk.injEq]
    rw [if_neg (by omega), if_neg (by omega)]
    omega
  have hbytes : (overwrite bytes (3 * k) colour).toList =
      bytes.toList.take (3 * k) ++ colour ++ bytes.toList.drop (3 * k + colour.length) :=
    toList_overwrite bytes (by omega)
  rw [hcolour] at hbytes
  refine ⟨⟨_, overwrite bytes (3 * k) colour⟩, ?_, hbytes⟩
  simp only [setPixel?, overwrite?, hspan, hcolour, if_true, Option.map_some]

end Picture

namespace Window

variable {width height : Nat} {w : Window} {palette : Palette} {p : Mirror}

/-- The picture of a window is that of a grid, in the colours of a palette. -/
structure Depicts (w : Window) (palette : Palette) (width height : Nat) (p : Mirror) : Prop where
  columns : w.base.width = width
  rows : w.base.height = height
  colours : w.palette = palette
  bytes : w.picture.bytes.toList = (p.pixels width height).flatMap palette.colour

/-- A window that is told the size of a grid depicts it dark, and shows it at once. -/
theorem depicts_resolution (w : Window) (width height : Nat) :
    ∃ w', w.handle (.resolution width height) = .ok (w', w'.showCalls) ∧
      w'.Depicts w.palette width height .blank := by
  refine ⟨_, rfl, rfl, rfl, rfl, ?_⟩
  have hpixels : ((width : Int) * height).toNat = width * height := by
    rw [← Int.natCast_mul, Int.toNat_natCast]
  rw [Picture.toList_filled, Mirror.pixels_blank, List.flatMap_def, List.map_replicate, hpixels]
  rfl

section

variable (hcolour : ∀ lit, (palette.colour lit).length = 3)
include hcolour

theorem Depicts.size (h : w.Depicts palette width height p) :
    w.picture.size = 3 * (width * height) := by
  have hbytes := congrArg List.length h.bytes
  simpa [List.length_flatMap, hcolour, Nat.mul_comm] using hbytes

theorem Depicts.pixel (h : w.Depicts palette width height p) {k : Nat} (hk : k < width * height) :
    w.picture.pixel k = palette.colour (p (k % width : Nat) (k / width : Nat)) := by
  have hlength : k < (p.pixels width height).length := by rwa [Mirror.length_pixels]
  rw [Picture.pixel, h.bytes, piece_flatMap hcolour _ hlength]
  simp [Mirror.pixels]

/-- A window that is told of a pixel depicts the grid with this pixel. -/
theorem Depicts.handle_pixel (h : w.Depicts palette width height p) {x y : Nat}
    (hx : x < width) (hy : y < height) (lit : Bool) :
    ∃ w', w.handle (.pixel x y lit) = .ok (w', []) ∧
      w'.Depicts palette width height (p.paint (.pixel x y lit)) := by
  have hk : y * width + x < width * height := (Display.cellAt ⟨x, hx⟩ ⟨y, hy⟩).isLt
  have hlength : y * width + x < (p.pixels width height).length := by rwa [Mirror.length_pixels]
  have hindex : (y : Int) * w.base.width + x = (y * width + x : Nat) := by
    rw [h.columns]
    simp
  obtain ⟨picture, hset, hbytes⟩ :=
    w.picture.setPixel?_eq_some (h.size hcolour) hk (hcolour lit)
  rw [h.bytes, flatMap_set hcolour _ hlength, ← Mirror.pixels_paint p hx] at hbytes
  simp only [handle, hindex, h.colours, hset]
  exact ⟨_, rfl, h.columns, h.rows, rfl, hbytes⟩

end

end Window

end Renderer

end Chip8
