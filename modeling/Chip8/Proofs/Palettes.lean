import Chip8.Proofs.Painting
import Chip8.Proofs.Pixels

/-!
# Palettes with gaps

A palette is two groups of six characters. A group is meant to be six hexadecimal digits,
but its reader skips blanks between the pairs, so that some of the six characters may be
blanks, and then the colour has fewer bytes than a pixel (`Gapped`). Such a palette is
accepted all the same, and fails a window later on.

* `Spaced`, `Describes`: the palettes that are accepted, pair by pair;
* `Usable`, `usable_iff`: a window can be told any pixels in colours of three bytes each,
  and in colours of none, of which its picture has no bytes either;
* `exact_iff_not_gapped`: a text is dealt with as meant if it has no gaps.
-/

namespace Chip8

namespace Palette

variable {group text : List Char} {bytes : List UInt8} {p : Palette}

/-! ### What is accepted -/

/-- Pairs of hexadecimal digits with blanks between them, and the bytes of the pairs. -/
inductive Spaced : List Char → List UInt8 → Prop
  | nil : Spaced [] []
  | blank {c : Char} {text : List Char} {bytes : List UInt8} (skipped : isBlank c = true)
      (rest : Spaced text bytes) : Spaced (c :: text) bytes
  | pair {high low : Char} {h l : Nat} {text : List Char} {bytes : List UInt8}
      (first : Hex.value? high = some h) (second : Hex.value? low = some l)
      (rest : Spaced text bytes) :
      Spaced (high :: low :: text) (UInt8.ofNat (16 * h + l) :: bytes)

/-- Two groups of six characters with a comma between them, and their colours. -/
def Describes (text : String) (p : Palette) : Prop :=
  ∃ first second, text.toList.splitOn ',' = [first, second] ∧
    (first.length = 6 ∧ Spaced first p.background) ∧ second.length = 6 ∧
      Spaced second p.foreground

theorem readPairs?_eq_some_iff : readPairs? text = some bytes ↔ Spaced text bytes := by
  constructor
  · intro h
    fun_induction readPairs? text generalizing bytes with
    | case1 => cases h; exact .nil
    | case2 c hblank => cases h; exact .blank hblank .nil
    | case3 => cases h
    | case4 high low rest hblank ih => exact .blank hblank (ih h)
    | case5 high low rest _ ih =>
      simp only [Option.bind_eq_bind, Option.bind_eq_some_iff, Option.pure_def,
        Option.some.injEq] at h
      obtain ⟨h', hhigh, l, hlow, tail, htail, rfl⟩ := h
      exact .pair hhigh hlow (ih htail)
  · intro h
    induction h with
    | nil => rfl
    | @blank c text bytes skipped rest ih =>
      cases text with
      | nil =>
        rw [readPairs?, if_pos skipped]
        exact ih
      | cons low text => rwa [readPairs?, if_pos skipped]
    | pair first second rest ih =>
      have hdigit := Colour.not_isBlank_of_hex (Option.isSome_of_eq_some first)
      simp only [readPairs?, hdigit, first, second, ih]
      rfl

theorem readColour_eq_ok_iff :
    readColour group = .ok bytes ↔ group.length = 6 ∧ Spaced group bytes := by
  rw [readColour, ← readPairs?_eq_some_iff]
  by_cases hlength : group.length = 6
  · rw [if_neg (not_not_intro hlength), and_iff_right hlength]
    cases readPairs? group <;> simp
  · simp [hlength]

/-- The palettes that are accepted, and their colours. -/
theorem parse_eq_ok_iff {text : String} : parse text = .ok p ↔ Describes text p := by
  have hcolours {first second : List Char} :
      (do return Palette.mk (← readColour first) (← readColour second)) = Except.ok p ↔
        readColour first = .ok p.background ∧ readColour second = .ok p.foreground := by
    obtain ⟨background, foreground⟩ := p
    cases readColour first <;> cases readColour second <;>
      simp [bind, Except.bind, pure, Except.pure]
  rw [parse, Text.splitAt_eq_splitOn, Describes]
  simp only [← readColour_eq_ok_iff]
  split
  next first second hparts =>
    rw [hcolours]
    constructor
    · exact fun h => ⟨first, second, hparts, h⟩
    · rintro ⟨first', second', hparts', h⟩
      cases hparts.symm.trans hparts'
      exact h
  next hparts =>
    refine iff_of_false (by simp) ?_
    rintro ⟨first, second, hsplit, -⟩
    exact hparts first second hsplit

/-! ### Digits and blanks -/

/-- All of a group but its blanks are digits. -/
theorem Spaced.hex (h : Spaced group bytes) :
    ∀ c ∈ group, isBlank c = false → (Hex.value? c).isSome = true := by
  induction h with
  | nil => exact List.forall_mem_nil _
  | blank skipped rest ih =>
    refine List.forall_mem_cons.2 ⟨fun hdigit => ?_, ih⟩
    cases skipped.symm.trans hdigit
  | pair first second rest ih =>
    exact List.forall_mem_cons.2 ⟨fun _ => Option.isSome_of_eq_some first,
      List.forall_mem_cons.2 ⟨fun _ => Option.isSome_of_eq_some second, ih⟩⟩

/-- A text describes a palette, and has blanks in it. -/
def Gapped (text : String) : Prop :=
  (∃ p, Describes text p) ∧ ∃ c ∈ text.toList, isBlank c = true

/-- Without blanks, the two groups are those of two colours. -/
theorem Describes.exists_colours {text : String} (h : Describes text p)
    (hdigits : ∀ c ∈ text.toList, isBlank c = false) :
    ∃ background foreground, text = Palette.text background foreground := by
  obtain ⟨first, second, hparts, ⟨hfirst, hbackground⟩, hsecond, hforeground⟩ := h
  have htext : first ++ ',' :: second = text.toList := by
    have hjoin : [','].intercalate (text.toList.splitOn ',') = text.toList :=
      List.intercalate_splitOn ','
    rw [← hjoin, hparts, List.intercalate_cons_cons, List.intercalate_singleton,
      List.append_assoc, List.singleton_append]
  have hmem {c : Char} (hc : c ∈ first ∨ c ∈ second) : isBlank c = false := by
    refine hdigits c (htext ▸ ?_)
    rw [List.mem_append, List.mem_cons]
    exact hc.imp_right .inr
  refine ⟨⟨first, hfirst, fun c hc => hbackground.hex c hc (hmem (.inl hc))⟩,
    ⟨second, hsecond, fun c hc => hforeground.hex c hc (hmem (.inr hc))⟩, ?_⟩
  rw [Palette.text, htext, String.ofList_toList]

theorem isBlank_of_mem_text {background foreground : Colour} {c : Char}
    (hc : c ∈ (Palette.text background foreground).toList) : isBlank c = false := by
  rw [Palette.text, String.toList_ofList, List.mem_append, List.mem_cons] at hc
  rcases hc with hc | rfl | hc
  · exact Colour.not_isBlank_of_hex (background.hex c hc)
  · rfl
  · exact Colour.not_isBlank_of_hex (foreground.hex c hc)

end Palette

/-! ### Telling a window -/

namespace Renderer.Window

variable {w : Window} {p : Palette} {width height : Nat}

/-- A window is told commands, one after the other. -/
def handleAll (w : Window) (commands : List RenderCommand) : Except RendererError Window :=
  commands.foldlM (fun w c => (w.handle c).map (·.1)) w

/-- A window has a picture of some size in its background colour. -/
structure Filled (w : Window) (p : Palette) (width height : Nat) : Prop where
  palette : w.palette = p
  columns : w.base.width = width
  size : w.picture.size = width * height * p.background.length

theorem exists_filled (hw : w.palette = p) (width height : Nat) :
    ∃ filled calls, w.handle (.resolution width height) = .ok (filled, calls) ∧
      filled.Filled p width height := by
  subst hw
  have hpixels : ((width : Int) * height).toNat = width * height := by
    rw [← Int.natCast_mul, Int.toNat_natCast]
  refine ⟨_, _, rfl, rfl, rfl, ?_⟩
  rw [← hpixels]
  exact size_filled _ _

/-- A pixel is written if its colour is as long as the stretch of the picture there. -/
theorem handle_pixel_of_length {x y : Int} {lit : Bool}
    (h : (w.palette.colour lit).length =
      (Span.of w.picture.size ((y * w.base.width + x) * 3)
        ((y * w.base.width + x) * 3 + 3)).length) :
    ∃ cells, w.handle (.pixel x y lit) =
      .ok ({ w with picture := ⟨w.picture.size, cells⟩ }, []) := by
  have hset : w.picture.setPixel? (y * w.base.width + x) (w.palette.colour lit) ≠ none :=
    fun hnone => setPixel?_eq_none_iff.1 hnone h
  obtain ⟨picture, hpicture⟩ := Option.ne_none_iff_exists'.1 hset
  obtain ⟨cells, -, rfl⟩ := Option.map_eq_some_iff.1 hpicture
  exact ⟨cells, by rw [handle, hpicture]⟩

/-- Colours as long as a pixel is in the picture write every pixel of it. -/
theorem Filled.handle_pixel (h : w.Filled p width height)
    (hlength : ∀ lit, (p.colour lit).length = p.background.length)
    (hfits : p.Fits) {x y : Nat} (hx : x < width) (hy : y < height) (lit : Bool) :
    ∃ now, w.handle (.pixel x y lit) = .ok (now, []) ∧ now.Filled p width height := by
  have hk : y * width + x < width * height := (Display.cellAt ⟨x, hx⟩ ⟨y, hy⟩).isLt
  have hindex : (y : Int) * w.base.width + x = (y * width + x : Nat) := by
    rw [h.columns]
    simp
  have hspan : (w.palette.colour lit).length =
      (Span.of w.picture.size ((y * w.base.width + x) * 3)
        ((y * w.base.width + x) * 3 + 3)).length := by
    rw [hindex, h.size, h.palette, hlength, length_span hfits hk]
  obtain ⟨cells, hcells⟩ := w.handle_pixel_of_length hspan
  exact ⟨_, hcells, h.palette, h.columns, h.size⟩

end Renderer.Window

namespace Palette

variable {p : Palette}

/-- Any window of a palette can be told any size, and then any pixels inside. -/
def Usable (p : Palette) : Prop :=
  ∀ (w : Renderer.Window) (width height : Nat) (commands : List RenderCommand), w.palette = p →
    (∀ c ∈ commands, c.IsPixel ∧ c.Inside width height) →
    ∃ now, w.handleAll (.resolution width height :: commands) = .ok now

theorem usable_of_length (hlength : ∀ lit, (p.colour lit).length = p.background.length)
    (hfits : p.Fits) : p.Usable := by
  intro w width height commands hw hcommands
  obtain ⟨filled, calls, hresolution, hfilled⟩ := Renderer.Window.exists_filled hw width height
  rw [Renderer.Window.handleAll, List.foldlM_cons, hresolution]
  -- Every pixel leaves the picture as large as it was.
  have hpixels (w : Renderer.Window) (hfilled : w.Filled p width height) :
      ∃ now, w.handleAll commands = .ok now := by
    induction commands generalizing w with
    | nil => exact ⟨w, rfl⟩
    | cons c commands ih =>
      obtain ⟨⟨⟨x, y, lit, rfl⟩, hinside⟩, hrest⟩ := List.forall_mem_cons.1 hcommands
      obtain ⟨⟨hx, hxw⟩, hy, hyh⟩ := hinside x y lit rfl
      obtain ⟨x, rfl⟩ := Int.eq_ofNat_of_zero_le hx
      obtain ⟨y, rfl⟩ := Int.eq_ofNat_of_zero_le hy
      obtain ⟨now, hnow, hfilled⟩ :=
        hfilled.handle_pixel hlength hfits (Int.ofNat_lt.1 hxw) (Int.ofNat_lt.1 hyh) lit
      rw [Renderer.Window.handleAll, List.foldlM_cons, hnow]
      exact ih hrest now hfilled
  exact hpixels filled hfilled

/-- A window of two pixels shows which palettes are usable: there is room for three bytes
    at the first one, or for as many as two backgrounds have. -/
theorem length_of_usable (h : p.Usable) (lit : Bool) :
    (p.colour lit).length = min 3 (2 * p.background.length) := by
  let w : Renderer.Window := ⟨.make .null, .null, p, .filled [] 0⟩
  have hinside : ∀ c ∈ [RenderCommand.pixel 0 0 lit], c.IsPixel ∧ c.Inside 2 1 := by
    rw [List.forall_mem_singleton]
    refine ⟨⟨0, 0, lit, rfl⟩, ?_⟩
    rintro x y lit ⟨⟩
    decide
  obtain ⟨now, hnow⟩ := h w 2 1 [.pixel 0 0 lit] rfl hinside
  obtain ⟨filled, calls, hresolution, hfilled⟩ :=
    Renderer.Window.exists_filled (w := w) (p := p) rfl 2 1
  by_contra hne
  have hpixel : filled.picture.setPixel? (0 * filled.base.width + 0) (filled.palette.colour lit) =
      none := by
    rw [Renderer.Window.setPixel?_eq_none_iff, hfilled.size, hfilled.palette]
    simp only [Span.of, bound]
    rw [if_neg (by omega), if_neg (by omega)]
    omega
  rw [Renderer.Window.handleAll, List.foldlM_cons, hresolution] at hnow
  simp only [Except.map, bind, Except.bind, List.foldlM_cons, Renderer.Window.handle,
    hpixel] at hnow
  cases hnow

/-- The usable palettes: those of two colours of three bytes each, or of none. -/
theorem usable_iff :
    p.Usable ↔ p.Fits ∧ p.foreground.length = p.background.length := by
  constructor
  · intro h
    have hbackground := length_of_usable h false
    have hforeground := length_of_usable h true
    simp only [colour, Bool.false_eq_true, if_false, if_true] at hbackground hforeground
    unfold Fits
    omega
  · rintro ⟨hfits, hlength⟩
    refine usable_of_length (fun lit => ?_) hfits
    cases lit
    · rfl
    · exact hlength

/-- A text is dealt with as meant: it is accepted if it is two colours of six hexadecimal
    digits with a comma between them, the palette is then made of their bytes, three each,
    and can be used by a window. -/
structure Exact (text : String) : Prop where
  accepted_iff : (∃ p, parse text = .ok p) ↔
    ∃ background foreground, text = Palette.text background foreground
  colours : ∀ background foreground, text = Palette.text background foreground →
    parse text = .ok (ofColours background foreground) ∧ background.bytes.length = 3 ∧
      foreground.bytes.length = 3
  usable : ∀ p, parse text = .ok p → p.Usable

theorem colours_of_text {text : String} {background foreground : Colour}
    (h : text = Palette.text background foreground) :
    parse text = .ok (ofColours background foreground) ∧ background.bytes.length = 3 ∧
      foreground.bytes.length = 3 := by
  rw [h]
  exact ⟨parse_text background foreground, background.length_bytes, foreground.length_bytes⟩

theorem exact_of_not_gapped {text : String} (h : ¬Gapped text) : Exact text := by
  have hcolours {p : Palette} (hp : parse text = .ok p) :
      ∃ background foreground, text = Palette.text background foreground := by
    have hdescribes := parse_eq_ok_iff.1 hp
    refine hdescribes.exists_colours fun c hc => ?_
    rw [← Bool.not_eq_true]
    exact fun hblank => h ⟨⟨p, hdescribes⟩, c, hc, hblank⟩
  refine ⟨⟨fun ⟨p, hp⟩ => hcolours hp, ?_⟩, fun _ _ => colours_of_text, fun p hp => ?_⟩
  · rintro ⟨background, foreground, htext⟩
    exact ⟨_, (colours_of_text htext).1⟩
  · obtain ⟨background, foreground, htext⟩ := hcolours hp
    obtain ⟨hparse, hbackground, hforeground⟩ := colours_of_text htext
    cases hparse.symm.trans hp
    exact usable_iff.2 ⟨.inr hbackground, hforeground.trans hbackground.symm⟩

theorem Gapped.not_exact {text : String} (h : Gapped text) : ¬Exact text := by
  rintro ⟨haccepted, -, -⟩
  obtain ⟨⟨p, hdescribes⟩, c, hc, hblank⟩ := h
  obtain ⟨background, foreground, rfl⟩ := haccepted.1 ⟨p, parse_eq_ok_iff.2 hdescribes⟩
  cases hblank.symm.trans (isBlank_of_mem_text hc)

/-- Which texts are dealt with as meant: all but those that describe a palette with blanks
    in it. A text is accepted if it is two groups of six characters that are pairs of digits
    with blanks between them, and the palette can be used if its two colours are of the same
    length, that of a pixel or none. -/
theorem exact_iff_not_gapped (text : String) :
    (Exact text ↔ ¬Gapped text) ∧ (∀ p, parse text = .ok p ↔ Describes text p) ∧
      ∀ p : Palette, p.Usable ↔ p.Fits ∧ p.foreground.length = p.background.length :=
  ⟨⟨fun h hgapped => hgapped.not_exact h, exact_of_not_gapped⟩, fun _ => parse_eq_ok_iff,
    fun _ => usable_iff⟩

/-- A background of two blanks and two pairs of digits is accepted, and has two bytes; a
    window of it cannot be used. -/
theorem not_exact_blankDigits :
    let p : Palette := ⟨[0x22, 0x22], [0xDD, 0xDD, 0xDD]⟩
    parse "  2222,DDDDDD" = .ok p ∧ ¬p.Usable ∧ ¬Exact "  2222,DDDDDD" := by
  intro p
  have hparse : parse "  2222,DDDDDD" = .ok p := by decide +kernel
  have hgapped : Gapped "  2222,DDDDDD" :=
    ⟨⟨p, parse_eq_ok_iff.1 hparse⟩, ' ', by decide +kernel, rfl⟩
  refine ⟨hparse, fun h => ?_, hgapped.not_exact⟩
  exact absurd (usable_iff.1 h).2 (by decide)

end Palette

end Chip8
