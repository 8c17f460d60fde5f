import Chip8.Proofs.Session.Effects
import Chip8.Startup

/-!
# Painting the background

When a machine is switched on, its renderer is told the size of the picture and
to make every pixel dark. A window replaces three bytes of the picture for a
pixel, and a colour has three bytes at most. One of three bytes fits, and so
does an empty one: it makes an empty picture, of which nothing is replaced. A
colour of one byte or of two does not.

* `Palette.length_le_of_parse`: a colour has three bytes at most;
* `Palette.Fits`, `Palette.Short`: the background fits a pixel, or does not;
* `Renderer.Paints`: the renderer is no window, or its background fits;
* `Session.tellAll_powerOnCommands`: such a renderer is told all of it, and
  another one none of the pixels.
-/

namespace Chip8

/-! ### Colours -/

namespace Palette

theorem length_le_of_readPairs? {digits : List Char} {bytes : List UInt8}
    (h : readPairs? digits = some bytes) : 2 * bytes.length ≤ digits.length := by
  fun_induction readPairs? digits generalizing bytes with
  | case1 => cases h; rfl
  | case2 c hblank => cases h; exact Nat.zero_le _
  | case3 => cases h
  | case4 high low rest hblank ih => exact (ih h).trans (Nat.le_succ _)
  | case5 high low rest hblank ih =>
    -- Two digits make a byte.
    simp only [Option.bind_eq_bind, Option.bind_eq_some_iff, Option.pure_def,
      Option.some.injEq] at h
    obtain ⟨h', -, l, -, tail, htail, rfl⟩ := h
    have := ih htail
    simp only [List.length_cons]
    omega

theorem length_le_of_readColour {group : List Char} {bytes : List UInt8}
    (h : readColour group = .ok bytes) : bytes.length ≤ 3 := by
  unfold readColour at h
  split at h
  · cases h
  · split at h <;> cases h
    have := length_le_of_readPairs? ‹_›
    omega

/-- A background has three bytes at most. -/
theorem length_le_of_parse {text : String} {p : Palette} (h : parse text = .ok p) :
    p.background.length ≤ 3 := by
  unfold parse at h
  split at h
  · rename_i first second _
    cases hfirst : readColour first with
    | error e => rw [hfirst] at h; cases h
    | ok background =>
      cases hsecond : readColour second with
      | error e => rw [hfirst, hsecond] at h; cases h
      | ok foreground =>
        rw [hfirst, hsecond] at h
        cases h
        exact length_le_of_readColour hfirst
  · cases h

/-- The background has the three bytes of a pixel, or none at all. -/
def Fits (p : Palette) : Prop := p.background.length = 0 ∨ p.background.length = 3

/-- The background has some of the three bytes of a pixel. -/
def Short (p : Palette) : Prop := p.background.length = 1 ∨ p.background.length = 2

theorem Short.not_fits {p : Palette} (h : p.Short) : ¬p.Fits := by
  unfold Short at h
  unfold Fits
  omega

theorem short_of_not_fits {p : Palette} (hlength : p.background.length ≤ 3) (h : ¬p.Fits) :
    p.Short := by
  unfold Fits at h
  unfold Short
  omega

end Palette

namespace Renderer

/-! ### Pixels of a window -/

namespace Window

variable {w : Window}

theorem length_le_of_readPalette {v : Value} {p : Palette} (h : readPalette v = .ok p) :
    p.background.length ≤ 3 := by
  have hparse {text : String} (h : (Palette.parse text).mapError RendererError.palette = .ok p) :
      p.background.length ≤ 3 := by
    cases hp : Palette.parse text <;> rw [hp] at h <;> cases h
    exact Palette.length_le_of_parse hp
  unfold readPalette at h
  split at h
  · exact hparse h
  · exact hparse h
  · cases h

/-- The picture is as large as the background fills it. -/
structure Sized (w : Window) : Prop where
  width : w.base.width = 64
  size : w.picture.size = 2048 * w.palette.background.length

theorem size_filled (colour : List UInt8) (pixels : Nat) :
    (Picture.filled colour pixels).size = pixels * colour.length := by
  simp only [Picture.filled, List.size_toArray, List.length_flatten, List.map_replicate,
    List.sum_replicate_nat]

/-- The three bytes of a pixel, or nothing of an empty picture. -/
theorem length_span {n pixel pixels : Nat} (hn : n = 0 ∨ n = 3) (hpixel : pixel < pixels) :
    (Span.of (pixels * n) (pixel * 3) (pixel * 3 + 3)).length = n := by
  simp only [Span.of, bound]
  rw [if_neg (by omega), if_neg (by omega)]
  rcases hn with rfl | rfl <;> omega

theorem setPixel?_eq_none_iff {p : Picture} {pixel : Int} {colour : List UInt8} :
    p.setPixel? pixel colour = none ↔
      colour.length ≠ (Span.of p.size (pixel * 3) (pixel * 3 + 3)).length := by
  unfold Picture.setPixel? overwrite?
  split <;> simp [*]

/-- The index of a pixel of the machine's display. -/
theorem Sized.index (h : w.Sized) (x y : Nat) :
    (Int.ofNat y * w.base.width + Int.ofNat x) = (y * 64 + x : Nat) := by
  rw [h.width]
  simp only [Int.ofNat_eq_natCast]
  omega

/-- A background that fits is written, and leaves the picture as large. -/
theorem Sized.handle_pixel (h : w.Sized) (hfits : w.palette.Fits) {x y : Nat} (hx : x < 64)
    (hy : y < 32) :
    ∃ w' : Window, w.handle (.pixel (Int.ofNat x) (Int.ofNat y) false) = .ok (w', []) ∧ w'.Sized ∧
      w'.palette = w.palette := by
  have hspan := length_span hfits (show y * 64 + x < 2048 by omega)
  simp only [handle, h.index, Palette.colour, Bool.false_eq_true, if_false]
  cases hpixel : w.picture.setPixel? (y * 64 + x : Nat) w.palette.background with
  | none =>
    rw [setPixel?_eq_none_iff, h.size, hspan] at hpixel
    exact absurd rfl hpixel
  | some picture =>
    obtain ⟨cells, -, rfl⟩ := Option.map_eq_some_iff.1 hpixel
    exact ⟨_, rfl, ⟨h.width, h.size⟩, rfl⟩

/-- A background that does not fit is not written. -/
theorem Sized.handle_short (h : w.Sized) (hshort : w.palette.Short) :
    w.handle (.pixel (Int.ofNat 0) (Int.ofNat 0) false) = .error .colourSize := by
  simp only [handle, h.index, Palette.colour, Bool.false_eq_true, if_false]
  have hpixel : w.picture.setPixel? (0 * 64 + 0 : Nat) w.palette.background = none := by
    rw [setPixel?_eq_none_iff, h.size]
    unfold Palette.Short at hshort
    simp only [Span.of, bound]
    rw [if_neg (by omega), if_neg (by omega)]
    omega
  rw [hpixel]

/-- A new size of the picture fills it. -/
theorem handle_resolution (w : Window) :
    ∃ (w' : Window) (calls : List HostCall), w.handle (.resolution 64 32) = .ok (w', calls) ∧
      w'.Sized ∧ w'.palette = w.palette :=
  ⟨_, _, rfl, ⟨rfl, size_filled _ _⟩, rfl⟩

end Window

/-- The renderer is no window, or the background of its palette fits a pixel. -/
def Paints (k : Renderer) : Prop :=
  ∀ w, k = .window w → w.palette.Fits

/-- A renderer that paints knows the size of its picture. -/
structure Ready (k : Renderer) : Prop where
  paints : k.Paints
  sized : ∀ w, k = .window w → w.Sized

variable {k : Renderer} {w w' : Window} {c : RenderCommand} {calls : List HostCall}

theorem handle_window (h : w.handle c = .ok (w', calls)) :
    (window w).handle c = .ok (.window w', calls) := by
  simp only [handle, h]
  rfl

theorem handle_window_of_error {e : RendererError} (h : w.handle c = .error e) :
    (window w).handle c = .error e := by
  simp only [handle, h]
  rfl

theorem ready_window (hfits : w.palette.Fits) (hsized : w.Sized) : (window w).Ready where
  paints _ e := by cases e; exact hfits
  sized _ e := by cases e; exact hsized

theorem Paints.handle_resolution (h : k.Paints) :
    ∃ k' calls, k.handle (.resolution 64 32) = .ok (k', calls) ∧ k'.Ready := by
  cases k with
  | plain p => exact ⟨_, _, rfl, nofun, nofun⟩
  | terminal t => exact ⟨_, _, rfl, nofun, nofun⟩
  | window w =>
    obtain ⟨w', calls, hw, hsized, hpalette⟩ := w.handle_resolution
    exact ⟨.window w', calls, handle_window hw, ready_window (hpalette ▸ h w rfl) hsized⟩

/-- A pixel of the background is written, and the next one can be. -/
theorem Ready.handle_pixel (h : k.Ready) {x y : Nat} (hx : x < 64) (hy : y < 32) :
    ∃ k' calls, k.handle (.pixel (Int.ofNat x) (Int.ofNat y) false) = .ok (k', calls) ∧
      k'.Ready := by
  cases k with
  | plain p => exact ⟨_, _, rfl, nofun, nofun⟩
  | terminal t => exact ⟨_, _, rfl, nofun, nofun⟩
  | window w =>
    have hfits := h.paints w rfl
    obtain ⟨w', hw, hsized, hpalette⟩ := (h.sized w rfl).handle_pixel hfits hx hy
    exact ⟨.window w', [], handle_window hw, ready_window (hpalette ▸ hfits) hsized⟩

end Renderer

/-! ### Switching on -/

namespace Session

variable {s : Session} {P : Renderer → Prop} {commands : List RenderCommand}

theorem tellAll_cons {c : RenderCommand} {k : Renderer} {calls : List HostCall}
    (h : s.renderer.handle c = .ok (k, calls)) (rest : List RenderCommand) :
    s.tellAll (c :: rest) =
      ((({ s with renderer := k }.recordAll (.told c :: calls.map .called)).tellAll rest).1,
        true,
        (({ s with renderer := k }.recordAll (.told c :: calls.map .called)).tellAll rest).2.2) := by
  simp only [tellAll, tell, h]

theorem tellAll_cons_of_error {c : RenderCommand} {e : RendererError}
    (h : s.renderer.handle c = .error e) (rest : List RenderCommand) :
    s.tellAll (c :: rest) = (s, false, some e) := by
  simp only [tellAll, tell, h]

/-- Commands that a renderer keeps carrying out are all carried out. -/
theorem tellAll_of_forall (hs : P s.renderer)
    (h : ∀ k, P k → ∀ c ∈ commands, ∃ k' calls, k.handle c = .ok (k', calls) ∧ P k') :
    (s.tellAll commands).2.2 = none := by
  induction commands generalizing s with
  | nil => rfl
  | cons c rest ih =>
    obtain ⟨k, calls, hhandle, hk⟩ := h _ hs c List.mem_cons_self
    rw [tellAll_cons hhandle]
    exact ih hk fun k hk c hc => h k hk c (List.mem_cons_of_mem _ hc)

/-- The background is painted from the first pixel on. -/
theorem resetCommands_eq :
    ∃ rest, Machine.resetCommands = .pixel (Int.ofNat 0) (Int.ofNat 0) false :: rest ∧
      ∀ c ∈ Machine.resetCommands, ∃ x < 64, ∃ y < 32,
        c = .pixel (Int.ofNat x) (Int.ofNat y) false := by
  refine ⟨_, rfl, fun c hc => ?_⟩
  obtain ⟨y, hy, hc⟩ := List.mem_flatMap.1 hc
  obtain ⟨x, hx, rfl⟩ := List.mem_map.1 hc
  exact ⟨x, List.mem_range.1 hx, y, List.mem_range.1 hy, rfl⟩

/-- A renderer that paints is told all of a machine being switched on. -/
theorem tellAll_powerOnCommands (h : s.renderer.Paints) :
    (s.tellAll Machine.powerOnCommands).2.2 = none := by
  obtain ⟨k, calls, hhandle, hk⟩ := h.handle_resolution
  obtain ⟨_, -, hpixels⟩ := resetCommands_eq
  refine (congrArg (·.2.2) (tellAll_cons hhandle Machine.resetCommands)).trans ?_
  -- Every pixel leaves the renderer ready for the next one.
  refine tellAll_of_forall hk fun k hk c hc => ?_
  obtain ⟨x, hx, y, hy, rfl⟩ := hpixels c hc
  exact hk.handle_pixel hx hy

/-- A window whose background does not fit is not. -/
theorem tellAll_powerOnCommands_of_short {w : Renderer.Window} (hw : s.renderer = .window w)
    (hshort : w.palette.Short) :
    (s.tellAll Machine.powerOnCommands).2.2 = some .colourSize := by
  obtain ⟨w', calls, hhandle, hsized, hpalette⟩ := w.handle_resolution
  obtain ⟨rest, hfirst, -⟩ := resetCommands_eq
  have hresolution : s.renderer.handle (.resolution 64 32) = .ok (.window w', calls) := by
    rw [hw]
    exact Renderer.handle_window hhandle
  have hpixel := Renderer.handle_window_of_error (hsized.handle_short (hpalette ▸ hshort))
  refine (congrArg (·.2.2) (tellAll_cons hresolution Machine.resetCommands)).trans ?_
  rw [hfirst, tellAll_cons_of_error hpixel]

end Session

end Chip8
