import Chip8.Proofs.GivingBack
import Chip8.Proofs.Pixels
import Mathlib.Data.List.DropRight

/-!
# A display in a window

There are three copies of a picture: the grid of the display, the picture of the
window, and what the host shows. The window follows the grid flip by flip, but the
host is only given a picture when one is due and the grid has changed since the
last one (`Canvas`).

* `Screen`: what a host does with pictures;
* `Request.Touches`: a request clears the grid or flips a pixel of it;
* `Exact`: the window has the picture of the grid, and the host shows it unless the
  grid was touched;
* `Exact.ask`, `Exact.ask_refresh`: it is kept by every request, and a refresh shows
  the picture if the grid was touched;
* `picture_of_requests`: all of it, from the opening of the window on.
-/

namespace Chip8

/-! ### The host -/

/-- A picture that a host has, with its size. -/
structure Surface where
  bytes : List UInt8
  width : Int
  height : Int
  deriving DecidableEq, Repr

/-- The pictures that a host has: the one made last, the one scaled last, the one to
    be shown, and the one shown. -/
structure Screen where
  made : Option Surface := none
  scaled : Option Surface := none
  back : Option Surface := none
  front : Option Surface := none

/-- The screen after a call, pictures being made of a row of bytes. A scaled picture
    is told by the one it was made of. -/
def Screen.after (bytes : List UInt8) (s : Screen) : HostCall → Screen
  | .picture _ width height => { s with made := some ⟨bytes, width, height⟩ }
  | .scalePicture _ _ => { s with scaled := s.made }
  | .blit => { s with back := s.scaled }
  | .flip => { s with front := s.back }
  | _ => s

/-- The picture of a window as it should be shown. -/
def Renderer.Window.surface (w : Renderer.Window) : Surface :=
  ⟨w.picture.bytes.toList, w.base.width, w.base.height⟩

namespace Renderer.Window

variable {width height : Nat} {w : Window} {palette : Palette} {p : Mirror}

theorem Depicts.showCalls_eq (h : w.Depicts palette width height p) (hw : 0 < width)
    (hh : 0 < height) :
    w.showCalls = [.picture w.picture.size w.base.width w.base.height,
      .scalePicture w.base.scale w.half, .blit, .flip] := by
  have hwidth := h.columns
  have hheight := h.rows
  exact if_pos ⟨by omega, by omega⟩

/-- The calls that show a picture bring it to the front of the screen. -/
theorem Depicts.front_showCalls (h : w.Depicts palette width height p) (hw : 0 < width)
    (hh : 0 < height) (s : Screen) :
    (w.showCalls.foldl (Screen.after w.picture.bytes.toList) s).front = some w.surface := by
  rw [h.showCalls_eq hw hh]
  rfl

end Renderer.Window

/-! ### Requests that change the picture -/

namespace Display

variable {width height : Nat} {edges : Edges} {r : Request}

/-- The cells that a request flips. -/
def Request.cells (edges : Edges) (width height : Nat) : Request → List (Fin (width * height))
  | .draw x y rows =>
    cellsOf width height (spriteOffsets width height edges (x % width) (y % height) rows)
  | .flip x y => ((locate width height edges x y).bind (position? (width * height))).toList
  | _ => []

/-- A request clears the grid or flips a pixel of it. -/
def Request.Touches (edges : Edges) (width height : Nat) (r : Request) : Prop :=
  r = .clear ∨ r.cells edges width height ≠ []

/-- A request shows the picture. -/
def Request.isRefresh : Request → Bool
  | .refresh => true
  | _ => false

/-- The requests since the last one to show the picture, all of them if there was
    none. -/
def sinceRefresh (requests : List Request) : List Request :=
  requests.rtakeWhile fun r => !r.isRefresh

theorem toggleAll_of_cellsOf_eq_nil (d : Display width height) {offsets : List Int}
    (h : cellsOf width height offsets = []) : d.toggleAll offsets = ⟨d, [], false⟩ := by
  induction offsets with
  | nil => rfl
  | cons offset rest ih =>
    cases hp : position? (width * height) offset with
    | none =>
      rw [cellsOf, List.filterMap_cons_none hp] at h
      rw [toggleAll_cons_of_none d hp, ih h]
    | some c =>
      rw [cellsOf, List.filterMap_cons_some hp] at h
      cases h

theorem changed_toggleAll (d : Display width height) {offsets : List Int}
    (h : d.changed = true ∨ cellsOf width height offsets ≠ []) :
    (d.toggleAll offsets).display.changed = true := by
  induction offsets generalizing d with
  | nil => exact h.resolve_right (· rfl)
  | cons offset rest ih =>
    cases hp : position? (width * height) offset with
    | none =>
      rw [cellsOf, List.filterMap_cons_none hp] at h
      rw [toggleAll_cons_of_none d hp]
      exact ih d h
    | some c =>
      rw [toggleAll_cons_of_some d hp]
      exact ih _ (.inl rfl)

/-- What does not touch the grid does nothing, if it is not to show it. -/
theorem perform_of_not_touches (d : Display width height) (hr : r.isRefresh = false)
    (h : ¬r.Touches edges width height) : d.perform edges r = ⟨d, [], false⟩ := by
  obtain ⟨hclear, hcells⟩ := not_or.1 h
  rw [not_not] at hcells
  cases r with
  | draw x y rows => exact d.toggleAll_of_cellsOf_eq_nil hcells
  | flip x y =>
    simp only [Request.cells, Option.toList_eq_nil_iff] at hcells
    simp only [perform, flip]
    cases hloc : locate width height edges x y with
    | none => rfl
    | some offset =>
      rw [hloc, Option.bind_some] at hcells
      simp only [hcells]
  | look x y => rfl
  | clear => exact absurd rfl hclear
  | refresh => cases hr

/-- What touches the grid changes it. -/
theorem changed_of_touches (d : Display width height) (h : r.Touches edges width height) :
    (d.perform edges r).display.changed = true := by
  rcases h with rfl | hcells
  · rfl
  cases r with
  | draw x y rows => exact d.changed_toggleAll (.inr hcells)
  | flip x y =>
    obtain ⟨cell, hcell⟩ := Option.ne_none_iff_exists'.1 (mt Option.toList_eq_nil_iff.2 hcells)
    obtain ⟨offset, hloc, hp⟩ := Option.bind_eq_some_iff.1 hcell
    simp only [perform, flip, hloc, hp]
    rfl
  | look x y | clear | refresh => exact absurd rfl hcells

theorem isPixel_perform (d : Display width height) (hr : r.isRefresh = false) :
    ∀ c ∈ (d.perform edges r).commands, c.IsPixel := by
  cases r with
  | draw x y rows => exact d.isPixel_toggleAll _
  | flip x y =>
    intro c hc
    simp only [perform, flip] at hc
    split at hc
    next drawing h =>
      split at h
      · cases h
      · split at h <;> cases h
        exact ⟨_, _, _, List.mem_singleton.1 hc⟩
    · cases hc
  | look x y => exact List.forall_mem_nil _
  | clear => exact isPixel_erasure
  | refresh => cases hr

end Display

/-! ### Drawing -/

/-- A display drawn on, the window that is told of it, and the screen of the host. -/
structure Canvas (width height : Nat) where
  display : Display width height
  window : Renderer.Window
  screen : Screen

namespace Canvas

variable {width height : Nat} {c : Canvas width height}

/-- The window is told a command, and makes its calls. -/
def tell (c : Canvas width height) (command : RenderCommand) :
    Except RendererError (Canvas width height × List HostCall) := do
  let (window, calls) ← c.window.handle command
  let screen := calls.foldl (Screen.after window.picture.bytes.toList) c.screen
  return ({ c with window := window, screen := screen }, calls)

/-- The window is told commands one after the other. -/
def tellAll (c : Canvas width height) :
    List RenderCommand → Except RendererError (Canvas width height × List HostCall)
  | [] => .ok (c, [])
  | command :: rest => do
    let (c, calls) ← c.tell command
    let (c, more) ← c.tellAll rest
    return (c, calls ++ more)

/-- The display does what it is asked to, and the window is told of it. -/
def ask (edges : Edges) (c : Canvas width height) (r : Display.Request) :
    Except RendererError (Canvas width height × List HostCall) :=
  let drawing := c.display.perform edges r
  { c with display := drawing.display }.tellAll drawing.commands

/-- The display does all it is asked to. -/
def askAll (edges : Edges) (c : Canvas width height) :
    List Display.Request → Except RendererError (Canvas width height)
  | [] => .ok c
  | r :: rest => do
    let (c, _) ← c.ask edges r
    c.askAll edges rest

/-- A window is opened, and a display made that tells it its size. -/
def start (scale palette : Value) (width height : Nat) :
    Except RendererError (Canvas width height) := do
  let (opened, calls) := Renderer.Window.start scale palette
  let window ← opened
  let screen := calls.foldl (Screen.after window.picture.bytes.toList) {}
  let c : Canvas width height := ⟨.dark width height false, window, screen⟩
  let (c, _) ← c.tell (.resolution width height)
  return c

/-- The window has the picture of the grid. The display knows whether the grid was
    touched since it was shown, and if it was not, the host shows that picture. -/
structure Exact (c : Canvas width height) (palette : Palette) (touched : Prop) : Prop where
  picture : ∃ p, Display.Mirrors p c.display ∧ c.window.Depicts palette width height p
  changed : c.display.changed = true ↔ touched
  shown : ¬touched → c.screen.front = some c.window.surface

variable {palette : Palette} {touched : Prop} {edges : Edges} {r : Display.Request}

theorem tellAll_cons {command : RenderCommand} {rest : List RenderCommand}
    {next last : Canvas width height} {calls more : List HostCall}
    (h : c.tell command = .ok (next, calls)) (hrest : next.tellAll rest = .ok (last, more)) :
    c.tellAll (command :: rest) = .ok (last, calls ++ more) := by
  rw [tellAll, h]
  simp only [bind, Except.bind, hrest]
  rfl

/-- A window that is told of pixels of the grid paints them, and calls nobody. -/
theorem tellAll_pixels (hcolour : ∀ lit, (palette.colour lit).length = 3) {p : Mirror}
    (h : c.window.Depicts palette width height p) {commands : List RenderCommand}
    (hpixel : ∀ command ∈ commands, command.IsPixel)
    (hinside : ∀ command ∈ commands, command.Inside width height) :
    ∃ window, c.tellAll commands = .ok ({ c with window := window }, []) ∧
      window.Depicts palette width height (p.paintAll commands) := by
  induction commands generalizing c p with
  | nil => exact ⟨c.window, rfl, h⟩
  | cons command rest ih =>
    obtain ⟨x, y, lit, rfl⟩ := hpixel command List.mem_cons_self
    obtain ⟨⟨hx, hxw⟩, hy, hyh⟩ := hinside _ List.mem_cons_self x y lit rfl
    obtain ⟨x, rfl⟩ := Int.eq_ofNat_of_zero_le hx
    obtain ⟨y, rfl⟩ := Int.eq_ofNat_of_zero_le hy
    obtain ⟨painted, hpaint, hpainted⟩ :=
      h.handle_pixel hcolour (Int.ofNat_lt.1 hxw) (Int.ofNat_lt.1 hyh) lit
    have hfirst : c.tell (.pixel x y lit) = .ok ({ c with window := painted }, []) := by
      rw [tell, hpaint]
      rfl
    obtain ⟨window, hrest, hwindow⟩ := ih (c := { c with window := painted }) hpainted
      (fun command h => hpixel command (List.mem_cons_of_mem _ h))
      (fun command h => hinside command (List.mem_cons_of_mem _ h))
    exact ⟨window, tellAll_cons hfirst hrest, hwindow⟩

/-- A request that is not to show the picture calls nobody. -/
theorem Exact.ask (h : c.Exact palette touched)
    (hcolour : ∀ lit, (palette.colour lit).length = 3) (hw : 0 < width) (hh : 0 < height)
    (hsound : r.Sound edges) (hr : r.isRefresh = false) :
    ∃ next, c.ask edges r = .ok (next, []) ∧
      next.Exact palette (touched ∨ r.Touches edges width height) := by
  obtain ⟨p, hmirrors, hdepicts⟩ := h.picture
  have hfaithful := c.display.faithful_perform hw hh hsound
  obtain ⟨window, htold, hwindow⟩ :=
    tellAll_pixels (c := { c with display := (c.display.perform edges r).display }) hcolour hdepicts
      (c.display.isPixel_perform hr) hfaithful.inside
  refine ⟨_, htold, ⟨_, hfaithful.mirrors p hmirrors, hwindow⟩, ?_, fun hnot => ?_⟩
  · by_cases htouches : r.Touches edges width height
    · exact iff_of_true (c.display.changed_of_touches htouches) (.inr htouches)
    · rw [c.display.perform_of_not_touches hr htouches, or_iff_left htouches]
      exact h.changed
  · -- Nothing was told, so the window is still the one that was shown.
    rw [not_or] at hnot
    rw [c.display.perform_of_not_touches hr hnot.2] at htold
    cases htold
    exact h.shown hnot.1

/-- A refresh shows the picture if the grid was touched. -/
theorem Exact.ask_refresh (h : c.Exact palette touched) (hw : 0 < width) (hh : 0 < height)
    (edges : Edges) :
    ∃ next calls, c.ask edges .refresh = .ok (next, calls) ∧ next.Exact palette False ∧
      (.blit ∈ calls ↔ touched) := by
  obtain ⟨p, hmirrors, hdepicts⟩ := h.picture
  have hafter : ∃ p, Display.Mirrors p c.display.refresh.display ∧
      ({ c.window with base := c.window.base.handle (.refresh c.display.changed) } :
        Renderer.Window).Depicts palette width height p :=
    ⟨p, hmirrors, hdepicts.columns, hdepicts.rows, hdepicts.colours, hdepicts.bytes⟩
  have hidle : c.display.refresh.display.changed = true ↔ False := by simp [Display.refresh]
  refine ⟨_, _, rfl, ⟨hafter, hidle, fun _ => ?_⟩, ?_⟩
  · -- It is shown now, or was not touched since it was shown.
    cases hchanged : c.display.changed with
    | true => exact hdepicts.front_showCalls hw hh c.screen
    | false => exact h.shown fun ht => Bool.false_ne_true (hchanged.symm.trans (h.changed.2 ht))
  · rw [List.append_nil, ← h.changed]
    cases c.display.changed with
    | true => simp [hdepicts.showCalls_eq hw hh]
    | false => simp

theorem display_tellAll {next : Canvas width height} {commands : List RenderCommand}
    {calls : List HostCall} (h : c.tellAll commands = .ok (next, calls)) :
    next.display = c.display := by
  induction commands generalizing c calls with
  | nil => cases h; rfl
  | cons command rest ih =>
    rw [tellAll, tell] at h
    cases hhandle : c.window.handle command with
    | error e => rw [hhandle] at h; cases h
    | ok handled =>
      simp only [hhandle, bind, Except.bind, pure, Except.pure] at h
      split at h
      · cases h
      next hrest => cases h; exact (ih hrest :)

/-- The display does what it would do without a window. -/
theorem display_askAll {now : Canvas width height} {requests : List Display.Request}
    (h : c.askAll edges requests = .ok now) :
    now.display = (c.display.performAll edges requests).display := by
  induction requests generalizing c with
  | nil => cases h; rfl
  | cons r requests ih =>
    rw [askAll] at h
    cases hask : c.ask edges r with
    | error e => rw [hask] at h; cases h
    | ok next =>
      rw [hask] at h
      rw [ih h, Display.performAll, display_tellAll hask]

theorem askAll_concat (requests : List Display.Request) :
    c.askAll edges (requests ++ [r]) =
      (c.askAll edges requests).bind fun c => (c.ask edges r).map (·.1) := by
  induction requests generalizing c with
  | nil => cases h : c.ask edges r <;> simp [askAll, Except.bind, Except.map, bind, h]
  | cons q requests ih =>
    simp only [List.cons_append, askAll]
    cases c.ask edges q with
    | error e => rfl
    | ok next => exact ih

theorem sinceRefresh_concat (requests : List Display.Request) (r : Display.Request) :
    Display.sinceRefresh (requests ++ [r]) =
      if r.isRefresh then [] else Display.sinceRefresh requests ++ [r] := by
  rw [Display.sinceRefresh, List.rtakeWhile_concat]
  cases r.isRefresh <;> rfl

/-- Requests keep the picture, and touch the grid if one of them did since it was
    shown. -/
theorem Exact.askAll (h : c.Exact palette False) (hcolour : ∀ lit, (palette.colour lit).length = 3)
    (hw : 0 < width) (hh : 0 < height) {requests : List Display.Request}
    (hsound : ∀ r ∈ requests, r.Sound edges) :
    ∃ now, c.askAll edges requests = .ok now ∧
      now.Exact palette (∃ r ∈ Display.sinceRefresh requests, r.Touches edges width height) := by
  induction requests using List.reverseRecOn with
  | nil => exact ⟨c, rfl, by simpa [Display.sinceRefresh] using h⟩
  | append_singleton requests r ih =>
    obtain ⟨now, hnow, hexact⟩ := ih fun q hq => hsound q (List.mem_append_left _ hq)
    rw [askAll_concat, hnow, sinceRefresh_concat]
    cases hr : r.isRefresh with
    | true =>
      cases r with
      | refresh =>
        obtain ⟨next, calls, hask, hnext, -⟩ := hexact.ask_refresh hw hh edges
        refine ⟨next, ?_, by simpa using hnext⟩
        simp only [Except.bind, hask]
        rfl
      | draw | flip | look | clear => cases hr
    | false =>
      obtain ⟨next, hask, hnext⟩ :=
        hexact.ask hcolour hw hh (hsound r (List.mem_append_right _ List.mem_cons_self)) hr
      refine ⟨next, ?_, ?_⟩
      · simp only [Except.bind, hask]
        rfl
      · simpa [or_and_right, exists_or] using hnext

/-- A window opens with the picture of a dark grid, and shows it. -/
theorem exists_start (background foreground : Colour) {scale : Value}
    (hscale : scale = .null ∨ scale.number? ≠ none) (hw : 0 < width) (hh : 0 < height) :
    ∃ c, start scale (.text (Palette.text background foreground)) width height = .ok c ∧
      c.display = .dark width height false ∧ c.Exact (.ofColours background foreground) False := by
  have hread : Renderer.Window.readPalette (.text (Palette.text background foreground)) =
      .ok (.ofColours background foreground) := by
    rw [Renderer.Window.readPalette, Palette.parse_text]
    rfl
  have hopens := Renderer.Window.opens scale (.text (Palette.text background foreground))
  rw [start]
  generalize Renderer.Window.start scale (.text (Palette.text background foreground)) = opened at *
  cases hopens with
  | failed unusable => exact absurd unusable (Renderer.Window.not_unusable hscale hread)
  | @opened window calls usable read =>
    obtain ⟨sized, hsized, hdepicts⟩ := window.depicts_resolution width height
    rw [← Except.ok.inj (hread.symm.trans read)] at hdepicts
    have hmirrors : Display.Mirrors .blank (Display.dark width height false) := by
      intro px py
      simp [Mirror.blank, Display.lit, Display.dark]
    simp only [tell, bind, Except.bind, hsized]
    exact ⟨_, rfl, rfl, ⟨_, hmirrors, hdepicts⟩, by simp [Display.dark],
      fun _ => hdepicts.front_showCalls hw hh _⟩

/-- The picture in a window is exact and never stale. A window is opened with two
    colours, and a display of any size is made and shown in it; then the display is
    asked to do anything. The picture has three bytes for every cell of the grid,
    those of the foreground where the cell is lit and those of the background where
    it is dark. If the display is asked to show it now, the host shows this very
    picture afterwards, and it is given one if and only if the grid was cleared or a
    pixel flipped since the display was last asked to show it. -/
theorem picture_of_requests (background foreground : Colour) {scale : Value}
    (hscale : scale = .null ∨ scale.number? ≠ none) {width height : Nat} (hw : 0 < width)
    (hh : 0 < height) (edges : Edges) {requests : List Display.Request}
    (hsound : ∀ r ∈ requests, r.Sound edges) :
    ∃ opened now : Canvas width height,
      start scale (.text (Palette.text background foreground)) width height = .ok opened ∧
      opened.askAll edges requests = .ok now ∧
      now.display = ((Display.dark width height false).performAll edges requests).display ∧
      now.window.picture.size = 3 * width * height ∧
      (∀ k : Fin (width * height), now.window.picture.pixel k =
        if now.display.cells[k] then foreground.bytes else background.bytes) ∧
      ∃ (later : Canvas width height) (calls : List HostCall),
        now.ask edges .refresh = .ok (later, calls) ∧
        later.screen.front = some later.window.surface ∧
        (.blit ∈ calls ↔
          ∃ r ∈ Display.sinceRefresh requests, r.Touches edges width height) := by
  obtain ⟨opened, hstart, hdark, hopened⟩ := exists_start background foreground hscale hw hh
  have hcolour := Palette.length_colour background foreground
  obtain ⟨now, hnow, hexact⟩ := hopened.askAll hcolour hw hh hsound
  obtain ⟨p, hmirrors, hdepicts⟩ := hexact.picture
  obtain ⟨later, calls, hask, hlater, hblit⟩ := hexact.ask_refresh hw hh edges
  refine ⟨opened, now, hstart, hnow, ?_, ?_, fun k => ?_, later, calls, hask, hlater.shown id,
    hblit⟩
  · rw [display_askAll hnow, hdark]
  · rw [hdepicts.size hcolour, Nat.mul_assoc]
  · rw [hdepicts.pixel hcolour k.isLt, hmirrors.cell]
    rfl

/-- A dark grey. -/
def darkGrey : Colour :=
  ⟨['2', '2', '2', '2', '2', '2'], rfl, List.all_eq_true.1 rfl⟩

/-- A light grey. -/
def lightGrey : Colour :=
  ⟨['D', 'D', 'd', 'd', 'D', 'd'], rfl, List.all_eq_true.1 rfl⟩

/-- A sprite larger than the grid, shown, and flips within the grid and beyond it. -/
def shownRequests : List Display.Request :=
  [.draw (-2) 5 [0xFF, 0x81, 0x3C], .refresh, .flip 2 1, .flip 9 1]

/-- One pixel of the sprite is left, and shown by the next refresh. -/
theorem picture_of_requests_shownRequests :
    (∀ r ∈ shownRequests, r.Sound .clip) ∧
      ∃ (opened now later : Canvas 3 2) (calls : List HostCall),
        start .null (.text "222222,DDddDd") 3 2 = .ok opened ∧
        opened.askAll .clip shownRequests = .ok now ∧ now.window.picture.size = 18 ∧
        now.window.picture.pixel 4 = [0xDD, 0xDD, 0xDD] ∧
        now.window.picture.pixel 5 = [0x22, 0x22, 0x22] ∧
        now.ask .clip .refresh = .ok (later, calls) ∧
        later.screen.front = some later.window.surface ∧ .blit ∈ calls := by
  have hsound : ∀ r ∈ shownRequests, r.Sound .clip := by
    intro r hr
    simp only [shownRequests, List.mem_cons, List.not_mem_nil, or_false] at hr
    obtain rfl | rfl | rfl | rfl := hr <;> simp [Display.Request.Sound]
  obtain ⟨opened, now, hopened, hnow, hdisplay, hsize, hpixel, later, calls, hask, hfront, hblit⟩ :=
    picture_of_requests darkGrey lightGrey (.inl rfl) (by decide : 0 < 3) (by decide : 0 < 2) .clip
      hsound
  have hlit : now.display.cells[(4 : Fin 6)] = true := by
    rw [hdisplay]
    decide +kernel
  have hdark : now.display.cells[(5 : Fin 6)] = false := by
    rw [hdisplay]
    decide +kernel
  have htouched : ∃ r ∈ Display.sinceRefresh shownRequests, r.Touches .clip 3 2 :=
    ⟨.flip 2 1, List.mem_cons_self, .inr (by decide)⟩
  have h4 := hpixel (4 : Fin 6)
  have h5 := hpixel (5 : Fin 6)
  rw [hlit] at h4
  rw [hdark] at h5
  exact ⟨hsound, opened, now, later, calls, hopened, hnow, hsize, h4, h5, hask, hfront,
    hblit.2 htouched⟩

end Canvas

end Chip8
