import Chip8.Renderer.Terminal
import Mathlib.Data.List.DropRight

/-!
# The pad of a terminal

A terminal renderer writes its picture to a pad, and never looks at what is there. A host only
takes a text that is inside the pad, short of its last column (`Pad.Holds`), and a text outside is
an error that ends everything. So each pixel is to be written in a place of its own, whatever the
scale, and the pad is to be shown when there is something new on it.

* `Pad`, `Pad.replay`: a pad, and what calls make of it;
* `Request`, `askAll`: what may be asked of a renderer, and the log of the calls that it makes;
* `lastTitle`, `lastLit`, `lastSize`, `sinceShown`: what was asked last, and since the pad was
  shown;
* `Pictures`: the pad shows what was asked, and the renderer knows what is new;
* `Pictures.write`: it does so after a text that fits;
* `Pictures.pixel`, `Pictures.title`, `Pictures.refresh`: it does so after a request of each kind;
* `Pictures.run`: it does so after any requests in turn;
* `pad_of_requests`: all of it, from the start of the renderer on.
-/

namespace Chip8

/-! ### Texts of a given length -/

/-- A text that is cut and then padded has the length it is to have. -/
theorem Text.padRight_cut (length : Nat) (text : List Char) :
    padRight length (cut length text) =
      text.take length ++ List.replicate (length - text.length) ' ' := by
  have hcut : cut length text = text.take length := by
    rw [cut, if_neg (by omega), Int.toNat_natCast]
  have hrest : ((length : Int) - (text.take length).length).toNat = length - text.length := by
    rw [List.length_take]
    omega
  rw [padRight, hcut, hrest]

theorem Text.length_padRight_cut (length : Nat) (text : List Char) :
    (padRight length (cut length text)).length = length := by
  rw [padRight_cut, List.length_append, List.length_take, List.length_replicate]
  omega

/-- Its characters are those of the text, and spaces behind them. -/
theorem Text.getElem?_padRight_cut {length k : Nat} (text : List Char) (hk : k < length) :
    (padRight length (cut length text))[k]? = some (text[k]?.getD ' ') := by
  rw [padRight_cut, List.getElem?_append, List.length_take]
  by_cases hin : k < text.length
  · rw [if_pos (by omega), List.getElem?_take_of_lt hk, List.getElem?_eq_getElem hin,
      Option.getD_some]
  · rw [if_neg (by omega), List.getElem?_replicate, if_pos (by omega),
      List.getElem?_eq_none (by omega), Option.getD_none]

/-! ### Pads -/

/-- A cell of a pad. -/
structure Pad.Cell where
  character : Char
  reversed : Bool
  deriving DecidableEq, Repr

/-- A pad with its rows and columns. -/
structure Pad where
  rows : Int
  columns : Int
  cell : Int → Int → Pad.Cell

namespace Pad

/-- A cell where nothing was written. -/
def Cell.empty : Cell := ⟨' ', false⟩

/-- A new pad. -/
def blank (rows columns : Int) : Pad := ⟨rows, columns, fun _ _ => .empty⟩

/-- There is room for a text of some length, and the column behind it. -/
def Holds (p : Pad) (row column : Int) (length : Nat) : Prop :=
  (0 ≤ row ∧ row < p.rows) ∧ 0 ≤ column ∧ column + length < p.columns
  deriving Decidable

/-- The pad with a text on it, a character in a cell. -/
def put (p : Pad) (row column : Int) (text : List Char) (reversed : Bool) : Pad :=
  { p with
    cell := fun r c =>
      if r = row ∧ column ≤ c then
        text[(c - column).toNat]?.elim (p.cell r c) fun character => ⟨character, reversed⟩
      else p.cell r c }

/-- The pad after a call. There is none if a text does not fit. -/
def after (p : Pad) : HostCall → Option Pad
  | .newPad rows columns => some (blank rows columns)
  | .write row column text reversed =>
    if p.Holds row column text.length then some (p.put row column text.toList reversed) else none
  | _ => some p

/-- The pad after calls in turn. -/
def replay (p : Pad) (calls : List HostCall) : Option Pad :=
  calls.foldlM after p

variable {p q : Pad}

theorem replay_append {calls : List HostCall} (h : p.replay calls = some q)
    (more : List HostCall) : p.replay (calls ++ more) = q.replay more := by
  rw [replay, List.foldlM_append]
  exact congrArg (Option.bind · _) h

theorem replay_write {row column : Int} {text : String} {reversed : Bool}
    (h : p.Holds row column text.length) :
    p.replay [.write row column text reversed] = some (p.put row column text.toList reversed) := by
  rw [replay, List.foldlM_cons, after, if_pos h]
  rfl

/-- Calls that leave the pad alone leave it alone together. -/
theorem replay_of_forall {calls : List HostCall} (h : ∀ call ∈ calls, p.after call = some p) :
    p.replay calls = some p := by
  induction calls with
  | nil => rfl
  | cons call calls ih =>
    obtain ⟨hcall, hcalls⟩ := List.forall_mem_cons.mp h
    rw [replay, List.foldlM_cons, hcall]
    exact ih hcalls

/-- A character of a text is in its cell. -/
theorem cell_put_of_getElem? (p : Pad) (row column : Int) {text : List Char} {k : Nat}
    {character : Char} (reversed : Bool) (h : text[k]? = some character) :
    (p.put row column text reversed).cell row (column + k) = ⟨character, reversed⟩ := by
  have hk : (column + k - column).toNat = k := by omega
  simp only [put]
  rw [if_pos ⟨trivial, by omega⟩, hk, h, Option.elim_some]

/-- The other rows stay as they are. -/
theorem cell_put_of_ne (p : Pad) (row column : Int) (text : List Char) (reversed : Bool)
    {r : Int} (hr : r ≠ row) (c : Int) :
    (p.put row column text reversed).cell r c = p.cell r c :=
  if_neg fun h => hr h.1

/-- Spaces fill a stretch of a row, and nothing else. -/
theorem cell_put_spaces (p : Pad) (row column : Int) (length : Nat) (reversed : Bool)
    (r c : Int) :
    (p.put row column (List.replicate length ' ') reversed).cell r c =
      if r = row ∧ column ≤ c ∧ c < column + length then ⟨' ', reversed⟩ else p.cell r c := by
  simp only [put]
  by_cases hrow : r = row ∧ column ≤ c
  · rw [if_pos hrow, List.getElem?_replicate]
    by_cases hin : c < column + length
    · rw [if_pos (by omega), if_pos ⟨hrow.1, hrow.2, hin⟩]
      rfl
    · rw [if_neg (by omega), if_neg fun h => hin h.2.2]
      rfl
  · rw [if_neg hrow, if_neg fun h => hrow ⟨h.1, h.2.1⟩]

end Pad

namespace Renderer.Terminal

/-! ### Requests -/

/-- What may be asked of a renderer: to write a pixel of its picture, to set the title, and to
    show the picture, in a terminal of any size. -/
inductive Request (width height : Nat)
  | pixel (x : Fin width) (y : Fin height) (lit : Bool)
  | title (text : String)
  | refresh (rows columns : Int) (changed : Bool)

/-- A request, and the calls that it led to. -/
abbrev Entry (width height : Nat) := Request width height × List HostCall

variable {width height scale : Nat}

namespace Request

/-- A request writes to the pad. -/
def writes : Request width height → Bool
  | pixel _ _ _ | title _ => true
  | refresh _ _ _ => false

/-- The title that a request sets. -/
def title? : Request width height → Option String
  | title text => some text
  | _ => none

/-- What a request makes of a pixel: lit, or not. -/
def lit? (x y : Int) : Request width height → Option Bool
  | pixel column row lit => if column.val = x ∧ row.val = y then some lit else none
  | _ => none

/-- The size of the terminal that a request finds. -/
def size? : Request width height → Option (Int × Int)
  | refresh rows columns _ => some (rows, columns)
  | _ => none

end Request

/-- The renderer does what it is asked to. -/
def ask (t : Terminal) : Request width height → Terminal × List HostCall
  | .pixel x y lit => t.handle (.pixel x.val y.val lit)
  | .title text => t.handle (.title text)
  | .refresh rows columns changed =>
    { t with host := { t.host with rows := rows, columns := columns } }.handle (.refresh changed)

/-- The renderer does all it is asked to. -/
def askAll (t : Terminal) : List (Request width height) → Terminal × List (Entry width height)
  | [] => (t, [])
  | r :: requests =>
    let (next, calls) := t.ask r
    let (last, log) := next.askAll requests
    (last, (r, calls) :: log)

/-- The pad is shown by one of the calls. -/
def shows (calls : List HostCall) : Bool :=
  calls.any fun
    | .showPad _ _ => true
    | _ => false

/-- The title set last. -/
def lastTitle (requests : List (Request width height)) : Option String :=
  (requests.filterMap Request.title?).getLast?

/-- Whether a pixel was lit when it was last written. -/
def lastLit (requests : List (Request width height)) (x y : Int) : Bool :=
  (requests.filterMap (Request.lit? x y)).getLast?.getD false

/-- The size of the terminal when the picture was last to be shown. -/
def lastSize (requests : List (Request width height)) : Option (Int × Int) :=
  (requests.filterMap Request.size?).getLast?

/-- What was asked since the pad was shown, all of it if it never was. -/
def sinceShown (log : List (Entry width height)) : List (Entry width height) :=
  log.rtakeWhile fun entry => !shows entry.2

variable {t : Terminal} {pad : Pad} {requests : List (Request width height)}
  {log : List (Entry width height)} {r : Request width height}

theorem askAll_concat (t : Terminal) (requests : List (Request width height))
    (r : Request width height) :
    t.askAll (requests ++ [r]) =
      (((t.askAll requests).1.ask r).1,
        (t.askAll requests).2 ++ [(r, ((t.askAll requests).1.ask r).2)]) := by
  induction requests generalizing t with
  | nil => rfl
  | cons q requests ih =>
    simp only [List.cons_append, askAll, ih]

theorem getLast?_filterMap_concat {α β : Type} (f : α → Option β) (l : List α) (a : α) :
    ((l ++ [a]).filterMap f).getLast? = (f a).or (l.filterMap f).getLast? := by
  rw [List.getLast?_filterMap, List.getLast?_filterMap, List.reverse_concat, List.findSome?_cons]
  cases f a <;> rfl

theorem lastTitle_concat (requests : List (Request width height)) (r : Request width height) :
    lastTitle (requests ++ [r]) = r.title?.or (lastTitle requests) :=
  getLast?_filterMap_concat _ _ _

theorem lastLit_concat (requests : List (Request width height)) (r : Request width height)
    (x y : Int) :
    lastLit (requests ++ [r]) x y = (r.lit? x y).getD (lastLit requests x y) := by
  rw [lastLit, getLast?_filterMap_concat]
  cases r.lit? x y <;> rfl

theorem lastSize_concat (requests : List (Request width height)) (r : Request width height) :
    lastSize (requests ++ [r]) = r.size?.or (lastSize requests) :=
  getLast?_filterMap_concat _ _ _

theorem sinceShown_concat (log : List (Entry width height)) (entry : Entry width height) :
    sinceShown (log ++ [entry]) = if shows entry.2 then [] else sinceShown log ++ [entry] := by
  rw [sinceShown, List.rtakeWhile_concat]
  cases shows entry.2 <;> rfl

/-! ### The picture on the pad -/

/-- The pad has the last title in its first row and the pixels below it, each in a stretch of
    cells, and the renderer knows what was written since the pad was shown, and the size of the
    terminal when it last looked. -/
structure Pictures (t : Terminal) (scale : Nat) (pad : Pad) (requests : List (Request width height))
    (log : List (Entry width height)) : Prop where
  stretch : t.scale = scale
  picture : t.base.width = width
  size : pad.rows = height + 1 ∧ pad.columns = width * scale + 1
  heading : ∀ column < width * scale, pad.cell 0 column =
    (lastTitle requests).elim .empty fun text => ⟨text.toList[column]?.getD ' ', true⟩
  pixels : ∀ row column : Int, 1 ≤ row →
    pad.cell row column = ⟨' ', lastLit requests (column / scale) (row - 1)⟩
  needed : t.needed = true ↔ ∃ entry ∈ sinceShown log, entry.1.writes = true
  shownSize : t.shownSize = lastSize requests

/-- A text of a log is inside the pad of a picture, with its last column left. -/
def Inside (scale : Nat) (entry : Entry width height) : Prop :=
  ∀ (row column : Int) (text : String) (reversed : Bool),
    .write row column text reversed ∈ entry.2 →
    (0 ≤ row ∧ row ≤ height) ∧ 0 ≤ column ∧ column + text.length ≤ width * scale

/-- A request is answered: the texts that are written fit, and the pad then shows what was asked. -/
def Answers (t : Terminal) (scale : Nat) (pad : Pad) (requests : List (Request width height))
    (log : List (Entry width height)) (r : Request width height) : Prop :=
  Inside scale (r, (t.ask r).2) ∧ ∃ written, pad.replay (t.ask r).2 = some written ∧
    (t.ask r).1.Pictures scale written (requests ++ [r]) (log ++ [(r, (t.ask r).2)])

/-- What was written is yet to be shown. -/
theorem exists_writes_concat (log : List (Entry width height)) {calls : List HostCall}
    (hshows : shows calls = false) (hwrites : r.writes = true) :
    ∃ entry ∈ sinceShown (log ++ [(r, calls)]), entry.1.writes = true := by
  refine ⟨(r, calls), ?_, hwrites⟩
  rw [sinceShown_concat, if_neg (by simp [hshows])]
  exact List.mem_append_right _ (List.mem_singleton_self _)

/-- A text inside the pad answers a request if the pad then shows it, for the rest is as it was. -/
theorem Pictures.write (h : t.Pictures scale pad requests log) {base : Plain} {row column : Int}
    {text : String} {reversed : Bool}
    (hask : t.ask r =
      ({ t with base := base, needed := true }, [.write row column text reversed]))
    (hbase : base.width = t.base.width) (hwrites : r.writes = true)
    (hrow : 0 ≤ row ∧ row ≤ height) (hcolumn : 0 ≤ column ∧ column + text.length ≤ width * scale)
    (hheading : ∀ c < width * scale, (pad.put row column text.toList reversed).cell 0 c =
      (lastTitle (requests ++ [r])).elim .empty fun text => ⟨text.toList[c]?.getD ' ', true⟩)
    (hpixels : ∀ i c : Int, 1 ≤ i → (pad.put row column text.toList reversed).cell i c =
      ⟨' ', lastLit (requests ++ [r]) (c / scale) (i - 1)⟩) :
    t.Answers scale pad requests log r := by
  have hholds : pad.Holds row column text.length := by
    rw [Pad.Holds, h.size.1, h.size.2]
    omega
  rw [Answers, hask]
  -- The text is the only call, and it fits.
  refine ⟨?_, _, Pad.replay_write hholds, ?_⟩
  · intro row' column' text' reversed' hmem
    cases List.mem_singleton.mp hmem
    exact ⟨hrow, hcolumn⟩
  · have hsize : lastSize (requests ++ [r]) = lastSize requests := by
      rw [lastSize_concat]
      cases r with
      | pixel | title => rfl
      | refresh => cases hwrites
    exact
      { stretch := h.stretch
        picture := hbase.trans h.picture
        size := h.size
        heading := hheading
        pixels := hpixels
        needed := iff_of_true rfl (exists_writes_concat log rfl hwrites)
        shownSize := h.shownSize.trans hsize.symm }

/-- The stretch of a pixel is inside the picture. -/
theorem stretch_le (scale : Nat) (x : Fin width) :
    (0 : Int) ≤ x.val * scale ∧ (x.val * scale + scale : Int) ≤ width * scale := by
  have hx := Nat.mul_le_mul_right scale (Nat.succ_le_of_lt x.isLt)
  rw [Nat.succ_mul] at hx
  exact ⟨Int.mul_nonneg (by omega) (by omega), by exact_mod_cast hx⟩

/-- The stretches of two pixels have no cell in common, for a cell tells its pixel. -/
theorem stretch_iff (hscale : 1 ≤ scale) (x column : Int) :
    x * scale ≤ column ∧ column < x * scale + scale ↔ x = column / scale := by
  rw [eq_comm, Int.ediv_eq_iff_of_pos (by omega)]

/-- A pixel is written in its own stretch. -/
theorem Pictures.pixel (h : t.Pictures scale pad requests log) (hscale : 1 ≤ scale)
    (x : Fin width) (y : Fin height) (lit : Bool) :
    t.Answers scale pad requests log (.pixel x y lit) := by
  have htext : t.block.toList = List.replicate scale ' ' := by
    rw [block, h.stretch, String.toList_ofList, Int.toNat_natCast]
  have hlength : t.block.length = scale := by
    rw [← String.length_toList, htext, List.length_replicate]
  have hcell (row column : Int) :
      (pad.put (y.val + 1) (x.val * t.scale) t.block.toList lit).cell row column =
        if row = y.val + 1 ∧ x.val = column / scale then ⟨' ', lit⟩ else pad.cell row column := by
    rw [htext, Pad.cell_put_spaces, h.stretch]
    simp only [stretch_iff hscale]
  refine h.write rfl rfl rfl (by omega) ?_ (fun column hcolumn => ?_) fun row column hrow => ?_
  · rw [h.stretch, hlength]
    exact stretch_le scale x
  · rw [hcell, if_neg (by omega), h.heading column hcolumn, lastTitle_concat]
    rfl
  · have hmine : row = y.val + 1 ∧ x.val = column / scale ↔
        x.val = column / scale ∧ y.val = row - 1 := by omega
    rw [hcell, lastLit_concat, Request.lit?, h.pixels row column hrow]
    simp only [hmine]
    split <;> rfl

/-- A title fills the first row. -/
theorem Pictures.title (h : t.Pictures scale pad requests log) (hwidth : 1 ≤ width)
    (text : String) : t.Answers scale pad requests log (.title text) := by
  have hask : t.ask (.title text : Request width height) =
      ({ t with base := t.base.handle (.title text), needed := true },
        [.write 0 0 (t.titleLine text) true]) :=
    if_pos (by rw [h.picture]; omega)
  have htext : (t.titleLine text).toList =
      Text.padRight (width * scale : Nat) (Text.cut (width * scale : Nat) text.toList) := by
    rw [titleLine, h.picture, h.stretch, String.toList_ofList, Int.natCast_mul]
  have hlength : (t.titleLine text).length = width * scale := by
    rw [← String.length_toList, htext, Text.length_padRight_cut]
  refine h.write hask rfl rfl (by omega) ?_ (fun column hcolumn => ?_) fun row column hrow => ?_
  · rw [hlength]
    omega
  · have hcell := pad.cell_put_of_getElem? 0 0 true
      (htext ▸ Text.getElem?_padRight_cut text.toList hcolumn)
    rw [Int.zero_add] at hcell
    rw [hcell, lastTitle_concat]
    rfl
  · rw [Pad.cell_put_of_ne _ _ _ _ _ (by omega), h.pixels row column hrow, lastLit_concat]
    rfl

/-- The size is read and the pad may be shown, on a screen that is cleared if its size is new. -/
theorem mem_refresh {call : HostCall} (h : call ∈ t.refresh.2) :
    call = .readSize ∨ call = .clearScreen ∨ call = .resizeTerminal t.host.rows t.host.columns ∨
      call = .refreshScreen ∨ call = .showPad (t.host.rows - 1) (t.host.columns - 1) := by
  simp only [refresh, resizeCalls] at h
  grind

/-- The pad is shown if something was written, or if the terminal has another size. -/
theorem shows_refresh (t : Terminal) :
    shows t.refresh.2 = true ↔
      t.needed = true ∨ t.shownSize ≠ some (t.host.rows, t.host.columns) := by
  simp only [refresh, resizeCalls, shows]
  grind

/-- Nothing is to be shown after a refresh. -/
theorem Pictures.refresh (h : t.Pictures scale pad requests log) (rows columns : Int)
    (changed : Bool) : t.Answers scale pad requests log (.refresh rows columns changed) := by
  refine ⟨?_, pad, ?_, ?_⟩
  · intro row column text reversed hmem
    rcases mem_refresh hmem with hcall | hcall | hcall | hcall | hcall <;> cases hcall
  · refine Pad.replay_of_forall fun call hmem => ?_
    obtain rfl | rfl | rfl | rfl | rfl := mem_refresh hmem <;> rfl
  exact
    { stretch := h.stretch
      picture := h.picture
      size := h.size
      heading := fun column hcolumn => by
        rw [h.heading column hcolumn, lastTitle_concat]
        rfl
      pixels := fun row column hrow => by
        rw [h.pixels row column hrow, lastLit_concat]
        rfl
      needed := by
        -- If the pad is not shown now, then there was nothing to show already.
        refine iff_of_false Bool.false_ne_true ?_
        rintro ⟨entry, hmem, hwrites⟩
        rw [sinceShown_concat] at hmem
        split at hmem
        · cases hmem
        · rename_i hnot
          rcases List.mem_append.mp hmem with hmem | hmem
          · exact hnot ((shows_refresh _).mpr (.inl (h.needed.mpr ⟨entry, hmem, hwrites⟩)))
          · cases List.mem_singleton.mp hmem
            cases hwrites
      shownSize := by
        rw [lastSize_concat]
        rfl }

/-- Whatever is asked, the pad shows it. -/
theorem Pictures.step (h : t.Pictures scale pad requests log) (hscale : 1 ≤ scale)
    (hwidth : 1 ≤ width) : ∀ r, t.Answers scale pad requests log r
  | .pixel x y lit => h.pixel hscale x y lit
  | .title text => h.title hwidth text
  | .refresh rows columns changed => h.refresh rows columns changed

/-- The pad shows the picture after any requests, all of them answered. -/
theorem Pictures.run (h : t.Pictures scale pad [] ([] : List (Entry width height)))
    (hscale : 1 ≤ scale) (hwidth : 1 ≤ width) (requests : List (Request width height)) :
    (∀ entry ∈ (t.askAll requests).2, Inside scale entry) ∧
      ∃ written, pad.replay ((t.askAll requests).2.flatMap (·.2)) = some written ∧
        (t.askAll requests).1.Pictures scale written requests (t.askAll requests).2 := by
  -- From the end, as what is on the pad is told by all that was asked before.
  induction requests using List.reverseRecOn with
  | nil => exact ⟨fun _ h => (List.not_mem_nil h).elim, pad, rfl, h⟩
  | append_singleton requests r ih =>
    obtain ⟨hinside, before, hbefore, hpictures⟩ := ih
    obtain ⟨hlast, written, hwritten, hafter⟩ := hpictures.step hscale hwidth r
    rw [askAll_concat]
    refine ⟨?_, written, ?_, hafter⟩
    · intro entry hmem
      rcases List.mem_append.mp hmem with hmem | hmem
      · exact hinside entry hmem
      · rw [List.mem_singleton.mp hmem]
        exact hlast
    · rw [List.flatMap_append, Pad.replay_append hbefore, List.flatMap_singleton, hwritten]

/-- A new pad shows an empty picture. -/
theorem pictures_blank (t : Terminal) (width height : Nat) (ht : t.scale = scale)
    (hneeded : t.needed = false) (hsize : t.shownSize = none) :
    (t.handle (.resolution width height)).1.Pictures scale
      (.blank (height + 1) (width * scale + 1)) [] ([] : List (Entry width height)) where
  stretch := ht
  picture := rfl
  size := ⟨rfl, rfl⟩
  heading _ _ := rfl
  pixels _ _ _ := rfl
  needed := iff_of_false (fun h => by cases hneeded.symm.trans h) (by simp [sinceShown])
  shownSize := hsize

/-- A renderer of any scale whose picture has a size takes any requests. Every text is inside the
    pad, with the last column left. The pad has the last title in its first row, as long as the
    picture is wide, and below it a pixel in each stretch of cells, reversed if it was lit when it
    was last written. And a refresh shows the pad if something was written since that was last
    done, or if the terminal has not the size that the last refresh found. -/
theorem pad_of_requests (host : TerminalHost) (cursor : Value) (hscale : 1 ≤ scale)
    (hwidth : 1 ≤ width) (requests : List (Request width height)) :
    ∃ opened calls,
      Terminal.start host (.number (.whole scale)) cursor = (.ok opened, calls) ∧
      let sized := opened.handle (.resolution width height)
      let now := sized.1.askAll requests
      (∀ entry ∈ now.2, Inside scale entry) ∧
      (∃ pad, (Pad.blank 0 0).replay (calls ++ sized.2 ++ now.2.flatMap (·.2)) = some pad ∧
        pad.rows = height + 1 ∧ pad.columns = width * scale + 1 ∧
        (∀ column < width * scale, pad.cell 0 column =
          (lastTitle requests).elim .empty fun text => ⟨text.toList[column]?.getD ' ', true⟩) ∧
        ∀ row column : Int, 1 ≤ row →
          pad.cell row column = ⟨' ', lastLit requests (column / scale) (row - 1)⟩) ∧
      ∀ rows columns changed,
        shows (now.1.ask (.refresh rows columns changed : Request width height)).2 = true ↔
          (∃ entry ∈ sinceShown now.2, entry.1.writes = true) ∨
            lastSize requests ≠ some (rows, columns) := by
  let opened : Terminal := ⟨.make (.number (.whole scale)), scale, host, none, false⟩
  obtain ⟨hinside, pad, hpad, hpictures⟩ :=
    (pictures_blank opened width height rfl rfl rfl).run hscale hwidth requests
  refine ⟨opened, _, rfl, ?_⟩
  refine ⟨hinside, ⟨pad, ?_, hpictures.size.1, hpictures.size.2, hpictures.heading,
    hpictures.pixels⟩, ?_⟩
  · rw [Pad.replay_append rfl]
    exact hpad
  · intro rows columns changed
    rw [← hpictures.needed, ← hpictures.shownSize]
    exact shows_refresh _

/-- A title, a pixel that is lit and one that is lit and put out again. -/
def greeting : List (Request 3 2) :=
  [.title "HI", .pixel 1 0 true, .pixel 2 1 true, .refresh 24 80 true, .pixel 2 1 false]

theorem pad_of_requests_greeting :
    (1 ≤ 2 ∧ 1 ≤ 3) ∧
      ∃ opened calls,
        Terminal.start ⟨24, 80, true⟩ (.number (.whole 2)) (.number (.whole 0)) =
          (.ok opened, calls) ∧
        let sized := opened.handle (.resolution 3 2)
        let now := sized.1.askAll greeting
        (∃ pad, (Pad.blank 0 0).replay (calls ++ sized.2 ++ now.2.flatMap (·.2)) = some pad ∧
          pad.cell 0 1 = ⟨'I', true⟩ ∧ pad.cell 0 5 = ⟨' ', true⟩ ∧
          pad.cell 1 3 = ⟨' ', true⟩ ∧ pad.cell 2 5 = ⟨' ', false⟩) ∧
        shows (now.1.ask (.refresh 24 80 true : Request 3 2)).2 = true := by
  obtain ⟨opened, calls, hstart, -, ⟨pad, hpad, -, -, hheading, hpixels⟩, -⟩ :=
    pad_of_requests ⟨24, 80, true⟩ (.number (.whole 0)) (by decide : 1 ≤ 2) (by decide) greeting
  cases hstart
  refine ⟨by decide, _, _, rfl, ⟨pad, hpad, ?_, ?_, ?_, ?_⟩, rfl⟩
  · exact hheading 1 (by decide)
  · exact hheading 5 (by decide)
  · exact hpixels 1 3 (by decide)
  · exact hpixels 2 5 (by decide)

end Renderer.Terminal

end Chip8
