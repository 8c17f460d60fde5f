import Chip8.Proofs.Execution
import Chip8.Proofs.Templates
import Chip8.Proofs.Tracing

/-!
# Disassembly

The mnemonics of words lose nothing: different words have different ones. A
format fixes some characters of the texts that it is filled to, place by place
(`Format.outline`), and the formats of two mnemonics fix different ones in some
place. In texts of one format all gaps can be read back, and what they show is
what the template of the form leaves open.

* `Format.not_clash`: outlines that a text has in common do not clash;
* `Format.forall_gaps_eq`: a text tells the values in the gaps of its format;
* `Form.exists_gap`: what a template leaves open, the mnemonic shows;
* `Instruction.column_inj`: the mnemonic of a word, in the column that it has in
  a trace, tells the word;
* `disassembly`: so does the mnemonic by itself, and a trace tells all words that
  a machine fetched.
-/

namespace Chip8

namespace Hex

theorem length_places (width n : Nat) : (places width n).length = width := by
  induction width generalizing n with
  | zero => rfl
  | succ width ih => rw [places, List.length_append, ih, List.length_singleton]

theorem digit_inj {a b : Nat} (ha : a < 16) (hb : b < 16) (h : digit a = digit b) : a = b := by
  have := value?_toUpper_digit hb
  rw [← h, value?_toUpper_digit ha] at this
  exact Option.some_inj.1 this

theorem places_inj {width a b : Nat} (ha : a < 16 ^ width) (hb : b < 16 ^ width)
    (h : places width a = places width b) : a = b := by
  induction width generalizing a b with
  | zero => omega
  | succ width ih =>
    rw [Nat.pow_succ] at ha hb
    obtain ⟨hrest, hlast⟩ := List.append_inj' h rfl
    have hquotient : a / 16 = b / 16 := ih (by omega) (by omega) hrest
    have hdigit := digit_inj (Nat.mod_lt a (by decide)) (Nat.mod_lt b (by decide))
      (List.singleton_inj.1 hlast)
    omega

end Hex

/-! ### Outlines -/

namespace Format

variable {κ : Type} {value value' : κ → Nat} {f : Format κ}

/-- The characters of a format with the values of its fields. -/
def chars (value : κ → Nat) (f : Format κ) : List Char :=
  f.flatMap fun
    | .text t => t.toList
    | .gap field width => Hex.places width (value field)

/-- The characters that a format fixes, and the places that its gaps leave open. -/
def outline (f : Format κ) : List (Option Char) :=
  f.flatMap fun
    | .text t => t.toList.map some
    | .gap _ width => List.replicate width none

/-- Characters have an outline. -/
def Outlines (o : List (Option Char)) (cs : List Char) : Prop :=
  List.Forall₂ (fun a c => ∀ b ∈ a, b = c) o cs

/-- Two outlines fix different characters in the same place. -/
def clash (o o' : List (Option Char)) : Bool :=
  (o.zip o').any fun (a, b) => a.isSome && b.isSome && a != b

/-- Outlines that some text has in common do not clash. -/
theorem not_clash {o o' : List (Option Char)} {cs : List Char} (h : Outlines o cs)
    (h' : Outlines o' cs) : clash o o' = false := by
  induction h generalizing o' with
  | nil => rfl
  | @cons a c _ _ hfirst _ ih =>
    cases h' with
    | @cons b _ _ _ hfirst' hrest' =>
      have hrest := ih hrest'
      rw [clash] at hrest ⊢
      rw [List.zip_cons_cons, List.any_cons, hrest, Bool.or_false]
      cases a with
      | none => rfl
      | some a =>
        cases b with
        | none => rfl
        | some b =>
          obtain rfl := (hfirst a rfl).trans (hfirst' b rfl).symm
          simp

theorem outlines_map_some (cs : List Char) : Outlines (cs.map some) cs :=
  List.forall₂_map_left_iff.2 (List.forall₂_same.2 fun _ _ _ hb => (Option.some_inj.1 hb).symm)

theorem outlines_replicate_none (cs : List Char) :
    Outlines (List.replicate cs.length none) cs := by
  induction cs with
  | nil => exact .nil
  | cons c cs ih => exact .cons nofun ih

/-- Whatever the values are, the text has the outline of its format. -/
theorem outlines_chars (value : κ → Nat) (f : Format κ) : Outlines f.outline (f.chars value) := by
  induction f with
  | nil => exact .nil
  | cons p f ih =>
    refine List.rel_append ?_ ih
    cases p with
    | text t => exact outlines_map_some _
    | gap field width =>
      have := outlines_replicate_none (Hex.places width (value field))
      rwa [Hex.length_places] at this

/-- The gaps of a format, each with its field and its width. -/
def gaps (f : Format κ) : List (κ × Nat) :=
  f.filterMap fun
    | .text _ => none
    | .gap field width => some (field, width)

/-- The values of the fields fit into their gaps. -/
def Fits (value : κ → Nat) (f : Format κ) : Prop :=
  ∀ g ∈ f.gaps, 0 < g.2 ∧ value g.1 < 16 ^ g.2

/-- Values that fit fill a format. -/
theorem fill?_eq {value? : κ → Option Int} (h : Fits value f)
    (hvalue : ∀ g ∈ f.gaps, value? g.1 = some (value g.1 : Int)) :
    f.fill? value? = some (String.ofList (f.chars value)) := by
  induction f with
  | nil => rfl
  | cons p f ih =>
    cases p with
    | text t => simp [fill?, ih h hvalue, chars]
    | gap field width =>
      obtain ⟨hfirst, hrest⟩ := List.forall_mem_cons.1 h
      obtain ⟨hvalue, hvalues⟩ := List.forall_mem_cons.1 hvalue
      have htext : Hex.text width (value field) =
          String.ofList (Hex.places width (value field)) := by
        rw [← Hex.toList_text hfirst.1 hfirst.2, String.ofList_toList]
      simp [fill?, ih hrest hvalues, hvalue, htext, chars]

/-- A text tells the values in the gaps of its format. -/
theorem forall_gaps_eq (h : Fits value f) (h' : Fits value' f)
    (heq : f.chars value = f.chars value') : ∀ g ∈ f.gaps, value g.1 = value' g.1 := by
  induction f with
  | nil => exact List.forall_mem_nil _
  | cons p f ih =>
    cases p with
    | text t => exact ih h h' (List.append_cancel_left heq)
    | gap field width =>
      obtain ⟨hfits, hrest⟩ := List.forall_mem_cons.1 h
      obtain ⟨hfits', hrest'⟩ := List.forall_mem_cons.1 h'
      obtain ⟨hfirst, hmore⟩ := List.append_inj heq (by simp only [Hex.length_places])
      exact List.forall_mem_cons.2
        ⟨Hex.places_inj hfits.2 hfits'.2 hfirst, ih hrest hrest' hmore⟩

end Format

/-! ### Mnemonics -/

/-- The value of a field of a word. -/
def Word.field (w : Word) : String → Nat
  | "opcode" => w.toNat
  | "x" => w.x.val
  | "y" => w.y.val
  | "n" => w.n
  | "kk" => w.kk.toNat
  | "nnn" => w.nnn
  | _ => 0

namespace Form

variable {f : Form} {w w' : Word}

/-- The format of the mnemonics of a form. -/
def format (f : Form) : Format String :=
  (Format.mnemonics.lookup f.template).getD []

theorem lookup_template (f : Form) : Format.mnemonics.lookup f.template = some f.format := by
  cases f <;> rfl

theorem mem_mnemonics (f : Form) : (f.template, f.format) ∈ Format.mnemonics := by
  obtain ⟨before, after, heq, -⟩ := List.lookup_eq_some_iff.1 f.lookup_template
  exact heq ▸ List.mem_append_right _ List.mem_cons_self

/-- The fields of words, each with as many digits as it has. -/
def fieldWidths : List (String × Nat) :=
  [("opcode", 4), ("x", 1), ("y", 1), ("n", 1), ("kk", 2), ("nnn", 3)]

theorem gaps_subset (f : Form) : ∀ g ∈ f.format.gaps, g ∈ fieldWidths := by
  have hall : ∀ p ∈ Format.mnemonics, ∀ g ∈ p.2.gaps, g ∈ fieldWidths := by decide +kernel
  exact hall (f.template, f.format) f.mem_mnemonics

theorem field_fits (w : Word) : ∀ g ∈ fieldWidths,
    (0 < g.2 ∧ w.field g.1 < 16 ^ g.2) ∧ w.operands.field? g.1 = some (w.field g.1 : Int) := by
  have hw := w.toNat_lt
  have hx := w.x.isLt
  have hy := w.y.isLt
  have hn : w.n < 16 := Nat.mod_lt _ (by decide)
  have hkk := w.kk.toNat_lt
  have hnnn : w.nnn < 4096 := Nat.mod_lt _ (by decide)
  simp only [fieldWidths, List.forall_mem_cons, Word.field]
  refine ⟨⟨?_, rfl⟩, ⟨?_, rfl⟩, ⟨?_, rfl⟩, ⟨?_, rfl⟩, ⟨?_, rfl⟩, ⟨?_, rfl⟩, List.forall_mem_nil _⟩
  all_goals omega

theorem fits_format (f : Form) (w : Word) : f.format.Fits w.field := fun g hg =>
  (field_fits w g (f.gaps_subset g hg)).1

/-- The mnemonic of a word has the format of its form. -/
theorem toList_text (w : Word) :
    (Instruction.decode w).text.toList = (ofWord w).format.chars w.field := by
  have hdescribe := describe?_eq (.decode w)
  have hfill := Format.fill?_eq (fits_format (ofWord w) w) fun g hg =>
    (field_fits w g (gaps_subset _ g hg)).2
  rw [Instruction.describe?, Instruction.decode] at hdescribe
  simp only [lookup_template, Option.bind_eq_bind, Option.bind_some, hfill,
    Option.some_inj] at hdescribe
  rw [Instruction.decode, ← hdescribe, String.toList_ofList]

/-- The places of the digits that a field is read from. -/
def coveredBy : String → List Nat
  | "opcode" => [0, 1, 2, 3]
  | "x" => [1]
  | "y" => [2]
  | "n" => [3]
  | "kk" => [2, 3]
  | "nnn" => [1, 2, 3]
  | _ => []

theorem digits_eq_of_field_eq {field : String} (h : w.field field = w'.field field) :
    ∀ i ∈ coveredBy field, w.digits[i]? = w'.digits[i]? := by
  have hy := w.y.isLt
  have hy' := w'.y.isLt
  have hn : w.n < 16 := Nat.mod_lt _ (by decide)
  have hn' : w'.n < 16 := Nat.mod_lt _ (by decide)
  unfold coveredBy
  split
  all_goals
    simp only [Word.field, w.toNat_eq, w'.toNat_eq, w.kk_eq, w'.kk_eq, w.nnn_eq, w'.nnn_eq] at h
    simp [Word.digits]
  all_goals omega

/-- What a template leaves open, the mnemonic shows. -/
theorem exists_gap (f : Form) : ∀ i (hi : i < f.template.toList.length),
    Hex.value? f.template.toList[i] = none → ∃ g ∈ f.format.gaps, i ∈ coveredBy g.1 := by
  have hall : ∀ p ∈ Format.mnemonics, ∀ i (hi : i < p.1.toList.length),
      Hex.value? p.1.toList[i] = none → ∃ g ∈ p.2.gaps, i ∈ coveredBy g.1 := by
    decide +kernel
  exact hall (f.template, f.format) f.mem_mnemonics

/-- The form of a word and the fields that its mnemonic shows tell the word. -/
theorem eq_of_fields (h : ofWord w = f) (h' : ofWord w' = f)
    (hfields : ∀ g ∈ f.format.gaps, w.field g.1 = w'.field g.1) : w = w' := by
  have hagrees := (agrees_of_ofWord h).1
  have hagrees' := (agrees_of_ofWord h').1
  have hdigits : w.digits = w'.digits := by
    refine List.ext_getElem rfl fun i hi hi' => ?_
    have ht : i < f.template.toList.length := hagrees.length_eq ▸ hi
    rcases hagrees.get ht hi with hopen | hfixed
    · obtain ⟨g, hg, hcovered⟩ := f.exists_gap i ht hopen
      have := digits_eq_of_field_eq (hfields g hg) i hcovered
      rwa [List.getElem?_eq_getElem hi, List.getElem?_eq_getElem hi', Option.some_inj] at this
    · rcases hagrees'.get ht hi' with hopen | hfixed'
      · rw [hfixed] at hopen
        cases hopen
      · exact Option.some_inj.1 (hfixed.symm.trans hfixed')
  rw [← UInt16.toNat_inj, w.toNat_eq, w'.toNat_eq]
  simp only [Word.digits, List.cons.injEq] at hdigits
  omega

end Form

/-! ### Columns -/

/-- Width of the column that a trace has for mnemonics. -/
def columnWidth : Nat := 22

/-- Something followed by fillers, up to the width of the column. -/
def padded {α : Type} (filler : α) (items : List α) : List α :=
  items ++ List.replicate (columnWidth - items.length) filler

/-- The mnemonic of an instruction in its column. -/
def Instruction.column (i : Instruction) : List Char :=
  padded ' ' i.text.toList

theorem length_padded {α : Type} {filler : α} {items : List α}
    (h : items.length ≤ columnWidth) : (padded filler items).length = columnWidth := by
  rw [padded, List.length_append, List.length_replicate]
  omega

theorem Format.Outlines.padded {o : List (Option Char)} {cs : List Char} (h : Outlines o cs) :
    Outlines (padded (some ' ') o) (padded ' ' cs) := by
  refine List.rel_append h ?_
  rw [h.length_eq, ← List.map_replicate]
  exact outlines_map_some _

namespace Form

variable {f g : Form} {w w' : Word}

theorem outlines_text (w : Word) :
    Format.Outlines (ofWord w).format.outline (Instruction.decode w).text.toList :=
  toList_text w ▸ Format.outlines_chars _ _

/-- Mnemonics of different forms differ in some place of their column. -/
theorem clash_of_ne (h : f ≠ g) :
    Format.clash (padded (some ' ') f.format.outline)
      (padded (some ' ') g.format.outline) = true := by
  have hall : ∀ p ∈ Format.mnemonics, ∀ q ∈ Format.mnemonics, p.1 ≠ q.1 →
      Format.clash (padded (some ' ') p.2.outline) (padded (some ' ') q.2.outline) = true := by
    decide +kernel
  exact hall (f.template, f.format) f.mem_mnemonics (g.template, g.format) g.mem_mnemonics
    (template_inj.not.2 h)

theorem length_text_le (w : Word) : (Instruction.decode w).text.toList.length ≤ columnWidth := by
  have hall : ∀ p ∈ Format.mnemonics, p.2.outline.length ≤ columnWidth := by decide +kernel
  rw [← (outlines_text w).length_eq]
  exact hall _ (mem_mnemonics _)

end Form

/-- A mnemonic in its column tells the word. -/
theorem Instruction.column_inj {w w' : Word} :
    (decode w).column = (decode w').column ↔ w = w' := by
  refine ⟨fun h => ?_, fun h => h ▸ rfl⟩
  have houtline := (Form.outlines_text w).padded
  have houtline' := (Form.outlines_text w').padded
  by_cases hform : Form.ofWord w = Form.ofWord w'
  · -- Texts of one format are equally long, so that the columns end with the same blanks.
    have hlength : (decode w).text.toList.length = (decode w').text.toList.length := by
      rw [← (Form.outlines_text w).length_eq, ← (Form.outlines_text w').length_eq, hform]
    have htext := (List.append_inj h hlength).1
    rw [Form.toList_text, Form.toList_text, ← hform] at htext
    exact Form.eq_of_fields rfl hform.symm
      (Format.forall_gaps_eq (Form.fits_format _ w) (Form.fits_format _ w') htext)
  · have hclash := Form.clash_of_ne hform
    rw [column] at h
    rw [h, column] at houtline
    rw [Format.not_clash houtline houtline'] at hclash
    cases hclash

theorem Instruction.describe?_inj {w w' : Word} :
    (decode w).describe? = (decode w').describe? ↔ w = w' := by
  refine ⟨fun h => ?_, fun h => h ▸ rfl⟩
  rw [describe?_eq, describe?_eq, Option.some_inj] at h
  have hcolumn : (decode w).column = (decode w').column := by rw [column, h, column]
  exact column_inj.1 hcolumn

/-! ### Traces -/

/-- The mnemonic in a line of a trace, in its column. Other lines for debugging do
    not begin with an address. -/
def LogLine.column? (l : LogLine) : Option (List Char) :=
  if l.level = .debug ∧ l.text.toList.head? = some '0' then
    some ((l.text.toList.drop 14).take columnWidth)
  else none

namespace Machine

variable {s s' : Setup} {m m' : Machine}

/-- The word that a call fetches, if it fetches one. -/
def fetched? (m : Machine) : Operation → Option Word
  | .act .step => if m.fault = none then m.nextWord? else none
  | _ => none

/-- The words that a sequence of calls fetches. -/
def fetchedAll (s : Setup) (m : Machine) : List Operation → List Word
  | [] => []
  | op :: ops => (m.fetched? op).toList ++ (m.perform s op).fetchedAll s ops

/-- The mnemonics in the log of a sequence of calls. -/
def mnemonics (s : Setup) (m : Machine) (ops : List Operation) : List (List Char) :=
  ((m.replies s ops).flatMap Reply.log).filterMap LogLine.column?

/-- A line of the trace has fourteen characters before the mnemonic. -/
theorem column?_traceLine {w : Word} (h : m.nextWord? = some w) :
    ((m.fetched w).traceLine (.decode w)).column? = some (Instruction.decode w).column := by
  obtain ⟨hpc, -⟩ := nextWord?_eq_some_iff.1 h
  obtain ⟨address, haddress⟩ := Int.eq_ofNat_of_zero_le hpc.1
  have hplaces : (Hex.text 3 m.registers.pc).toList = Hex.places 3 address := by
    rw [haddress]
    exact Hex.toList_text (by decide) (by omega)
  have hword : (Hex.text 4 w.toNat).toList = Hex.places 4 w.toNat :=
    Hex.toList_text (by decide) w.toNat_lt
  have hcolumn : (Instruction.decode w).column.length = columnWidth :=
    length_padded (Form.length_text_le w)
  have htext : ((m.fetched w).traceLine (.decode w)).text.toList =
      ("0x".toList ++ Hex.places 3 address ++ ": 0x".toList ++ Hex.places 4 w.toNat ++ [' ']) ++
        ((Instruction.decode w).column ++ (' ' :: (m.fetched w).registers.dump.toList)) := by
    simp [traceLine, logLine, fetched, Instruction.decode, hplaces, hword, Instruction.column,
      padded, columnWidth, ← String.length_toList]
  have hfront : ("0x".toList ++ Hex.places 3 address ++ ": 0x".toList ++ Hex.places 4 w.toNat ++
      [' ']).length = 14 := by
    simp [Hex.length_places]
  rw [LogLine.column?, htext, List.drop_left' hfront, List.take_left' hcolumn, if_pos]
  exact ⟨rfl, rfl⟩

theorem filterMap_noteLines (ins : Instruction) :
    (noteLines ins).filterMap LogLine.column? = [] := by
  unfold noteLines
  split
  · simp [LogLine.column?, logLine]
  · rfl

/-- Warnings and errors have no mnemonic. -/
theorem filterMap_logLine (level : Level) (text : String) (h : level ≠ .debug) :
    [logLine level text].filterMap LogLine.column? = [] :=
  List.filterMap_cons_none (if_neg fun hline => h hline.1)

/-- Of an instruction that is traced, only the first line has the mnemonic. -/
theorem filterMap_trace {w : Word} {more : List LogLine} (h : m.nextWord? = some w)
    (hmore : more.filterMap LogLine.column? = []) :
    ((m.fetched w).traceLine (.decode w) :: noteLines (.decode w) ++ more).filterMap
      LogLine.column? = [(Instruction.decode w).column] := by
  rw [List.filterMap_append, hmore, List.append_nil,
    List.filterMap_cons_some (column?_traceLine h), filterMap_noteLines]

theorem filterMap_step (hs : s.debug = true) (m : Machine) :
    (m.step s).log.filterMap LogLine.column? =
      ((m.fetched? (.act .step)).map fun w => (Instruction.decode w).column).toList := by
  unfold step fetched?
  cases m.fault with
  | some fault => rfl
  | none =>
    cases hword : m.nextWord? with
    | none => exact filterMap_logLine .error _ (by decide)
    | some w =>
      simp only [hs, if_true, Option.map_some, Option.toList_some]
      cases (m.fetched w).execute s (.decode w) with
      | error cause =>
        simp only [halt]
        exact filterMap_trace hword (filterMap_logLine .error _ (by decide))
      | ok e =>
        simp only [commit, warningLine]
        split
        · exact filterMap_trace hword (filterMap_logLine .warning _ (by decide))
        · have htrace := filterMap_trace hword List.filterMap_nil
          rwa [List.append_nil] at htrace

theorem filterMap_reply (hs : s.debug = true) (m : Machine) (op : Operation) :
    (m.reply s op).log.filterMap LogLine.column? =
      ((m.fetched? op).map fun w => (Instruction.decode w).column).toList := by
  cases op with
  | load image =>
    simp only [reply, answer]
    cases m.load s.config image <;> rfl
  | reset => rfl
  | act a =>
    cases a with
    | tick => rfl
    | setKey k pressed =>
      simp only [reply, answer]
      cases m.setKey k pressed <;> rfl
    | step => exact filterMap_step hs m

theorem mnemonics_eq (hs : s.debug = true) (m : Machine) (ops : List Operation) :
    m.mnemonics s ops = (m.fetchedAll s ops).map fun w => (Instruction.decode w).column := by
  induction ops generalizing m with
  | nil => rfl
  | cons op ops ih =>
    have hrest := ih (m.perform s op)
    rw [mnemonics] at hrest ⊢
    rw [replies, List.flatMap_cons, List.filterMap_append, filterMap_reply hs, machine_reply, hrest,
      fetchedAll, List.map_append]
    cases m.fetched? op <;> rfl

end Machine

/-- The mnemonics of words lose nothing. Every integer stands for a word that has
    a mnemonic, and two of them have the same one just if they stand for the same
    word, having the same low sixteen bits. So do the mnemonics in a trace: if two
    machines that trace log the same ones, then, whatever the calls were, they have
    fetched the same words. -/
theorem disassembly :
    (∀ a : Int, (Instruction.decode (Word.ofInt a)).describe? =
      some (Instruction.decode (Word.ofInt a)).text) ∧
    (∀ a b : Int, (Instruction.decode (Word.ofInt a)).describe? =
      (Instruction.decode (Word.ofInt b)).describe? ↔ a % 65536 = b % 65536) ∧
    ∀ (s s' : Setup) (m m' : Machine) (ops ops' : List Operation),
      s.debug = true → s'.debug = true → m.mnemonics s ops = m'.mnemonics s' ops' →
        m.fetchedAll s ops = m'.fetchedAll s' ops' := by
  refine ⟨fun a => describe?_eq _, fun a b => ?_, fun s s' m m' ops ops' hs hs' h => ?_⟩
  · rw [Instruction.describe?_inj, ← UInt16.toNat_inj, ← Int.natCast_inj, Word.toNat_ofInt,
      Word.toNat_ofInt]
  · rw [Machine.mnemonics_eq hs, Machine.mnemonics_eq hs'] at h
    exact List.map_injective_iff.2 (fun _ _ => Instruction.column_inj.1) h

end Chip8
