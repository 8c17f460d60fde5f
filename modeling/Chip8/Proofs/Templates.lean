import Chip8.Instruction.Mnemonic
import Mathlib.Algebra.Group.Nat.Defs
import Mathlib.Data.List.Forall2

/-!
# Templates

A template writes a form of instruction down as four characters: digits, which
a word of that form has in the same places, and letters, which stand for any
digit (`Matches`). Decoding looks at no template. It tells the forms apart by
the numbers in a word, family by family, and yet it comes to the same.

* `Hex.toList_text`: a number is written with its digits (`Hex.places`);
* `Form.agrees_of_ofWord`, `Form.ofWord_of_agrees`: the form of a word is the one
  whose template has the digits of the word;
* `Instruction.template_decode`: so decoding an integer is matching the digits
  of its low sixteen bits with the templates.
-/

namespace Chip8

/-! ### Digits -/

namespace Hex

/-- The last digits of a number, as many as there are places. -/
def places : Nat → Nat → List Char
  | 0, _ => []
  | width + 1, n => places width (n / 16) ++ [digit (n % 16)]

theorem digitChar_eq {n : Nat} (h : n < 16) : n.digitChar = digit n := by
  have hall : ∀ n < 16, n.digitChar = digit n := by decide
  exact hall n h

/-- A number that fits into the places is padded to all of them. -/
theorem toList_text {width n : Nat} (hwidth : 0 < width) (h : n < 16 ^ width) :
    (text width n).toList = places width n := by
  have hsign : ¬(n : Int) < 0 := Int.not_lt.2 (Int.natCast_nonneg n)
  simp only [text, if_neg hsign, Int.natAbs_natCast, String.toList_ofList, List.nil_append,
    List.length_nil, Nat.sub_zero, digits]
  clear hsign
  obtain ⟨width, rfl⟩ : ∃ k, width = k + 1 := ⟨width - 1, by omega⟩
  clear hwidth
  induction width generalizing n with
  | zero =>
    rw [Nat.zero_add, Nat.pow_one] at h
    rw [Nat.toDigits_of_lt_base h, digitChar_eq h]
    simp [places, Nat.mod_eq_of_lt h]
  | succ width ih =>
    have hquotient : n / 16 < 16 ^ (width + 1) := by
      rw [Nat.pow_succ] at h
      omega
    rw [places, ← ih hquotient]
    by_cases hn : n < 16
    · rw [Nat.toDigits_of_lt_base hn, Nat.div_eq_of_lt hn, Nat.mod_eq_of_lt hn, digitChar_eq hn]
      simp [List.replicate_succ']
    · -- The last digit comes off the number, and the padding stays the same.
      rw [Nat.toDigits_of_base_le (by decide) (Nat.le_of_not_lt hn),
        digitChar_eq (Nat.mod_lt n (by decide)), List.length_append, List.length_singleton,
        Nat.add_sub_add_right, List.append_assoc]

/-- An integer in hexadecimal with capital letters. -/
def capitals (width : Nat) (k : Int) : List Char :=
  (text width k).toList.map Char.toUpper

theorem value?_toUpper_digit {n : Nat} (h : n < 16) : value? (digit n).toUpper = some n := by
  have hall : ∀ n < 16, value? (digit n).toUpper = some n := by decide
  exact hall n h

end Hex

namespace Word

/-- The digits that a word is written with, as numbers. -/
def digits (w : Word) : List Nat :=
  [w.family, w.x.val, w.y.val, w.n]

theorem lt_of_mem_digits {w : Word} {d : Nat} (h : d ∈ w.digits) : d < 16 := by
  have := w.toNat_lt
  simp only [digits, family, x, y, n, List.mem_cons, List.not_mem_nil, or_false] at h
  omega

theorem toNat_eq (w : Word) :
    w.toNat = 4096 * w.family + 256 * w.x.val + 16 * w.y.val + w.n := by
  simp only [family, x, y, n]
  omega

theorem kk_eq (w : Word) : w.kk.toNat = 16 * w.y.val + w.n := by
  simp only [kk, y, n, UInt8.toNat_ofNat']
  omega

theorem nnn_eq (w : Word) : w.nnn = 256 * w.x.val + 16 * w.y.val + w.n := by
  simp only [nnn, x, y, n]
  omega

theorem toNat_ofInt (k : Int) : ((ofInt k).toNat : Int) = k % 65536 := by
  rw [ofInt, UInt16.toNat_ofNat']
  omega

/-- A word is written with its digits. -/
theorem capitals_eq (w : Word) :
    Hex.capitals 4 w.toNat = w.digits.map fun d => (Hex.digit d).toUpper := by
  have hfits : w.toNat < 16 ^ 4 := w.toNat_lt
  have hfamily : w.toNat / 16 / 16 / 16 % 16 = w.toNat / 4096 := by omega
  have hx : w.toNat / 16 / 16 % 16 = w.toNat / 256 % 16 := by omega
  rw [Hex.capitals, Hex.toList_text (by decide) hfits]
  simp only [Hex.places, List.nil_append, List.cons_append, List.map_cons, List.map_nil, hfamily,
    hx, digits, family, x, y, n]

end Word

/-! ### Matching -/

/-- The letters that stand for any digit in a template. -/
def operandLetters : List Char := ['x', 'y', 'n', 'k']

/-- Digits match a template if they are the same as its characters in all places
    but those of its letters. -/
def Matches (template : String) (digits : List Char) : Prop :=
  List.Forall₂ (fun t d => t ∈ operandLetters ∨ t = d) template.toList digits

namespace Form

variable {f g : Form} {w : Word}

/-- The digits that the template of a form fixes are those of a word. -/
def Agrees (f : Form) (w : Word) : Prop :=
  List.Forall₂ (fun t d => Hex.value? t = none ∨ Hex.value? t = some d) f.template.toList w.digits

/-- What templates consist of. -/
def templateChars : List Char := "0123456789ABCDEFxynk".toList

theorem mem_templateChars {t : Char} (hf : f ≠ unknown) (ht : t ∈ f.template.toList) :
    t ∈ templateChars := by
  have hall : f.template.toList.all (fun t => decide (t ∈ templateChars)) = true := by
    cases f
    case unknown => exact absurd rfl hf
    all_goals decide
  exact of_decide_eq_true (List.all_eq_true.1 hall t ht)

theorem letter_or_eq_iff {t : Char} {d : Nat} (ht : t ∈ templateChars) (hd : d < 16) :
    t ∈ operandLetters ∨ t = (Hex.digit d).toUpper ↔
      Hex.value? t = none ∨ Hex.value? t = some d := by
  have hall : templateChars.all (fun t => (List.range 16).all fun d =>
      decide (t ∈ operandLetters ∨ t = (Hex.digit d).toUpper ↔
        Hex.value? t = none ∨ Hex.value? t = some d)) = true := by decide +kernel
  have hdigit := List.all_eq_true.1 (List.all_eq_true.1 hall t ht) d (List.mem_range.2 hd)
  exact of_decide_eq_true hdigit

theorem matches_iff_agrees (hf : f ≠ unknown) :
    Matches f.template (Hex.capitals 4 w.toNat) ↔ f.Agrees w := by
  rw [Matches, Agrees, w.capitals_eq, List.forall₂_map_right_iff, List.forall₂_iff_zip,
    List.forall₂_iff_zip]
  refine and_congr_right fun _ => forall_congr' fun t => forall_congr' fun d => ?_
  refine forall_congr' fun h => ?_
  obtain ⟨ht, hd⟩ := List.of_mem_zip h
  exact letter_or_eq_iff (mem_templateChars hf ht) (Word.lt_of_mem_digits hd)

/-- A word has the digits that the template of its form fixes. -/
theorem agrees_of_ofWord (h : ofWord w = f) : f.Agrees w ∧ (f = unknown → w.family ≠ 0) := by
  have hkk := w.kk_eq
  have hy := w.y.isLt
  have hn : w.n < 16 := Nat.mod_lt _ (by decide)
  unfold ofWord at h
  repeat' split at h
  all_goals
    subst h
    simp [Agrees, template, Word.digits, Hex.value?, *]
  -- The low byte tells both of its digits, and two words are told as a whole.
  all_goals first | omega | decide

/-- The digits of a word tell its form, unless there is nothing else to tell. -/
theorem ofWord_of_agrees (h : f.Agrees w) (hsys : f ≠ sys) (hunknown : f ≠ unknown) :
    ofWord w = f := by
  have hkk := w.kk_eq
  have hw := w.toNat_eq
  cases f
  case sys => exact absurd rfl hsys
  case unknown => exact absurd rfl hunknown
  all_goals
    simp [Agrees, template, Word.digits, Hex.value?] at h
    simp [ofWord, ← h, ← UInt16.toNat_inj, hkk, hw]

theorem matches_iff_ofWord (hsys : f ≠ sys) (hunknown : f ≠ unknown) :
    Matches f.template (Hex.capitals 4 w.toNat) ↔ ofWord w = f := by
  rw [matches_iff_agrees hunknown]
  exact ⟨fun h => ofWord_of_agrees h hsys hunknown, fun h => (agrees_of_ofWord h).1⟩

theorem ofTemplate?_template (f : Form) : ofTemplate? f.template = some f := by
  cases f <;> decide

theorem template_inj : f.template = g.template ↔ f = g := by
  refine ⟨fun h => ?_, congrArg template⟩
  have := congrArg ofTemplate? h
  rwa [ofTemplate?_template, ofTemplate?_template, Option.some_inj] at this

/-- The templates of all words but of calls to the native processor. -/
def templates : List String := (all.map template).filter (· ≠ "0nnn")

theorem mem_templates_iff {t : String} :
    t ∈ templates ↔ ∃ f, f.template = t ∧ f ≠ sys ∧ f ≠ unknown := by
  constructor
  · intro ht
    obtain ⟨hall, hne⟩ := List.mem_filter.1 ht
    obtain ⟨f, hf, rfl⟩ := List.mem_map.1 hall
    refine ⟨f, rfl, fun h => of_decide_eq_true hne (h ▸ rfl), ?_⟩
    rintro rfl
    exact absurd hf (by decide)
  · rintro ⟨f, rfl, hsys, hunknown⟩
    cases f <;> first | exact absurd rfl hsys | exact absurd rfl hunknown | decide

theorem matches_iff_template {t : String} (ht : t ∈ templates) :
    Matches t (Hex.capitals 4 w.toNat) ↔ (ofWord w).template = t := by
  obtain ⟨f, rfl, hsys, hunknown⟩ := mem_templates_iff.1 ht
  rw [matches_iff_ofWord hsys hunknown, template_inj]

/-- A word that matches nothing calls the native processor or has no form. -/
theorem template_of_not_matches (h : ∀ t ∈ templates, ¬Matches t (Hex.capitals 4 w.toNat)) :
    (ofWord w).template =
      if (Hex.capitals 4 w.toNat).head? = some '0' then "0nnn" else "????" := by
  have hhead : (Hex.capitals 4 w.toNat).head? = some '0' ↔ w.family = 0 := by
    have hdigit : ∀ d < 16, (Hex.digit d).toUpper = '0' ↔ d = 0 := by decide
    rw [w.capitals_eq]
    exact Option.some_inj.trans (hdigit _ (Word.lt_of_mem_digits List.mem_cons_self))
  have hforms : ofWord w = sys ∨ ofWord w = unknown := by
    by_contra hne
    rw [not_or] at hne
    have ht := mem_templates_iff.2 ⟨ofWord w, rfl, hne⟩
    exact h _ ht ((matches_iff_template ht).2 rfl)
  rcases hforms with hform | hform
  · have hzero : sys.Agrees w := (agrees_of_ofWord hform).1
    have hfamily : w.family = 0 := by
      simpa [Agrees, template, Word.digits, Hex.value?, eq_comm] using hzero
    rw [hform, if_pos (hhead.2 hfamily)]
    rfl
  · rw [hform, if_neg (hhead.not.2 ((agrees_of_ofWord hform).2 rfl))]
    rfl

end Form

/-- An instruction is read off an opcode, written with the four digits `h`. -/
structure Instruction.ReadOff (i : Instruction) (opcode : Int) (h : List Char) : Prop where
  /-- The digits match its template, and no other one. -/
  form : ∀ t ∈ Form.templates, Matches t h ↔ i.form.template = t
  unique : ∀ t ∈ Form.templates, ∀ t' ∈ Form.templates, Matches t h → Matches t' h → t = t'
  /-- If they match none, it is a call to the native processor, or unknown. -/
  rest : (∀ t ∈ Form.templates, ¬Matches t h) →
    i.form.template = if h.head? = some '0' then "0nnn" else "????"
  /-- The fields are made up of the digits. -/
  fields : ∃ h₀ h₁ h₂ h₃ : Nat, h.map Hex.value? = [some h₀, some h₁, some h₂, some h₃] ∧
    i.word.operands =
      { opcode := opcode
        x := h₁
        y := h₂
        n := h₃
        kk := 16 * h₂ + h₃
        nnn := 256 * h₁ + 16 * h₂ + h₃ } ∧
    i.word.operands.opcode = 4096 * h₀ + i.word.operands.nnn ∧
    i.word.operands.opcode = 4096 * h₀ + 256 * i.word.operands.x + i.word.operands.kk ∧
    i.word.operands.kk = 16 * i.word.operands.y + i.word.operands.n

/-- Decoding is matching. Of all integers the low sixteen bits count, written with
    four digits. The instruction has the template that these match, of which there
    is one at most, not counting that of calls to the native processor; if there is
    none, it has that one for a word that begins with zero, and otherwise no form.
    Its fields are read off the digits. -/
theorem Instruction.template_decode (k : Int) :
    (Instruction.decode (Word.ofInt k)).ReadOff (k % 65536) (Hex.capitals 4 (k % 65536)) := by
  rw [← Word.toNat_ofInt]
  generalize Word.ofInt k = w
  have hmatch : ∀ t ∈ Form.templates,
      Matches t (Hex.capitals 4 w.toNat) ↔ (Instruction.decode w).form.template = t :=
    fun t ht => Form.matches_iff_template ht
  have hvalues : (Hex.capitals 4 w.toNat).map Hex.value? = w.digits.map some := by
    rw [w.capitals_eq, List.map_map]
    exact List.map_congr_left fun d hd => Hex.value?_toUpper_digit (Word.lt_of_mem_digits hd)
  refine ⟨hmatch, fun t ht t' ht' htm htm' => ?_, Form.template_of_not_matches,
    w.family, w.x.val, w.y.val, w.n, hvalues, ?_, ?_⟩
  · exact ((hmatch t ht).1 htm).symm.trans ((hmatch t' ht').1 htm')
  · simp [Instruction.decode, Word.operands, w.kk_eq, w.nnn_eq]
  · have hkk := w.kk_eq
    have hnnn := w.nnn_eq
    have hw := w.toNat_eq
    simp only [Instruction.decode, Word.operands]
    omega

end Chip8
