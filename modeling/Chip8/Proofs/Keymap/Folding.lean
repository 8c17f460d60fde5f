import Chip8.Proofs.Keymap

/-!
# Keymaps refused without a message

A keymap is refused with a message, in all cases but one. Where characters are folded, a
number may be no character, or a character whose lower case is not a single one, and then
what comes out is the error of folding it. It comes out of a text with as many parts as
there are keys, at the first part that is not read as a new code (`Escapes`).

* `FoldError.Concerns`: which numbers an error of folding is about;
* `readCodes_eq_fold_iff`, `parse_eq_fold_iff`: when such an error comes out;
* `Reported`: a text is a whole keymap, or refused with a message;
* `reported_iff_not_escapes`: when it is.
-/

namespace Chip8

variable {number : Int} {cause : FoldError}

/-- The numbers that an error of folding is about. -/
def FoldError.Concerns (number : Int) : FoldError → Prop
  | tooLarge => number < -0x80000000 ∨ 0x7FFFFFFF < number
  | notCodePoint =>
    -0x80000000 ≤ number ∧ number < 0 ∨ 0x10FFFF < number ∧ number ≤ 0x7FFFFFFF
  | severalCharacters => number = 0x130

theorem Text.lowerCode?_eq_none_iff {code : Nat} : Text.lowerCode? code = none ↔ code = 0x130 := by
  unfold Text.lowerCode?
  split
  · exact iff_of_true rfl ‹_›
  · refine iff_of_false ?_ ‹_›
    split <;> simp

theorem foldCode_eq_error_iff : foldCode number = .error cause ↔ cause.Concerns number := by
  unfold foldCode
  by_cases hlarge : number < -2147483648 ∨ number > 2147483647
  · rw [if_pos hlarge, Except.error.injEq]
    cases cause <;> simp only [FoldError.Concerns, reduceCtorEq, true_iff, false_iff] <;> omega
  rw [if_neg hlarge]
  by_cases hpoint : number < 0 ∨ number > 0x10FFFF
  · rw [if_pos hpoint, Except.error.injEq]
    cases cause <;> simp only [FoldError.Concerns, reduceCtorEq, true_iff, false_iff] <;> omega
  rw [if_neg hpoint]
  cases hlower : Text.lowerCode? number.toNat with
  | some lower =>
    have hne : number.toNat ≠ 0x130 := fun h => by
      rw [Text.lowerCode?_eq_none_iff.2 h] at hlower
      cases hlower
    cases cause <;> simp only [FoldError.Concerns, reduceCtorEq, false_iff] <;> omega
  | none =>
    have heq := Text.lowerCode?_eq_none_iff.1 hlower
    simp only [Except.error.injEq]
    cases cause <;> simp only [FoldError.Concerns, reduceCtorEq, true_iff, false_iff] <;> omega

namespace Keymap

variable {fold : Bool} {part : List Char} {parts : List (List Char)} {before codes : List Int}
  {text : String} {k : Keymap}

/-! ### The error of folding a number -/

/-- Folding is what is wrong with a part whose number cannot be folded. -/
theorem readCode_eq_fold_iff :
    readCode fold part = .error (.fold cause) ↔
      fold = true ∧ ∃ number, Numeral.readDecimal? (String.ofList part) = some number ∧
        cause.Concerns number := by
  unfold readCode
  cases Numeral.readDecimal? (String.ofList part) with
  | none => simp
  | some number =>
    simp only [Option.some_inj, exists_eq_left', ← foldCode_eq_error_iff]
    cases fold with
    | false => simp
    | true => cases foldCode number <;> simp [Except.mapError]

/-- It is what is wrong with parts if it is with one of them, and those before are read. -/
theorem readCodes_eq_fold_iff :
    readCodes fold before parts = .error (.fold cause) ↔
      ∃ first part last codes, parts = first ++ part :: last ∧
        readCodes fold before first = .ok codes ∧ readCode fold part = .error (.fold cause) := by
  induction parts generalizing before with
  | nil => simp [readCodes]
  | cons part parts ih =>
    rw [readCodes_cons]
    constructor
    · intro h
      cases hcode : readCode fold part with
      | error e =>
        rw [hcode] at h
        cases h
        exact ⟨[], part, parts, [], rfl, rfl, hcode⟩
      | ok code =>
        simp only [hcode] at h
        split at h
        · cases h
        next hnew =>
          cases hrest : readCodes fold (code :: before) parts with
          | ok rest => rw [hrest] at h; cases h
          | error e =>
            rw [hrest] at h
            cases h
            obtain ⟨first, bad, last, codes, rfl, hfirst, hbad⟩ := ih.1 hrest
            refine ⟨part :: first, bad, last, code :: codes, rfl, ?_, hbad⟩
            simp only [readCodes_cons, hcode, if_neg hnew, hfirst]
            rfl
    · rintro ⟨first, bad, last, codes, hparts, hfirst, hbad⟩
      cases first with
      | nil =>
        cases hparts
        rw [hbad]
      | cons head first =>
        cases hparts
        rw [readCodes_cons] at hfirst
        cases hcode : readCode fold part with
        | error e => rw [hcode] at hfirst; cases hfirst
        | ok code =>
          simp only [hcode] at hfirst ⊢
          split at hfirst
          · cases hfirst
          next hnew =>
            cases hread : readCodes fold (code :: before) first with
            | error e => rw [hread] at hfirst; cases hfirst
            | ok read =>
              rw [if_neg hnew, ih.2 ⟨first, bad, last, read, rfl, hread, hbad⟩]
              rfl

/-- Reading a text ends at a part whose number cannot be folded: there are as many parts as
    keys, and those before that part are codes that are all different. -/
def Escapes (text : String) (cause : FoldError) : Prop :=
  (text.toList.splitOn ',').length = 16 ∧
    ∃ first part last codes, text.toList.splitOn ',' = first ++ part :: last ∧
      List.Forall₂ (Reads true) first codes ∧ codes.Nodup ∧
      ∃ number, Numeral.readDecimal? (String.ofList part) = some number ∧ cause.Concerns number

theorem parse_eq_fold_iff :
    parse text fold = .error (.fold cause) ↔ fold = true ∧ Escapes text cause := by
  rw [parse, Text.splitAt_eq_splitOn, Escapes]
  by_cases hlength : (text.toList.splitOn ',').length = Keypad.keys
  · have hmap {read : Except KeymapError (List Int)} :
        read.map Keymap.mk = .error (.fold cause) ↔ read = .error (.fold cause) := by
      cases read <;> simp [Except.map]
    rw [if_neg (not_not_intro hlength), hmap, readCodes_eq_fold_iff]
    constructor
    · rintro ⟨first, part, last, codes, hparts, hfirst, hpart⟩
      obtain ⟨rfl, hnumber⟩ := readCode_eq_fold_iff.1 hpart
      obtain ⟨hreads, hnodup, -⟩ := readCodes_eq_ok_iff.1 hfirst
      exact ⟨rfl, hlength, first, part, last, codes, hparts, hreads, hnodup, hnumber⟩
    · rintro ⟨rfl, -, first, part, last, codes, hparts, hreads, hnodup, hnumber⟩
      exact ⟨first, part, last, codes, hparts,
        readCodes_eq_ok_iff.2 ⟨hreads, hnodup, fun _ _ => List.not_mem_nil⟩,
        readCode_eq_fold_iff.2 ⟨rfl, hnumber⟩⟩
  · rw [if_pos hlength]
    exact iff_of_false (by simp) fun h => hlength h.2.1

/-! ### Whole keymaps and messages -/

/-- A keymap is whole: it has sixteen codes, all different, each of which stands for a key,
    and there is one for every key. -/
structure Whole (k : Keymap) : Prop where
  length : k.codes.length = 16
  nodup : k.codes.Nodup
  mem_iff : ∀ code, code ∈ k.codes ↔ ∃ key, k.key? code = some key
  onto : ∀ key, ∃ code, k.key? code = some key

theorem whole_of_parse (h : parse text fold = .ok k) : k.Whole := by
  obtain ⟨hparts, hreads, hnodup⟩ := parse_eq_ok_iff.1 h
  have hlength : k.codes.length = 16 := hreads.length_eq.symm.trans hparts
  have hkey (code : Int) (key : Key) : k.key? code = some key ↔ k.codes[key.val]? = some code :=
    key?_eq_some_iff_getElem? hlength hnodup
  refine ⟨hlength, hnodup, fun code => ?_, fun key => ?_⟩
  · simp only [hkey, List.mem_iff_getElem?]
    refine ⟨fun ⟨i, hi⟩ => ?_, fun ⟨key, hcode⟩ => ⟨key.val, hcode⟩⟩
    obtain ⟨hlt, -⟩ := List.getElem?_eq_some_iff.1 hi
    exact ⟨⟨i, by omega⟩, hi⟩
  · have hlt : key.val < k.codes.length := by
      rw [hlength]
      exact key.lt_sixteen
    exact ⟨k.codes[key.val], (hkey _ key).2 (List.getElem?_eq_getElem hlt)⟩

/-- A text is a whole keymap, or refused with a message. -/
def Reported (text : String) (fold : Bool) : Prop :=
  (∃ k, parse text fold = .ok k ∧ k.Whole) ∨
    ∃ e message, parse text fold = .error e ∧ e.message? = some message

/-- Which texts are whole keymaps or refused with a message: all of them if characters are
    not folded, and otherwise all that are not read up to a number that cannot be folded.
    From the others comes the error of folding that number. -/
theorem reported_iff_not_escapes (text : String) (fold : Bool) :
    (Reported text fold ↔ ¬(fold = true ∧ ∃ cause, Escapes text cause)) ∧
      ∀ cause, parse text fold = .error (.fold cause) ↔ fold = true ∧ Escapes text cause := by
  refine ⟨⟨?_, fun hnot => ?_⟩, fun cause => parse_eq_fold_iff⟩
  · rintro hreported ⟨hfold, cause, hescapes⟩
    have herror := parse_eq_fold_iff.2 ⟨hfold, hescapes⟩
    rcases hreported with ⟨k, hok, -⟩ | ⟨e, message, he, hmessage⟩
    · cases herror.symm.trans hok
    · cases herror.symm.trans he
      cases hmessage
  · cases hparse : parse text fold with
    | ok k => exact .inl ⟨k, hparse, whole_of_parse hparse⟩
    | error e =>
      cases e with
      | fold cause =>
        obtain ⟨hfold, hescapes⟩ := parse_eq_fold_iff.1 hparse
        exact absurd ⟨hfold, cause, hescapes⟩ hnot
      | wrongCount | notNumbers | duplicate => exact .inr ⟨_, _, hparse, rfl⟩

/-- A keymap of characters whose first code is negative is neither. -/
theorem not_reported_negativeCode :
    let text := "-1,1,2,3,4,5,6,7,8,9,10,11,12,13,14,15"
    parse text true = .error (.fold .notCodePoint) ∧ ¬Reported text true := by
  intro text
  have herror : parse text true = .error (.fold .notCodePoint) := by decide +kernel
  refine ⟨herror, ?_⟩
  rintro (⟨k, hok, -⟩ | ⟨e, message, he, hmessage⟩)
  · cases herror.symm.trans hok
  · cases herror.symm.trans he
    cases hmessage

end Keymap

end Chip8
