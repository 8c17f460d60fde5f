import Chip8.Keymap
import Mathlib.Data.List.Forall2
import Mathlib.Data.List.Nodup

/-!
# Keymaps are one to one

A keymap is read part by part, and refused at the first part that is no number, that
cannot be folded, or whose code was there before. All the same it depends on the parts
as a whole: it is accepted if they are sixteen numerals of different codes (`Reads`),
and then each key has one code, that of its own part, and no two keys share one.

* `readCode_eq_ok_iff`, `readCodes_eq_ok_iff`: the codes that parts are read as, none
  of them twice;
* `exists_message_of_readCodes`: why parts are refused, if their numbers can be folded;
* `key?_eq_some_iff_getElem?`: the keys of different codes are their places;
* `parse_one_to_one`: which texts are keymaps, and which keys their codes stand for.
-/

namespace Chip8.Keymap

variable {fold : Bool} {part : List Char} {parts : List (List Char)} {number code : Int}
  {before codes : List Int} {e : KeymapError}

/-- The code that a number stands for: the number itself or, if characters are folded,
    the lower case of the code point that it is, provided it is a single one. -/
def code? (fold : Bool) (number : Int) : Option Int :=
  if fold then
    if 0 ≤ number ∧ number ≤ 0x10FFFF then (Text.lowerCode? number.toNat).map Int.ofNat else none
  else some number

/-- A part is a numeral, and stands for a code. -/
def Reads (fold : Bool) (part : List Char) (code : Int) : Prop :=
  ∃ number, Numeral.readDecimal? (String.ofList part) = some number ∧
    code? fold number = some code

/-! ### A part -/

theorem foldCode_eq_ok_iff : foldCode number = .ok code ↔ code? true number = some code := by
  rw [code?, if_pos rfl, foldCode]
  by_cases hpoint : 0 ≤ number ∧ number ≤ 0x10FFFF
  · rw [if_neg (by omega), if_neg (by omega), if_pos hpoint]
    cases Text.lowerCode? number.toNat <;> simp
  · rw [if_neg hpoint]
    split
    · simp
    · rw [if_pos (by omega)]
      simp

theorem readCode_eq_ok_iff : readCode fold part = .ok code ↔ Reads fold part code := by
  unfold readCode Reads
  cases hnumber : Numeral.readDecimal? (String.ofList part) with
  | none => simp
  | some number =>
    simp only [Option.some_inj, exists_eq_left']
    cases fold with
    | false => simp [code?]
    | true =>
      rw [← foldCode_eq_ok_iff, if_pos rfl]
      cases foldCode number <;> simp [Except.mapError]

/-- A part is refused if it is no numeral, or if its number cannot be folded. -/
theorem readCode_eq_error (h : readCode fold part = .error e) :
    e = .notNumbers ∨
      ∃ number, Numeral.readDecimal? (String.ofList part) = some number ∧
        code? fold number = none := by
  unfold readCode at h
  cases hnumber : Numeral.readDecimal? (String.ofList part) with
  | none =>
    rw [hnumber] at h
    cases h
    exact .inl rfl
  | some number =>
    simp only [hnumber] at h
    refine .inr ⟨number, rfl, ?_⟩
    cases fold with
    | false => cases h
    | true =>
      cases hcode : code? true number with
      | none => rfl
      | some code =>
        rw [if_pos rfl, foldCode_eq_ok_iff.2 hcode] at h
        cases h

/-! ### The parts -/

theorem readCodes_cons (fold : Bool) (before : List Int) (part : List Char)
    (parts : List (List Char)) :
    readCodes fold before (part :: parts) =
      match readCode fold part with
      | .error e => .error e
      | .ok code =>
        if code ∈ before then .error .duplicate
        else (readCodes fold (code :: before) parts).map (code :: ·) := by
  rw [readCodes]
  cases readCode fold part with
  | error e => rfl
  | ok code =>
    simp only [bind, Except.bind, List.contains_iff_mem]
    split
    · rfl
    · cases readCodes fold (code :: before) parts <;> rfl

/-- Parts are read as codes that are all different, also from those before. -/
theorem readCodes_eq_ok_iff :
    readCodes fold before parts = .ok codes ↔
      List.Forall₂ (Reads fold) parts codes ∧ codes.Nodup ∧ ∀ code ∈ codes, code ∉ before := by
  induction parts generalizing before codes with
  | nil =>
    simp only [readCodes, Except.ok.injEq, List.forall₂_nil_left_iff]
    constructor
    · rintro rfl
      exact ⟨rfl, List.nodup_nil, List.forall_mem_nil _⟩
    · exact fun h => h.1.symm
  | cons part parts ih =>
    rw [readCodes_cons, List.forall₂_cons_left_iff]
    constructor
    · intro h
      cases hcode : readCode fold part with
      | error e => rw [hcode] at h; cases h
      | ok code =>
        simp only [hcode] at h
        split at h
        · cases h
        · cases hrest : readCodes fold (code :: before) parts with
          | error e => rw [hrest] at h; cases h
          | ok rest =>
            rw [hrest] at h
            cases h
            obtain ⟨hreads, hnodup, hnew⟩ := ih.1 hrest
            have hcodes : code ∉ rest := fun hmem => hnew code hmem List.mem_cons_self
            refine ⟨⟨code, rest, readCode_eq_ok_iff.1 hcode, hreads, rfl⟩,
              List.nodup_cons.2 ⟨hcodes, hnodup⟩, List.forall_mem_cons.2 ⟨‹_›, ?_⟩⟩
            exact fun other hmem hbefore => hnew other hmem (List.mem_cons_of_mem _ hbefore)
    · rintro ⟨⟨code, rest, hcode, hreads, rfl⟩, hnodup, hnew⟩
      obtain ⟨hcodes, hnodup⟩ := List.nodup_cons.1 hnodup
      obtain ⟨hfirst, hlater⟩ := List.forall_mem_cons.1 hnew
      have hrest : readCodes fold (code :: before) parts = .ok rest := by
        refine ih.2 ⟨hreads, hnodup, fun other hmem hbefore => ?_⟩
        rcases List.mem_cons.1 hbefore with rfl | hbefore
        · exact hcodes hmem
        · exact hlater other hmem hbefore
      simp only [readCode_eq_ok_iff.2 hcode, if_neg hfirst, hrest]
      rfl

/-- The numbers of the parts can be folded. -/
def Foldable (parts : List (List Char)) : Prop :=
  ∀ part ∈ parts, ∀ number ∈ Numeral.readDecimal? (String.ofList part),
    (code? true number).isSome
  deriving Decidable

/-- Parts are refused with a message, if their numbers need not be folded or can be. -/
theorem exists_message_of_readCodes (hfold : fold = true → Foldable parts)
    (h : readCodes fold before parts = .error e) : ∃ message, e.message? = some message := by
  induction parts generalizing before with
  | nil => cases h
  | cons part parts ih =>
    have hpart (hfolds : fold = true) := (List.forall_mem_cons.1 (hfold hfolds)).1
    have hparts (hfolds : fold = true) := (List.forall_mem_cons.1 (hfold hfolds)).2
    rw [readCodes_cons] at h
    cases hcode : readCode fold part with
    | error cause =>
      rw [hcode] at h
      cases h
      rcases readCode_eq_error hcode with rfl | ⟨number, hnumber, hnone⟩
      · exact ⟨_, rfl⟩
      · cases fold with
        | false => cases hnone
        | true =>
          have hsome := hpart rfl number hnumber
          rw [hnone] at hsome
          cases hsome
    | ok code =>
      simp only [hcode] at h
      split at h
      · cases h
        exact ⟨_, rfl⟩
      · cases hrest : readCodes fold (code :: before) parts with
        | error cause =>
          rw [hrest] at h
          cases h
          exact ih hparts hrest
        | ok rest => rw [hrest] at h; cases h

/-! ### The keys -/

/-- Codes that are all different stand for the keys of their places. -/
theorem key?_eq_some_iff_getElem? {key : Key} (hlength : codes.length = 16)
    (hnodup : codes.Nodup) :
    (Keymap.mk codes).key? code = some key ↔ codes[key.val]? = some code := by
  have hplace {i : Nat} : codes.idxOf? code = some i ↔ codes[i]? = some code := by
    rw [List.idxOf?_eq_some_iff, List.getElem?_eq_some_iff]
    refine exists_congr fun hi => and_iff_left_of_imp ?_
    rintro rfl j hj hsame
    exact absurd ((List.Nodup.getElem_inj_iff hnodup).1 hsame) (Nat.ne_of_lt hj)
  rw [key?]
  cases hindex : codes.idxOf? code with
  | none =>
    refine iff_of_false nofun fun hcode => ?_
    rw [hplace.2 hcode] at hindex
    cases hindex
  | some i =>
    have hi : i < 16 := by
      obtain ⟨hi, -⟩ := List.getElem?_eq_some_iff.1 (hplace.1 hindex)
      omega
    simp only [dif_pos hi, Option.some_inj]
    constructor
    · rintro rfl
      exact hplace.1 hindex
    · intro hcode
      rw [hplace.2 hcode] at hindex
      exact Fin.ext (Option.some_inj.1 hindex).symm

/-- A part stands for one code at most. -/
theorem Reads.unique {other : Int} (h : Reads fold part code) (h' : Reads fold part other) :
    code = other := by
  obtain ⟨number, hnumber, hcode⟩ := h
  obtain ⟨number', hnumber', hother⟩ := h'
  obtain rfl : number = number' := Option.some_inj.1 (hnumber.symm.trans hnumber')
  exact Option.some_inj.1 (hcode.symm.trans hother)

/-- The code at a place is that of the part there. -/
theorem getElem?_codes_iff (h : List.Forall₂ (Reads fold) parts codes) (i : Nat) :
    codes[i]? = some code ↔ ∃ part, parts[i]? = some part ∧ Reads fold part code := by
  induction h generalizing i with
  | nil => simp
  | cons hread _ ih =>
    cases i with
    | zero =>
      simp only [List.getElem?_cons_zero, Option.some_inj, exists_eq_left']
      exact ⟨fun h => h ▸ hread, fun h => hread.unique h⟩
    | succ i => exact ih i

theorem parse_eq_ok_iff {text : String} {k : Keymap} :
    parse text fold = .ok k ↔
      (text.toList.splitOn ',').length = 16 ∧
        List.Forall₂ (Reads fold) (text.toList.splitOn ',') k.codes ∧ k.codes.Nodup := by
  rw [parse, Text.splitAt_eq_splitOn]
  by_cases hlength : (text.toList.splitOn ',').length = Keypad.keys
  · rw [if_neg (not_not_intro hlength)]
    cases hcodes : readCodes fold [] (text.toList.splitOn ',') with
    | error e =>
      refine iff_of_false nofun fun h => ?_
      have hok := readCodes_eq_ok_iff.2 ⟨h.2.1, h.2.2, fun _ _ => List.not_mem_nil⟩
      rw [hcodes] at hok
      cases hok
    | ok codes =>
      obtain ⟨hreads, hnodup, -⟩ := readCodes_eq_ok_iff.1 hcodes
      constructor
      · rintro ⟨⟩
        exact ⟨hlength, hreads, hnodup⟩
      · rintro ⟨-, hreads', -⟩
        have hsame : codes = k.codes :=
          List.ext_getElem? fun i => Option.ext fun code =>
            (getElem?_codes_iff hreads i).trans (getElem?_codes_iff hreads' i).symm
        rw [hsame]
        rfl
  · rw [if_pos hlength]
    exact iff_of_false nofun fun h => hlength h.1

/-- Which texts are keymaps: sixteen numerals between commas that stand for different
    codes. The code of each part then stands for the key of its place and nothing else
    does, so that each key has one code; any other text is refused with a message. If
    characters are folded, this goes for the folded numbers, provided they can be folded. -/
theorem parse_one_to_one (text : String) (fold : Bool)
    (hfold : fold = true → Foldable (text.toList.splitOn ',')) :
    let parts := text.toList.splitOn ','
    ((∃ k, parse text fold = .ok k) ↔
        parts.length = 16 ∧ ∃ codes, List.Forall₂ (Reads fold) parts codes ∧ codes.Nodup) ∧
      (∀ k, parse text fold = .ok k →
        (∀ code key, k.key? code = some key ↔
          ∃ part, parts[key.val]? = some part ∧ Reads fold part code) ∧
        ∀ key, ∃! code, k.key? code = some key) ∧
      ∀ e, parse text fold = .error e → ∃ message, e.message? = some message := by
  intro parts
  refine ⟨⟨?_, ?_⟩, fun k hparse => ?_, fun e hparse => ?_⟩
  · rintro ⟨k, hparse⟩
    obtain ⟨hlength, hreads, hnodup⟩ := parse_eq_ok_iff.1 hparse
    exact ⟨hlength, k.codes, hreads, hnodup⟩
  · rintro ⟨hlength, codes, hreads, hnodup⟩
    exact ⟨⟨codes⟩, parse_eq_ok_iff.2 ⟨hlength, hreads, hnodup⟩⟩
  · obtain ⟨hlength, hreads, hnodup⟩ := parse_eq_ok_iff.1 hparse
    have hkey (code : Int) (key : Key) : k.key? code = some key ↔ k.codes[key.val]? = some code :=
      key?_eq_some_iff_getElem? (hreads.length_eq.symm.trans hlength) hnodup
    refine ⟨fun code key => (hkey code key).trans (getElem?_codes_iff hreads key), fun key => ?_⟩
    have hlt : key.val < k.codes.length := by
      rw [← hreads.length_eq, hlength]
      exact key.lt_sixteen
    refine ⟨k.codes[key.val], (hkey _ key).2 (List.getElem?_eq_getElem hlt), fun code hcode => ?_⟩
    have hplace := (hkey code key).1 hcode
    rw [List.getElem?_eq_getElem hlt] at hplace
    exact (Option.some_inj.1 hplace).symm
  · rw [parse, Text.splitAt_eq_splitOn] at hparse
    split at hparse
    · cases hparse
      exact ⟨_, rfl⟩
    · cases hcodes : readCodes fold [] parts with
      | error cause =>
        rw [hcodes] at hparse
        cases hparse
        exact exists_message_of_readCodes hfold hcodes
      | ok codes => rw [hcodes] at hparse; cases hparse

/-- Capital letters stand for the keys of their places in lower case, however their codes
    are written. -/
theorem parse_one_to_one_capitals :
    let text := "65,+66, 67,0068,6_9,70,71,72,73,74,75,76,77,78,79 ,80"
    Foldable (text.toList.splitOn ',') ∧
      ∃ k, parse text true = .ok k ∧ k.key? 97 = some 0 ∧ k.key? 112 = some 15 ∧
        k.key? 65 = none ∧ ∀ key, ∃! code, k.key? code = some key := by
  intro text
  have hfold : Foldable (text.toList.splitOn ',') := by decide +kernel
  obtain ⟨-, hkeys, -⟩ := parse_one_to_one text true fun _ => hfold
  have hparse : parse text true = .ok ⟨(List.range 16).map fun i => (97 + i : Int)⟩ := by
    decide +kernel
  exact ⟨hfold, _, hparse, by decide, by decide, by decide, (hkeys _ hparse).2⟩

end Chip8.Keymap
