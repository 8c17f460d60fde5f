import Chip8.Config
import Chip8.Proofs.Spelling
import Mathlib.Data.List.Nodup

/-!
# Choices of a configuration

A configuration is read from named values of any kind: an address where programs are loaded, and a
choice on every topic. A choice may be given as anything that is equal to it (`Value.Equals`), and
what is not given is the default.

* `Dictionary`: named values, each name once;
* `Topic.Allows`, `IsLoadOffset`: the values that may be given;
* `readChoice_eq_ok`, `readChoice_eq_error`: what is read as a choice, and what is refused;
* `ReadCase`, `readCase`: all that reading a configuration can come to.
-/

namespace Chip8

/-- Named values, each name given once. -/
structure Dictionary where
  fields : List (String × Value)
  nodup : (fields.map (·.1)).Nodup

namespace Dictionary

variable {d : Dictionary} {name : String} {v : Value}

/-- The names given. -/
def names (d : Dictionary) : List String := d.fields.map (·.1)

/-- The first field of a name is its only one. -/
theorem lookup_eq_some_iff : Config.lookup d.fields name = some v ↔ (name, v) ∈ d.fields := by
  constructor
  · intro h
    obtain ⟨⟨_, _⟩, hfind, rfl⟩ := Option.map_eq_some_iff.1 h
    have hname := List.find?_some hfind
    obtain rfl := beq_iff_eq.1 hname
    exact List.mem_of_find?_eq_some hfind
  · intro hmem
    rcases hfind : d.fields.find? (·.1 == name) with _ | field
    · exact absurd (beq_self_eq_true name) (List.find?_eq_none.1 hfind _ hmem)
    · have hname := List.find?_some hfind
      have hsame : field = (name, v) :=
        List.inj_on_of_nodup_map d.nodup (List.mem_of_find?_eq_some hfind) hmem
          (beq_iff_eq.1 hname)
      rw [Config.lookup, hfind, hsame]
      rfl

theorem lookup_eq_none_iff : Config.lookup d.fields name = none ↔ name ∉ d.names := by
  rw [Config.lookup, Option.map_eq_none_iff, List.find?_eq_none, names, List.mem_map, not_exists]
  refine forall_congr' fun field => ?_
  rw [beq_iff_eq, not_and]

end Dictionary

/-! ### Equal values -/

/-- A value is equal to a text or a whole number: a text to itself, and a number by its value, a
    flag being 0 or 1. -/
inductive Value.Equals : Value → Value → Prop
  | text (s : String) : Equals (.text s) (.text s)
  | flag (b : Bool) : Equals (.flag b) (.number (.whole b.toInt))
  | whole (k : Int) : Equals (.number (.whole k)) (.number (.whole k))
  | real {x : Float} {k : Int} (h : Number.wholeIs k x = true) :
    Equals (.number (.real x)) (.number (.whole k))

section Equality

variable {v : Value}

theorem Value.same_text_iff {s : String} : v.same (.text s) = true ↔ v.Equals (.text s) := by
  constructor
  · intro h
    cases v with
    | text t =>
      obtain rfl := beq_iff_eq.1 h
      exact .text t
    | null | flag | number | list | record => cases h
  · rintro ⟨⟩
    exact beq_self_eq_true s

theorem Value.same_whole_iff {k : Int} :
    v.same (.number (.whole k)) = true ↔ v.Equals (.number (.whole k)) := by
  constructor
  · intro h
    cases v with
    | flag b =>
      obtain rfl := beq_iff_eq.1 h
      exact .flag b
    | number n =>
      cases n with
      | whole j =>
        obtain rfl := beq_iff_eq.1 h
        exact .whole j
      | real x => exact .real h
    | null | text | list | record => cases h
  · rintro (_ | _ | _ | h)
    · exact beq_self_eq_true _
    · exact beq_self_eq_true _
    · exact h

theorem Value.Equals.number {n : Number} (h : v.Equals (.number n)) : v.number? ≠ none := by
  cases h <;> nofun

theorem Value.whole?_eq_some_iff {k : Int} :
    v.whole? = some k ↔ (∃ b : Bool, v = .flag b ∧ b.toInt = k) ∨ v = .number (.whole k) := by
  cases v with
  | number n => cases n <;> simp [Value.whole?, Value.number?]
  | flag b => simp [Value.whole?, Value.number?]
  | null | text | list | record => simp [Value.whole?, Value.number?]

/-- A number counts as a yes if it is not zero. -/
theorem Value.truthy_of_number (h : v.number? ≠ none) :
    v.truthy = !v.same (.number (.whole 0)) := by
  cases v with
  | flag b => cases b <;> rfl
  | number n => cases n <;> rfl
  | null | text | list | record => exact absurd rfl h

end Equality

/-! ### What may be given -/

/-- The value is equal to one of the choices on a topic. -/
def Topic.Allows (t : Topic) (v : Value) : Prop :=
  v.Equals t.choices.1 ∨ v.Equals t.choices.2

/-- The topics that are looked at before one. -/
def Topic.earlier (t : Topic) : List Topic := Topic.all.takeWhile (· ≠ t)

theorem Topic.eq_or_earlier (t u : Topic) : t = u ∨ t ∈ u.earlier ∨ u ∈ t.earlier := by
  cases t <;> cases u <;> decide

theorem Value.Equals.overlong {v w : Value} (h : v.Equals w) (hlong : v.Overlong) :
    w.Overlong := by
  cases h with
  | whole k => exact hlong
  | text | flag | real => cases hlong

theorem Topic.not_overlong_choices (t : Topic) :
    ¬t.choices.1.Overlong ∧ ¬t.choices.2.Overlong := by
  cases t with
  | shift | drawWrap | jump => exact ⟨nofun, nofun⟩
  | storeLoad | addIndex =>
    exact ⟨fun h => absurd h.le_natAbs (by decide), fun h => absurd h.le_natAbs (by decide)⟩

/-- An overlong value is none of the choices. -/
theorem Value.Overlong.not_allows {v : Value} {t : Topic} (h : v.Overlong) : ¬t.Allows v := by
  rintro (hfirst | hsecond)
  · exact t.not_overlong_choices.1 (hfirst.overlong h)
  · exact t.not_overlong_choices.2 (hsecond.overlong h)

/-- What is kept of a choice: that between 0 and 1 as a flag, the others as they are. -/
def Topic.kept (t : Topic) (v : Value) : Value :=
  match t with
  | storeLoad | addIndex => .flag v.truthy
  | shift | drawWrap | jump => v

theorem Topic.same_choices_iff {t : Topic} {v : Value} :
    (v.same t.choices.1 = true ↔ v.Equals t.choices.1) ∧
      (v.same t.choices.2 = true ↔ v.Equals t.choices.2) := by
  cases t with
  | shift | drawWrap | jump => exact ⟨Value.same_text_iff, Value.same_text_iff⟩
  | storeLoad | addIndex => exact ⟨Value.same_whole_iff, Value.same_whole_iff⟩

/-- The dialect with the second choice on some topics, and the first on the others. -/
def Dialect.ofSecond (second : Topic → Bool) : Dialect where
  shift := if second .shift then .vy else .vx
  advanceIndex := second .storeLoad
  edges := if second .drawWrap then .clip else .wrap
  flagIndexOverflow := second .addIndex
  jump := if second .jump then .vx else .v0

namespace Config

variable {v : Value} {t : Topic} {b : Bool} {c : Config} {e : ConfigError}
  {offset : Option Value} {look : Topic → Option Value}

/-- The value is the number of an address that programs may be loaded at. -/
def IsLoadOffset (v : Value) : Prop :=
  ∃ k : Int, v = .number (.whole k) ∧ 0x200 ≤ k ∧ k ≤ 0xFFF

theorem readLoadOffset_eq_ok_iff {a : { a : Nat // reservedTop < a ∧ a < memoryEnd }} :
    readLoadOffset v = .ok a ↔ v = .number (.whole a.val) := by
  obtain ⟨a, ha⟩ := a
  have hreserved : 0x1FF < a := ha.1
  constructor
  · intro h
    rw [readLoadOffset] at h
    split at h
    next k hk =>
      split at h
      next hin =>
        obtain rfl : k.toNat = a := congrArg Subtype.val (Except.ok.inj h)
        rcases Value.whole?_eq_some_iff.1 hk with ⟨b, rfl, rfl⟩ | rfl
        · -- A flag is 0 or 1.
          cases b <;> exact absurd hreserved (by decide)
        · rw [Int.toNat_of_nonneg (by omega)]
      · cases h
    · cases h
  · rintro rfl
    exact dif_pos ha

theorem isLoadOffset_of_read {a : { a : Nat // reservedTop < a ∧ a < memoryEnd }}
    (h : readLoadOffset v = .ok a) : IsLoadOffset v := by
  have hmin : 0x1FF < a.val := a.2.1
  have hmax : a.val < 0x1000 := a.2.2
  exact ⟨a.val, readLoadOffset_eq_ok_iff.1 h, by omega, by omega⟩

/-- The load offset is refused only if it is not one. -/
theorem readLoadOffset_eq_error (h : readLoadOffset v = .error e) :
    e = .loadOffset ∧ ¬IsLoadOffset v := by
  constructor
  · rw [readLoadOffset] at h
    split at h
    · split at h <;> cases h
      rfl
    · cases h
      rfl
  · rintro ⟨k, rfl, hmin, hmax⟩
    have hin : reservedTop < k.toNat ∧ k.toNat < memoryEnd := by
      simp only [reservedTop, memoryEnd]
      omega
    cases h.symm.trans (dif_pos hin)

/-! ### A choice -/

/-- Whether a configuration has the second choice on a topic. -/
def takesSecond (c : Config) : Topic → Bool
  | .shift => c.dialect.shift = .vy
  | .storeLoad => c.dialect.advanceIndex
  | .drawWrap => c.dialect.edges = .clip
  | .addIndex => c.dialect.flagIndexOverflow
  | .jump => c.dialect.jump = .vx

theorem choice_eq (c : Config) (t : Topic) :
    c.choice t = t.kept (if c.takesSecond t then t.choices.2 else t.choices.1) := by
  obtain ⟨_, ⟨shift, advance, edges, flags, jump⟩, _, _⟩ := c
  cases t with
  | shift => cases shift <;> rfl
  | storeLoad => cases advance <;> rfl
  | drawWrap => cases edges <;> rfl
  | addIndex => cases flags <;> rfl
  | jump => cases jump <;> rfl

theorem dialect_eq (c : Config) : c.dialect = .ofSecond c.takesSecond := by
  obtain ⟨_, ⟨shift, advance, edges, flags, jump⟩, _, _⟩ := c
  cases shift <;> cases edges <;> cases jump <;> rfl

/-- A configuration is its load offset and its choices. -/
theorem eq_of_takesSecond {d : Config} (hoffset : c.loadOffset = d.loadOffset)
    (hchoices : ∀ t, c.takesSecond t = d.takesSecond t) : c = d := by
  have hdialect : c.dialect = d.dialect := by
    rw [dialect_eq, dialect_eq, funext hchoices]
  obtain ⟨offset, dialect, _, _⟩ := c
  cases hoffset
  cases hdialect
  rfl

/-- What is read as a choice is equal to it, and as much is kept of both. -/
theorem readChoice_eq_ok (h : readChoice t v = .ok b) :
    t.Allows v ∧ t.kept v = t.kept (if b then t.choices.2 else t.choices.1) := by
  rw [readChoice] at h
  split at h
  next hfirst =>
    cases h
    rw [Topic.same_choices_iff.1] at hfirst
    refine ⟨.inl hfirst, ?_⟩
    cases t with
    | shift | drawWrap | jump => cases hfirst; rfl
    | storeLoad | addIndex =>
      refine congrArg Value.flag ?_
      rw [Value.truthy_of_number hfirst.number, Value.same_whole_iff.2 hfirst]
      rfl
  next hfirst =>
    split at h
    next hsecond =>
      cases h
      rw [Topic.same_choices_iff.2] at hsecond
      refine ⟨.inr hsecond, ?_⟩
      cases t with
      | shift | drawWrap | jump => cases hsecond; rfl
      | storeLoad | addIndex =>
        have hnonzero : v.same (.number (.whole 0)) = false := Bool.eq_false_iff.2 hfirst
        refine congrArg Value.flag ?_
        rw [Value.truthy_of_number hsecond.number, hnonzero]
        rfl
    · cases h

theorem readChoice_eq_error (h : readChoice t v = .error e) : e = .choice t v ∧ ¬t.Allows v := by
  rw [readChoice] at h
  split at h
  · cases h
  split at h
  · cases h
  next hfirst hsecond =>
    cases h
    refine ⟨rfl, ?_⟩
    rw [Topic.Allows, ← Topic.same_choices_iff.1, ← Topic.same_choices_iff.2]
    exact not_or.2 ⟨hfirst, hsecond⟩

/-! ### Reading -/

/-- All that reading a configuration can come to: the load offset is refused, or the first choice
    that cannot be read is, or all of them are read and make up the configuration. -/
inductive ReadCase (offset : Option Value) (look : Topic → Option Value) :
    Except ConfigError Config → Prop
  | offset {e : ConfigError}
    (refused : readLoadOffset (offset.getD (.number (.whole standardLoadOffset))) = .error e) :
    ReadCase offset look (.error e)
  | choice {e : ConfigError} {t : Topic}
    (first : ∃ a, readLoadOffset (offset.getD (.number (.whole standardLoadOffset))) = .ok a)
    (earlier : ∀ u ∈ t.earlier, ∃ b, chosen look u = .ok b)
    (refused : chosen look t = .error e) : ReadCase offset look (.error e)
  | read {c : Config}
    (first : readLoadOffset (offset.getD (.number (.whole standardLoadOffset))) =
      .ok ⟨c.loadOffset, c.aboveReserved, c.belowEnd⟩)
    (choices : ∀ t, chosen look t = .ok (c.takesSecond t)) : ReadCase offset look (.ok c)

theorem readCase (offset : Option Value) (look : Topic → Option Value) :
    ReadCase offset look (read offset look) := by
  rw [read]
  rcases hoffset : readLoadOffset (offset.getD (.number (.whole standardLoadOffset))) with
    e | ⟨address, hin⟩
  · exact .offset hoffset
  rcases hshift : chosen look .shift with e | shift
  · exact .choice ⟨_, hoffset⟩ (by simp [Topic.earlier, Topic.all]) hshift
  rcases hstore : chosen look .storeLoad with e | storeLoad
  · exact .choice ⟨_, hoffset⟩ (by simp [Topic.earlier, Topic.all, hshift]) hstore
  rcases hwrap : chosen look .drawWrap with e | drawWrap
  · exact .choice ⟨_, hoffset⟩ (by simp [Topic.earlier, Topic.all, hshift, hstore]) hwrap
  rcases hindex : chosen look .addIndex with e | addIndex
  · exact .choice ⟨_, hoffset⟩ (by simp [Topic.earlier, Topic.all, hshift, hstore, hwrap]) hindex
  rcases hjump : chosen look .jump with e | jump
  · have hearlier : ∀ u ∈ Topic.earlier .jump, ∃ b, chosen look u = .ok b := by
      simp [Topic.earlier, Topic.all, hshift, hstore, hwrap, hindex]
    exact .choice ⟨_, hoffset⟩ hearlier hjump
  refine .read hoffset fun t => ?_
  cases t with
  | shift => rw [hshift]; cases shift <;> rfl
  | storeLoad => exact hstore
  | drawWrap => rw [hwrap]; cases drawWrap <;> rfl
  | addIndex => exact hindex
  | jump => rw [hjump]; cases jump <;> rfl

/-- A configuration is read if its load offset and its choices are. -/
theorem read_eq_ok
    (hoffset : readLoadOffset (offset.getD (.number (.whole standardLoadOffset))) =
      .ok ⟨c.loadOffset, c.aboveReserved, c.belowEnd⟩)
    (hchoices : ∀ t, chosen look t = .ok (c.takesSecond t)) : read offset look = .ok c := by
  have hcase := readCase offset look
  generalize read offset look = result at *
  cases hcase with
  | offset refused => cases hoffset.symm.trans refused
  | @choice e t first earlier refused => cases (hchoices t).symm.trans refused
  | @read d first choices =>
    refine congrArg _ (eq_of_takesSecond ?_ fun t => ?_)
    · exact congrArg Subtype.val (Except.ok.inj (first.symm.trans hoffset))
    · exact Except.ok.inj ((choices t).symm.trans (hchoices t))

/-- A load offset is only refused if it is given. -/
theorem offset_eq_error
    (h : readLoadOffset (offset.getD (.number (.whole standardLoadOffset))) = .error e) :
    ∃ v, offset = some v ∧ e = .loadOffset ∧ ¬IsLoadOffset v := by
  cases offset with
  | none =>
    have hstandard : IsLoadOffset (.number (.whole standardLoadOffset)) :=
      ⟨standardLoadOffset, rfl, by decide, by decide⟩
    exact absurd hstandard (readLoadOffset_eq_error h).2
  | some v => exact ⟨v, rfl, readLoadOffset_eq_error h⟩

/-- A choice is only refused if it is given. -/
theorem chosen_eq_error (h : chosen look t = .error e) :
    ∃ v, look t = some v ∧ e = .choice t v ∧ ¬t.Allows v := by
  rw [chosen] at h
  cases hlook : look t with
  | none =>
    rw [hlook] at h
    cases t <;> cases h
  | some v =>
    rw [hlook] at h
    exact ⟨v, rfl, readChoice_eq_error h⟩

end Config

end Chip8
