import Chip8.Value.Text
import Mathlib.Data.Nat.Digits.Lemmas

/-!
# Values without a text

A message names a value by its text, and a whole number only has one up to a number of digits
(`Numeral.digitLimit`). So there are values that no message can name: the numbers beyond, and lists
and records with such a number somewhere in them (`Value.Overlong`).

* `writeDecimal?_eq_none_iff`: whole numbers that are not written;
* `literal?_eq_none_iff`, `shown?_eq_none_iff`: values that have no text;
* `Overlong.le_natAbs`: small numbers have one.
-/

namespace Chip8

theorem Numeral.writeDecimal?_eq_none_iff {k : Int} :
    writeDecimal? k = none ↔ digitLimit < (Nat.digits 10 k.natAbs).length := by
  have hpow (n : Nat) : Nat.pow 10 n = 10 ^ n := rfl
  rw [Nat.lt_digits_length_iff (by decide), writeDecimal?, hpow]
  split
  next h => exact iff_of_false nofun (Nat.not_le.2 h)
  next h => exact iff_of_true rfl (Nat.not_lt.1 h)

namespace Value

/-- Somewhere in the value is a whole number with more digits than are written. -/
inductive Overlong : Value → Prop
  | whole {k : Int} (h : Numeral.digitLimit < (Nat.digits 10 k.natAbs).length) :
    Overlong (.number (.whole k))
  | item {v : Value} {items : List Value} (hmem : v ∈ items) (h : Overlong v) :
    Overlong (.list items)
  | field {name : String} {v : Value} {fields : List (String × Value)}
    (hmem : (name, v) ∈ fields) (h : Overlong v) : Overlong (.record fields)

mutual

/-- A value has no text inside another one just if it is overlong. -/
theorem literal?_eq_none_iff : ∀ v : Value, v.literal? = none ↔ v.Overlong
  | null => iff_of_false nofun nofun
  | flag true => iff_of_false nofun nofun
  | flag false => iff_of_false nofun nofun
  | number (.real _) => iff_of_false nofun nofun
  | text _ => iff_of_false nofun nofun
  | number (.whole k) => by
    rw [literal?, Number.shown?, Numeral.writeDecimal?_eq_none_iff]
    exact ⟨.whole, fun | .whole h => h⟩
  | list items => by
    rw [literal?, Option.map_eq_none_iff, literals?_eq_none_iff items]
    exact ⟨fun ⟨_, hmem, h⟩ => .item hmem h, fun | .item hmem h => ⟨_, hmem, h⟩⟩
  | record fields => by
    rw [literal?, Option.map_eq_none_iff, fieldLiterals?_eq_none_iff fields]
    exact ⟨fun ⟨_, hmem, h⟩ => .field hmem h, fun | .field hmem h => ⟨_, hmem, h⟩⟩

theorem literals?_eq_none_iff : ∀ items : List Value,
    literals? items = none ↔ ∃ v ∈ items, v.Overlong
  | [] => iff_of_false nofun nofun
  | v :: rest => by
    rw [literals?, List.exists_mem_cons_iff, ← literal?_eq_none_iff v, ← literals?_eq_none_iff rest]
    cases v.literal? <;> cases literals? rest <;> simp

theorem fieldLiterals?_eq_none_iff : ∀ fields : List (String × Value),
    fieldLiterals? fields = none ↔ ∃ field ∈ fields, field.2.Overlong
  | [] => iff_of_false nofun nofun
  | (name, v) :: rest => by
    rw [fieldLiterals?, List.exists_mem_cons_iff, ← literal?_eq_none_iff v,
      ← fieldLiterals?_eq_none_iff rest]
    cases v.literal? <;> cases fieldLiterals? rest <;> simp

end

/-- A value has no text by itself either. -/
theorem shown?_eq_none_iff (v : Value) : v.shown? = none ↔ v.Overlong := by
  cases v with
  | text s => exact iff_of_false nofun nofun
  | null | flag | number | list | record => exact literal?_eq_none_iff _

/-- An overlong number is far from the small ones. -/
theorem Overlong.le_natAbs {k : Int} : (number (.whole k)).Overlong → 0x1000 ≤ k.natAbs
  | .whole h => by
    rw [Nat.lt_digits_length_iff (by decide)] at h
    have hlimit : 10 ^ 4 ≤ 10 ^ Numeral.digitLimit := Nat.pow_le_pow_right (by decide) (by decide)
    exact (by decide : 0x1000 ≤ 10 ^ 4).trans (hlimit.trans h)

end Value

end Chip8
