import Chip8.Bytes
import Chip8.Text.Hex

/-!
# The keypad

Sixteen keys that the host holds down or releases. A program that waits for a
key needs a fresh press, so the keypad latches the last key that went from
released to pressed; forgetting it starts a new wait.
-/

namespace Chip8

/-- A key of the hexadecimal keypad. -/
abbrev Key := Fin 16

theorem Key.lt_sixteen (key : Key) : key.val < 16 := key.isLt

/-- The held keys and the latched press. -/
structure Keypad where
  held : Vector Bool 16
  latch : Option Key
  deriving DecidableEq

/-- The refusal of a key that is not on the keypad. -/
structure KeypadError where
  key : Int
  deriving DecidableEq, Repr

/-- The text of the refusal. -/
def KeypadError.message (e : KeypadError) : String :=
  "Key 0x" ++ Hex.text 0 e.key ++ " does not exist on the keypad"

namespace Keypad

/-- Number of keys. -/
def keys : Nat := 16

/-- No key held, none latched. -/
def released : Keypad := ⟨Vector.replicate 16 false, none⟩

/-- The key that an integer is, if it is one. -/
def key? (k : Int) : Option Key :=
  if h : 0 ≤ k ∧ k < 16 then some ⟨k.toNat, by omega⟩ else none

theorem key?_eq_some_iff {k : Int} {key : Key} : key? k = some key ↔ k = key.val := by
  unfold key?
  split
  · rw [Option.some_inj, Fin.ext_iff]
    simp only
    omega
  · simp only [reduceCtorEq, false_iff]
    omega

theorem key?_eq_none_iff {k : Int} : key? k = none ↔ k < 0 ∨ 15 < k := by
  unfold key?
  split <;> simp only [reduceCtorEq, false_iff, true_iff] <;> omega

/-- The key in the low digit of an integer. -/
def lowKey (k : Int) : Key :=
  ⟨(k % 16).toNat, by omega⟩

/-- Holds or releases a key, latching it if it was not held. -/
def set (p : Keypad) (key : Key) (pressed : Bool) : Keypad where
  held := p.held.set key pressed key.lt_sixteen
  latch := if pressed && !p.held[key] then some key else p.latch

/-- Holds or releases the key that an integer is. -/
def setKey (p : Keypad) (k : Int) (pressed : Bool) : Except KeypadError Keypad :=
  match key? k with
  | some key => .ok (p.set key pressed)
  | none => .error ⟨k⟩

/-- Whether the key in the low digit of an integer is held. -/
def isHeld (p : Keypad) (k : Int) : Bool :=
  p.held[lowKey k]

/-- The keypad with no key latched. -/
def forget (p : Keypad) : Keypad :=
  { p with latch := none }

/-- The held keys in ascending order. -/
def heldKeys (p : Keypad) : List Nat :=
  (List.range 16).filter fun k => p.held[k]?.getD false

end Keypad

end Chip8
