import Chip8.Instruction

/-!
# Words of a form

Which words have the forms that the program counter, the call stack, the display,
the keypad and memory depend on, told by their digits: `1nnn` and `Bnnn` jump,
`2nnn` calls, `00EE` returns, `3xkk`, `4xkk`, `5xy0`, `9xy0`, `Ex9E` and `ExA1`
skip, `Dxyn` draws, `Fx0A` waits for a key, `Fx33` stores decimal digits, `Fx55`
stores registers and `Fx65` loads them.
-/

namespace Chip8.Form

variable {w : Word} {f : Form}

/-- What its form says about the digits of a word, for the forms told apart
    here. -/
theorem digits_of_ofWord (h : ofWord w = f) :
    match f with
    | ret => w = 0x00EE
    | jump => w.family = 0x1
    | call => w.family = 0x2
    | skipEqByte => w.family = 0x3
    | skipNeByte => w.family = 0x4
    | skipEqReg => w.family = 0x5 ∧ w.n = 0x0
    | skipNeReg => w.family = 0x9 ∧ w.n = 0x0
    | jumpOffset => w.family = 0xB
    | draw => w.family = 0xD
    | skipHeld => w.family = 0xE ∧ w.kk.toNat = 0x9E
    | skipReleased => w.family = 0xE ∧ w.kk.toNat = 0xA1
    | awaitKey => w.family = 0xF ∧ w.kk.toNat = 0x0A
    | decimal => w.family = 0xF ∧ w.kk.toNat = 0x33
    | store => w.family = 0xF ∧ w.kk.toNat = 0x55
    | load => w.family = 0xF ∧ w.kk.toNat = 0x65
    | _ => True := by
  unfold ofWord at h
  -- Each of these forms comes from one branch, whose conditions are its digits.
  repeat' split at h
  all_goals
    subst h
    trivial

theorem ofWord_eq_ret_iff : ofWord w = ret ↔ w = 0x00EE :=
  ⟨digits_of_ofWord, fun h => h ▸ rfl⟩

theorem ofWord_eq_call_iff : ofWord w = call ↔ w.family = 0x2 :=
  ⟨digits_of_ofWord, fun h => by simp [ofWord, h]⟩

theorem ofWord_eq_draw_iff : ofWord w = draw ↔ w.family = 0xD :=
  ⟨digits_of_ofWord, fun h => by simp [ofWord, h]⟩

theorem ofWord_eq_awaitKey_iff : ofWord w = awaitKey ↔ w.family = 0xF ∧ w.kk.toNat = 0x0A :=
  ⟨digits_of_ofWord, fun ⟨h₁, h₂⟩ => by simp [ofWord, h₁, h₂]⟩

theorem ofWord_eq_decimal_iff : ofWord w = decimal ↔ w.family = 0xF ∧ w.kk.toNat = 0x33 :=
  ⟨digits_of_ofWord, fun ⟨h₁, h₂⟩ => by simp [ofWord, h₁, h₂]⟩

theorem ofWord_eq_store_iff : ofWord w = store ↔ w.family = 0xF ∧ w.kk.toNat = 0x55 :=
  ⟨digits_of_ofWord, fun ⟨h₁, h₂⟩ => by simp [ofWord, h₁, h₂]⟩

theorem ofWord_eq_load_iff : ofWord w = load ↔ w.family = 0xF ∧ w.kk.toNat = 0x65 :=
  ⟨digits_of_ofWord, fun ⟨h₁, h₂⟩ => by simp [ofWord, h₁, h₂]⟩

end Chip8.Form
