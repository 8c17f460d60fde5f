import Chip8.Proofs.KeyWait

/-!
# Where execution goes on

The program counter after a step, told by the digits of the word executed. A
jump, a call and a return name the address to go on at, a jump with an offset
adds a register to it, a skip depends on a condition, a wait for a key stays where
it is until it is over, and every other word is followed by the next one. None of
these addresses is held inside memory.

* `Word.Diverts`: the words that may go on elsewhere than with the next one;
* `Skips`: those that skip the next one, each with its condition;
* `nextPc_of_jump`, `nextPc_of_ret`, `nextPc_of_jumpOffset`, `nextPc_of_skips`,
  `nextPc_of_not_diverts`, `wait_of_execute`: the counter after each kind of word;
* `step_successor`: where every step that returns goes on.
-/

namespace Chip8

/-- The word may go on elsewhere than with the next one. -/
inductive Word.Diverts (w : Word) : Prop
  /-- `1nnn`, `2nnn`, `3xkk`, `4xkk` and `Bnnn`, which have a family of their own. -/
  | family (digit : w.family ∈ [0x1, 0x2, 0x3, 0x4, 0xB])
  | ret (word : w = 0x00EE)
  /-- `5xy0` and `9xy0`, which compare registers. -/
  | registers (family : w.family ∈ [0x5, 0x9]) (last : w.n = 0x0)
  /-- `Ex9E` and `ExA1`, which ask for a key. -/
  | keys (family : w.family = 0xE) (last : w.kk.toNat ∈ [0x9E, 0xA1])
  | wait (digits : w.family = 0xF ∧ w.kk.toNat = 0x0A)

/-- The second digit is the first one of the address in the last three. -/
theorem Word.x_eq_div (w : Word) : w.x.val = w.nnn / 0x100 := by
  simp only [x, nnn]
  omega

namespace Machine

variable {s : Setup} {m : Machine} {w : Word} {d : Dialect} {condition : Prop}
  {ins : Instruction}

/-- The word skips the next one if a condition holds, which is told of the machine
    that is about to fetch it. -/
inductive Skips (m : Machine) (w : Word) : Prop → Prop
  | eqByte (digit : w.family = 0x3) : Skips m w (m.registers.v[w.x] = w.kk)
  | neByte (digit : w.family = 0x4) : Skips m w (m.registers.v[w.x] ≠ w.kk)
  | eqRegister (digits : w.family = 0x5 ∧ w.n = 0x0) :
      Skips m w (m.registers.v[w.x] = m.registers.v[w.y])
  | neRegister (digits : w.family = 0x9 ∧ w.n = 0x0) :
      Skips m w (m.registers.v[w.x] ≠ m.registers.v[w.y])
  /-- The low digit of `Vx` names the key. -/
  | held (digits : w.family = 0xE ∧ w.kk.toNat = 0x9E) (key : Key)
      (low : key.val = m.registers.v[w.x].toNat % 16) : Skips m w (m.keypad.held[key] = true)
  | released (digits : w.family = 0xE ∧ w.kk.toNat = 0xA1) (key : Key)
      (low : key.val = m.registers.v[w.x].toNat % 16) : Skips m w (m.keypad.held[key] = false)

/-- The machine goes on after the word `w` as the word says, having become `m'`. -/
structure Successor (d : Dialect) (m : Machine) (w : Word) (m' : Machine) : Prop where
  jump : w.family = 0x1 ∨ w.family = 0x2 → m'.registers.pc = w.nnn
  ret : w = 0x00EE → ∃ rest, m.stack.items = m'.registers.pc :: rest
  jumpOffset : w.family = 0xB → ∃ k : Fin 16,
    (k.val = match d.jump with | .v0 => 0 | .vx => w.nnn / 0x100) ∧
      m'.registers.pc = w.nnn + m.registers.v[k].toNat
  skip : ∀ condition, m.Skips w condition →
    (condition → m'.registers.pc = m.registers.pc + 4) ∧
      (¬condition → m'.registers.pc = m.registers.pc + 2)
  /-- A wait that is on is over if a key is latched, and goes on if not; a wait
      that is not on begins. -/
  wait : w.family = 0xF ∧ w.kk.toNat = 0x0A →
    if m.awaiting = true ∧ m.keypad.latch ≠ none then
      m'.awaiting = false ∧ m'.registers.pc = m.registers.pc + 2
    else m'.awaiting = true ∧ m'.registers.pc = m.registers.pc
  next : ¬w.Diverts → m'.registers.pc = m.registers.pc + 2

/-! ### The program counter, word by word -/

theorem isHeld_natCast {p : Keypad} {n : Nat} {key : Key} (h : key.val = n % 16) :
    p.isHeld n = p.held[key] := by
  have hkey : Keypad.lowKey n = key := by
    simp only [Fin.ext_iff, Keypad.lowKey]
    omega
  rw [Keypad.isHeld, hkey]

theorem nextPc_of_jump (h : w.family = 0x1 ∨ w.family = 0x2) : m.nextPc d w = w.nnn := by
  rcases h with h | h <;> simp only [nextPc, Form.ofWord, h]

theorem nextPc_of_ret (h : w = 0x00EE) {address : Int} {rest : List Int}
    (hitems : m.stack.items = address :: rest) : m.nextPc d w = address := by
  simp only [nextPc, Form.ofWord_eq_ret_iff.2 h, hitems, List.headD_cons]

theorem nextPc_of_jumpOffset (h : w.family = 0xB) : ∃ k : Fin 16,
    (k.val = match d.jump with | .v0 => 0 | .vx => w.nnn / 0x100) ∧
      m.nextPc d w = w.nnn + m.registers.v[k].toNat := by
  simp only [nextPc, Form.ofWord, h]
  cases d.jump with
  | v0 => exact ⟨0, rfl, rfl⟩
  | vx => exact ⟨w.x, w.x_eq_div, rfl⟩

theorem nextPc_of_skips (h : m.Skips w condition) :
    (condition → m.nextPc d w = m.registers.pc + 4) ∧
      (¬condition → m.nextPc d w = m.registers.pc + 2) := by
  have hskip : ∃ b : Bool, (b = true ↔ condition) ∧
      m.nextPc d w = if b then m.registers.pc + 4 else m.registers.pc + 2 := by
    cases h with
    | eqByte digit =>
      exact ⟨m.registers.v[w.x] == w.kk, beq_iff_eq, by simp only [nextPc, Form.ofWord, digit]⟩
    | neByte digit =>
      exact ⟨m.registers.v[w.x] != w.kk, bne_iff_ne, by simp only [nextPc, Form.ofWord, digit]⟩
    | eqRegister digits =>
      exact ⟨m.registers.v[w.x] == m.registers.v[w.y], beq_iff_eq,
        by simp only [nextPc, Form.ofWord, digits, if_true]⟩
    | neRegister digits =>
      exact ⟨m.registers.v[w.x] != m.registers.v[w.y], bne_iff_ne,
        by simp only [nextPc, Form.ofWord, digits, if_true]⟩
    | held digits key low =>
      refine ⟨m.keypad.held[key], Iff.rfl, ?_⟩
      rw [← isHeld_natCast low]
      simp only [nextPc, Form.ofWord, digits]
    | released digits key low =>
      refine ⟨!m.keypad.held[key], by simp, ?_⟩
      rw [← isHeld_natCast low]
      simp only [nextPc, Form.ofWord, digits]
  obtain ⟨b, hb, hpc⟩ := hskip
  exact ⟨fun h => by rw [hpc, if_pos (hb.2 h)], fun h => by rw [hpc, if_neg (mt hb.1 h)]⟩

theorem nextPc_of_not_diverts (h : ¬w.Diverts) : m.nextPc d w = m.registers.pc + 2 := by
  unfold nextPc
  cases hform : Form.ofWord w
  -- The forms that may go on elsewhere have digits of their own.
  case jump | call | skipEqByte | skipNeByte | jumpOffset =>
    have hfamily := Form.digits_of_ofWord hform
    simp only at hfamily
    exact absurd (.family (by simp [hfamily])) h
  case ret => exact absurd (.ret (Form.digits_of_ofWord hform)) h
  case skipEqReg | skipNeReg =>
    obtain ⟨hfamily, hlast⟩ := Form.digits_of_ofWord hform
    exact absurd (.registers (by simp [hfamily]) hlast) h
  case skipHeld | skipReleased =>
    obtain ⟨hfamily, hlast⟩ := Form.digits_of_ofWord hform
    exact absurd (.keys hfamily (by simp [hlast])) h
  case awaitKey => exact absurd (.wait (Form.digits_of_ofWord hform)) h
  all_goals rfl

/-! ### Waiting for a key -/

theorem awaiting_awaitKey (x : Fin 16) :
    (m.awaitKey x).awaiting = !(m.awaiting && m.keypad.latch.isSome) := by
  unfold awaitKey
  cases m.awaiting <;> cases m.keypad.latch <;> rfl

/-- A wait is on after its instruction as long as the counter stays at it. -/
theorem wait_of_execute {e : Effect} (h : w.family = 0xF ∧ w.kk.toNat = 0x0A)
    (he : (m.fetched w).execute s (.decode w) = .ok e) :
    if m.awaiting = true ∧ m.keypad.latch ≠ none then
      e.machine.awaiting = false ∧ e.machine.registers.pc = m.registers.pc + 2
    else e.machine.awaiting = true ∧ e.machine.registers.pc = m.registers.pc := by
  have hpc := execute_pc he
  rw [execute_awaitKey h] at he
  cases he
  have hawaiting : ((m.fetched w).awaitKey w.x).awaiting =
      !(m.awaiting && m.keypad.latch.isSome) := awaiting_awaitKey w.x
  rw [hpc, hawaiting, nextPc, Form.ofWord_eq_awaitKey_iff.2 h]
  cases m.awaiting <;> cases m.keypad.latch <;> simp

/-! ### A step -/

/-- Where execution goes on. A step that returns has executed the word `w` at the
    program counter, and moves the counter as `w` says: to the address that a jump
    or a call names, to the innermost return address, to an address plus `V0` or,
    in some dialects, the register that the first digit of the address names; two
    words on if the condition of a skip holds; nowhere as long as a wait for a key
    begins or goes on; and one word on if the condition does not hold, if the wait
    is over, and for all other words. The registers, keys and return addresses are
    those before the step. -/
theorem step_successor (h : (m.step s).result = .ok ins) :
    let w := m.wordAt m.registers.pc
    ins = .decode w ∧ Successor s.config.dialect m w (m.step s).machine := by
  intro w
  obtain ⟨w', e, hfetch, rfl, heffect, hmachine⟩ := exists_effect_of_result h
  obtain rfl : w = w' := hfetch.word
  have hpc : (m.step s).machine.registers.pc = m.nextPc s.config.dialect w := by
    rw [hmachine]
    exact execute_pc heffect
  refine ⟨rfl, ?_⟩
  constructor
  case jump => exact fun hdigit => hpc.trans (nextPc_of_jump hdigit)
  case ret =>
    -- A return that is executed has an address to go back to.
    intro hword
    have hstack := execute_stack heffect
    simp only [Instruction.decode, Form.ofWord_eq_ret_iff.2 hword] at hstack
    obtain ⟨address, rest, hitems⟩ := List.exists_cons_of_ne_nil hstack.1
    have hbefore : m.stack.items = address :: rest := hitems
    exact ⟨rest, by rw [hpc, nextPc_of_ret hword hbefore, hbefore]⟩
  case jumpOffset => exact fun hdigit => hpc ▸ nextPc_of_jumpOffset hdigit
  case skip => exact fun _ hskips => hpc ▸ nextPc_of_skips hskips
  case wait => exact fun hdigits => hmachine ▸ wait_of_execute hdigits heffect
  case next => exact fun hnext => hpc.trans (nextPc_of_not_diverts hnext)

/-- The standard configuration, but for jumps with an offset. -/
def offsetSetup : Setup := ⟨{ dialect := { jump := .vx } }, fun _ => 0, false⟩

/-- A machine about to jump as far as a jump with an offset can. -/
def aboutToLeave : Machine :=
  { powerOn {} with
    memory := (Memory.blank _).putAll 0x200 [0xBF, 0xFF]
    registers := (Registers.blank 0x200).set 15 0xFF }

/-- It goes on outside of memory. -/
theorem step_successor_aboutToLeave :
    (aboutToLeave.step offsetSetup).result = .ok (.decode 0xBFFF) ∧
      (aboutToLeave.step offsetSetup).machine.registers.pc = 0x10FE := by
  have hfetch : aboutToLeave.Fetches 0xBFFF := ⟨rfl, by decide, by decide +kernel⟩
  have hresult := hfetch.result (s := offsetSetup) (by decide) (by decide)
  obtain ⟨-, hsuccessor⟩ := step_successor hresult
  rw [hfetch.word] at hsuccessor
  obtain ⟨k, hk, hpc⟩ := hsuccessor.jumpOffset (by decide)
  obtain rfl : k = 15 := Fin.ext hk
  exact ⟨hresult, hpc⟩

end Machine

end Chip8
