import Chip8.Proofs.Execution
import Chip8.Proofs.Run

/-!
# Waiting for a key

`Fx0A` waits without blocking: it moves the program counter back to itself and
is executed again by the next step, while the host goes on ticking the timers
and holding and releasing keys. A machine that waits (`WaitsAt`) is recognised
by its parts: it runs, its flag is set, and the word at its program counter is
the waiting instruction.

* `WaitsAt.step_of_none`, `WaitsAt.step_of_some`: a step of a waiting machine
  does nothing, or takes the latched key;
* `waitsAt_of_step`: a wait begins with the latch empty;
* `WaitsAt.actAll`: while a machine waits, the latch holds the latest key that
  went from released to pressed (`presses`).
-/

namespace Chip8.Machine

variable {s : Setup} {m : Machine} {p : Int} {w : Word} {key : Key}

/-- The machine waits for a key in the instruction `w` at the address `p`. -/
structure WaitsAt (m : Machine) (p : Int) (w : Word) : Prop where
  running : m.fault = none
  awaiting : m.awaiting = true
  pc : m.registers.pc = p
  range : 0 ≤ p ∧ p ≤ 0xFFE
  word : m.wordAt p = w
  digits : w.family = 0xF ∧ w.kk.toNat = 0x0A

/-! ### A step of a waiting machine -/

theorem execute_awaitKey (hw : w.family = 0xF ∧ w.kk.toNat = 0x0A) :
    m.execute s (.decode w) = .ok { machine := m.awaitKey w.x } := by
  simp only [execute, Instruction.decode, Form.ofWord_eq_awaitKey_iff.2 hw]

theorem WaitsAt.step (h : m.WaitsAt p w) :
    (m.step s).machine = (m.fetched w).awaitKey w.x ∧ (m.step s).result = .ok (.decode w) :=
  step_of_execute h.running (nextWord?_eq_some_iff.2 ⟨h.pc ▸ h.range, h.pc ▸ h.word⟩)
    (execute_awaitKey h.digits)

/-- Without a key a step leaves the machine waiting, the word fetched again. -/
theorem WaitsAt.step_of_none (h : m.WaitsAt p w) (hlatch : m.keypad.latch = none) :
    (m.step s).machine = { m with opcode := w, address := p } := by
  have hpc : p + 2 - 2 = p := by omega
  rw [h.step.1, awaitKey]
  simp only [fetched, h.awaiting, hlatch, h.pc, if_true, Registers.setPc, hpc]
  rw [← h.pc]

theorem WaitsAt.stays (h : m.WaitsAt p w) (s : Setup) (hlatch : m.keypad.latch = none) :
    (m.step s).machine.WaitsAt p w := by
  rw [h.step_of_none hlatch]
  exact ⟨h.running, h.awaiting, h.pc, h.range, h.word, h.digits⟩

/-- The latched key ends the wait. -/
theorem WaitsAt.step_of_some (h : m.WaitsAt p w) (hlatch : m.keypad.latch = some key) :
    (m.step s).machine =
      { m with
        opcode := w
        address := p
        registers := (m.registers.setPc (p + 2)).set w.x (UInt8.ofNat key.val)
        awaiting := false } := by
  rw [h.step.1, awaitKey]
  simp only [fetched, h.awaiting, hlatch, h.pc, if_true]

/-- A wait begins with the latch empty, whatever was pressed before. -/
theorem waitsAt_of_step (h₀ : m.awaiting = false) (h₁ : (m.step s).machine.awaiting = true) :
    (m.step s).machine.WaitsAt m.registers.pc (m.wordAt m.registers.pc) ∧
      (m.step s).machine.keypad = m.keypad.forget := by
  cases stepCase s m with
  | halted f fault machine => rw [machine, h₀] at h₁; cases h₁
  | outside running range machine => rw [machine] at h₁; exact absurd h₁ (by simp [h₀])
  | refused w c running range word refusal machine =>
    rw [machine] at h₁
    exact absurd h₁ (by simp [fetched, h₀])
  | executed w e running range word effect machine =>
    -- No other form of instruction touches the flag.
    by_cases hform : Form.ofWord w = .awaitKey
    · have hw := Form.ofWord_eq_awaitKey_iff.1 hform
      rw [execute_awaitKey hw] at effect
      cases effect
      have hback : m.registers.pc + 2 - 2 = m.registers.pc := by omega
      simp only [machine, reported, Option.elim_none, awaitKey, fetched, h₀]
      exact ⟨⟨running, rfl, hback, range, rfl, word ▸ hw⟩, rfl⟩
    · rw [machine] at h₁
      have := (execute_frame effect).awaiting hform
      exact absurd (this.symm.trans h₁) (by simp [fetched, h₀])

/-! ### Waits of reachable machines -/

theorem WaitsAt.tick (h : m.WaitsAt p w) : m.tick.WaitsAt p w :=
  ⟨h.running, h.awaiting, h.pc, h.range, h.word, h.digits⟩

theorem WaitsAt.setKey (h : m.WaitsAt p w) (s : Setup) (k : Int) (pressed : Bool) :
    (m.act s (.setKey k pressed)).WaitsAt p w := by
  rw [act_setKey]
  exact ⟨h.running, h.awaiting, h.pc, h.range, h.word, h.digits⟩

/-- If a machine waits, it does so in the instruction at its program counter. -/
def WaitsInPlace (m : Machine) : Prop :=
  m.awaiting = true → m.WaitsAt m.registers.pc (m.wordAt m.registers.pc)

theorem WaitsAt.inPlace (h : m.WaitsAt p w) : m.WaitsInPlace := by
  obtain rfl := h.pc
  obtain rfl := h.word
  exact fun _ => h

theorem WaitsInPlace.step (h : m.WaitsInPlace) (s : Setup) : (m.step s).machine.WaitsInPlace := by
  intro hnow
  cases hm : m.awaiting with
  | false => exact (waitsAt_of_step hm hnow).1.inPlace hnow
  | true =>
    have hw := h hm
    cases hlatch : m.keypad.latch with
    | none => exact (hw.stays s hlatch).inPlace hnow
    | some key =>
      -- The step ends the wait.
      rw [hw.step_of_some hlatch] at hnow
      cases hnow

theorem WaitsInPlace.perform (h : m.WaitsInPlace) (s : Setup) (op : Operation) :
    (m.perform s op).WaitsInPlace := by
  cases op with
  | load image =>
    simp only [Machine.perform]
    split
    · obtain ⟨program, _, rfl⟩ := load_eq_ok_iff.1 ‹_›
      exact nofun
    · exact h
  | reset => exact nofun
  | act a =>
    cases a with
    | step => exact h.step s
    | tick => exact fun hnow => (h hnow).tick
    | setKey k pressed =>
      intro hnow
      have hm : m.awaiting = true := by rwa [Machine.perform, act_setKey] at hnow
      exact ((h hm).setKey s k pressed).inPlace hnow

theorem waitsInPlace_performAll (s : Setup) (ops : List Operation) :
    ((powerOn s.config).performAll s ops).WaitsInPlace :=
  performAll_induction ops nofun fun _ op h => h.perform s op

/-! ### Presses during a wait -/

/-- The key that an action presses, if it holds one that was released. -/
def pressed (held : Vector Bool 16) : Action → List Key
  | .setKey k now =>
    match Keypad.key? k with
    | some key => if now && !held[key] then [key] else []
    | none => []
  | _ => []

/-- The held keys after an action. -/
def heldAfter (held : Vector Bool 16) : Action → Vector Bool 16
  | .setKey k now =>
    match Keypad.key? k with
    | some key => held.set key now
    | none => held
  | _ => held

/-- The keys that actions press, in order, going from released to pressed. -/
def presses (held : Vector Bool 16) : List Action → List Key
  | [] => []
  | a :: as => pressed held a ++ presses (heldAfter held a) as

theorem act_setKey_keypad (k : Int) (now : Bool) :
    (m.act s (.setKey k now)).keypad.held = heldAfter m.keypad.held (.setKey k now) ∧
      (m.act s (.setKey k now)).keypad.latch =
        (pressed m.keypad.held (.setKey k now)).getLast?.or m.keypad.latch := by
  rw [act_setKey, heldAfter, pressed]
  cases Keypad.key? k with
  | none => exact ⟨rfl, rfl⟩
  | some key =>
    refine ⟨rfl, ?_⟩
    simp only [Option.elim_some, Keypad.set]
    split <;> rfl

/-- A waiting machine goes on waiting, its latch holding the latest press, as
    long as no step finds a key there. -/
theorem WaitsAt.act (h : m.WaitsAt p w) (s : Setup) (a : Action)
    (hcalm : a = .step → m.keypad.latch = none) :
    (m.act s a).WaitsAt p w ∧ (m.act s a).keypad.held = heldAfter m.keypad.held a ∧
      (m.act s a).keypad.latch = (pressed m.keypad.held a).getLast?.or m.keypad.latch := by
  cases a with
  | step =>
    have hkeypad : (m.step s).machine.keypad = m.keypad :=
      (congrArg keypad (h.step_of_none (hcalm rfl)) :)
    exact ⟨h.stays s (hcalm rfl), congrArg Keypad.held hkeypad, congrArg Keypad.latch hkeypad⟩
  | tick => exact ⟨h.tick, rfl, rfl⟩
  | setKey k now => exact ⟨h.setKey s k now, act_setKey_keypad k now⟩

/-- So it does through any sequence of actions in which no step is made after a
    press. -/
theorem WaitsAt.actAll {as : List Action} (h : m.WaitsAt p w) (s : Setup)
    (hcalm : ∀ before after, as = before ++ .step :: after →
      m.keypad.latch = none ∧ presses m.keypad.held before = []) :
    (m.actAll s as).WaitsAt p w ∧
      (m.actAll s as).keypad.latch =
        (presses m.keypad.held as).getLast?.or m.keypad.latch := by
  -- The first action may press a key, which the latch then holds for the others.
  induction as generalizing m with
  | nil => exact ⟨h, rfl⟩
  | cons a as ih =>
    obtain ⟨hw, hheld, hlatch⟩ := h.act s a fun e => (hcalm [] as (e ▸ rfl)).1
    have hrest := ih hw fun before after e => by
      obtain ⟨hnone, hbefore⟩ := hcalm (a :: before) after (e ▸ rfl)
      rw [presses, List.append_eq_nil_iff] at hbefore
      rw [hlatch, hbefore.1, hnone, hheld]
      exact ⟨rfl, hbefore.2⟩
    rw [hheld, hlatch] at hrest
    rw [presses, List.getLast?_append, Option.or_assoc]
    exact hrest

theorem mem_pressed_iff {held : Vector Bool 16} {a : Action} :
    key ∈ pressed held a ↔ a = .setKey key.val true ∧ held[key] = false := by
  cases a with
  | step => simp [pressed]
  | tick => simp [pressed]
  | setKey k now =>
    simp only [pressed, Action.setKey.injEq, ← Keypad.key?_eq_some_iff]
    cases Keypad.key? k with
    | none => simp
    | some key' =>
      by_cases hk : key' = key
      · subst hk
        cases now <;> simp
      · have : ¬key = key' := fun e => hk e.symm
        simp [hk, this]

/-- A held key stays held unless it is released. -/
theorem heldAfter_eq_true {held : Vector Bool 16} {a : Action} (hheld : held[key] = true)
    (ha : a ≠ .setKey key.val false) : (heldAfter held a)[key] = true := by
  cases a with
  | step => exact hheld
  | tick => exact hheld
  | setKey k now =>
    cases hk : Keypad.key? k with
    | none =>
      simp only [heldAfter, hk]
      exact hheld
    | some key' =>
      simp only [heldAfter, hk, getElem_fin, Vector.getElem_set, Fin.val_inj]
      split
      · subst key'
        cases now with
        | true => rfl
        | false => exact absurd (congrArg (Action.setKey · false) (Keypad.key?_eq_some_iff.1 hk)) ha
      · exact hheld

/-- A key that is pressed, is pressed by some action. -/
theorem exists_press {held : Vector Bool 16} {as : List Action} (h : key ∈ presses held as) :
    ∃ before after, as = before ++ .setKey key.val true :: after := by
  induction as generalizing held with
  | nil => cases h
  | cons a as ih =>
    rcases List.mem_append.1 h with h | h
    · exact ⟨[], as, (mem_pressed_iff.1 h).1 ▸ rfl⟩
    · obtain ⟨before, after, rfl⟩ := ih h
      exact ⟨a :: before, after, rfl⟩

/-- A key held at the start is pressed only after it has been released. -/
theorem exists_release {held : Vector Bool 16} {as : List Action} (hheld : held[key] = true)
    (h : key ∈ presses held as) :
    ∃ before between after,
      as = before ++ .setKey key.val false :: (between ++ .setKey key.val true :: after) := by
  induction as generalizing held with
  | nil => cases h
  | cons a as ih =>
    rcases List.mem_append.1 h with h | h
    · -- The first action cannot press a key that is held.
      rw [(mem_pressed_iff.1 h).2] at hheld
      cases hheld
    · by_cases ha : a = .setKey key.val false
      · -- It releases the key, and the press comes later.
        obtain ⟨between, after, rfl⟩ := exists_press h
        exact ⟨[], between, after, ha ▸ rfl⟩
      · obtain ⟨before, between, after, rfl⟩ := ih (heldAfter_eq_true hheld ha) h
        exact ⟨a :: before, between, after, rfl⟩

/-! ### The protocol -/

/-- Waiting for a key. A reachable machine that waits does so in the instruction
    at its program counter. From the step that begins a wait at `p` on, and
    whatever the host does in between, a step made before any press changes
    nothing but the record of the word fetched; the first step made after a
    press puts the latest one into `Vx` and goes on at `p + 2`. A key that was
    held when the wait began is pressed only after it has been released. -/
theorem key_wait (s : Setup) :
    (∀ ops : List Operation,
      let m := (powerOn s.config).performAll s ops
      m.awaiting = true →
        m.fault = none ∧ (0 ≤ m.registers.pc ∧ m.registers.pc ≤ 0xFFE) ∧
          (m.wordAt m.registers.pc).family = 0xF ∧
          (m.wordAt m.registers.pc).kk.toNat = 0x0A) ∧
    ∀ m : Machine, m.awaiting = false → (m.step s).machine.awaiting = true →
      let p := m.registers.pc
      let w := m.wordAt p
      let start := (m.step s).machine
      (w.family = 0xF ∧ w.kk.toNat = 0x0A) ∧
      ∀ as : List Action,
        (∀ before after, as = before ++ .step :: after →
          presses start.keypad.held before = []) →
        let now := start.actAll s as
        let next := (now.step s).machine
        (now.step s).result = .ok (.decode w) ∧
        (presses start.keypad.held as = [] →
          next = { now with opcode := w, address := p } ∧
            next.registers.pc = p ∧ next.awaiting = true) ∧
        (∀ key, (presses start.keypad.held as).getLast? = some key →
          next =
            { now with
              opcode := w
              address := p
              registers := (now.registers.setPc (p + 2)).set w.x (UInt8.ofNat key.val)
              awaiting := false }) ∧
        (∀ key, start.keypad.held[key] = true → key ∈ presses start.keypad.held as →
          ∃ before between after,
            as = before ++ .setKey key.val false ::
              (between ++ .setKey key.val true :: after)) := by
  constructor
  · intro ops m hm
    have h := waitsInPlace_performAll s ops hm
    exact ⟨h.running, h.range, h.digits⟩
  · intro m h₀ h₁ p w start
    obtain ⟨hstart, hkeypad⟩ := waitsAt_of_step h₀ h₁
    have hempty : start.keypad.latch = none := congrArg Keypad.latch hkeypad
    refine ⟨hstart.digits, ?_⟩
    intro as hcalm now next
    obtain ⟨hnow, hlatch⟩ := hstart.actAll s fun before after e => ⟨hempty, hcalm before after e⟩
    rw [hempty, Option.or_none] at hlatch
    refine ⟨hnow.step.2, fun hnone => ?_, fun key hkey => ?_, fun key => exists_release⟩
    · rw [hnone] at hlatch
      have hstay := hnow.stays s hlatch
      exact ⟨hnow.step_of_none hlatch, hstay.pc, hstay.awaiting⟩
    · rw [hkey] at hlatch
      exact hnow.step_of_some hlatch

/-- A machine about to wait for a key in `V3`, the key 5 held and the key 7
    latched from before. -/
def beforeWait : Machine :=
  { powerOn {} with
    memory := (Memory.blank _).putAll 0x200 [0xF3, 0x0A]
    keypad := ⟨Keypad.released.held.set 5 true, some 7⟩ }

/-- What happens to it: the key 5 is released and pressed again. -/
def pressAgain : List Action := [.step, .setKey 5 false, .tick, .setKey 5 true]

/-- A program that begins with a wait. -/
def waitAtOnce : List Operation := [.load (.bytes [0xF3, 0x0A]), .act .step]

/-- A loaded program waits at its start; and of the two keys only the one
    pressed during the wait ends it. -/
theorem key_wait_beforeWait :
    (((powerOn standardSetup.config).performAll standardSetup waitAtOnce).awaiting = true ∧
      ((powerOn standardSetup.config).performAll standardSetup waitAtOnce).fault = none) ∧
    beforeWait.awaiting = false ∧ (beforeWait.step standardSetup).machine.awaiting = true ∧
      (∀ before after, pressAgain = before ++ .step :: after →
        presses (beforeWait.step standardSetup).machine.keypad.held before = []) ∧
      (presses (beforeWait.step standardSetup).machine.keypad.held pressAgain).getLast? =
        some 5 ∧
      ((((beforeWait.step standardSetup).machine.actAll standardSetup pressAgain).step
        standardSetup).machine.registers.v[(3 : Fin 16)] = 5) := by
  have hloaded : ((powerOn standardSetup.config).performAll standardSetup waitAtOnce).awaiting =
      true := by decide +kernel
  have hoff : beforeWait.awaiting = false := rfl
  have hon : (beforeWait.step standardSetup).machine.awaiting = true := by decide +kernel
  have hcalm : ∀ before after, pressAgain = before ++ .step :: after →
      presses (beforeWait.step standardSetup).machine.keypad.held before = [] := by
    intro before after e
    cases before with
    | nil => rfl
    | cons a rest =>
      -- The only step of the sequence is its first action.
      have hstep : Action.step ∈ pressAgain.tail := by
        rw [e]
        exact List.mem_append_right _ List.mem_cons_self
      exact absurd hstep (by decide)
  have hlast : (presses (beforeWait.step standardSetup).machine.keypad.held
      pressAgain).getLast? = some 5 := by decide +kernel
  obtain ⟨hreachable, hwait⟩ := key_wait standardSetup
  obtain ⟨hrunning, -⟩ := hreachable waitAtOnce hloaded
  obtain ⟨-, hrun⟩ := hwait beforeWait hoff hon
  obtain ⟨-, -, hpress, -⟩ := hrun pressAgain hcalm
  refine ⟨⟨hloaded, hrunning⟩, hoff, hon, hcalm, hlast, ?_⟩
  have hx : (beforeWait.wordAt beforeWait.registers.pc).x = 3 := by decide +kernel
  rw [hpress 5 hlast]
  simp only [hx]
  exact Registers.v_set_self _ _ _

end Chip8.Machine
