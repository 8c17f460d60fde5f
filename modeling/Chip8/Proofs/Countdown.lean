import Chip8.Proofs.Faults
import Chip8.Proofs.Footprint
import Chip8.Proofs.Guarded.Step
import Chip8.Proofs.KeyWait
import Mathlib.Data.List.DropRight

/-!
# The timers over whole runs

A program sets each timer by an instruction of its own (`Fx15`, `Fx18`), and the
host ticks both. Nothing else touches them, so that a timer holds what was stored
in it last, less a tick each since then, and never less than zero.

* `Counter`: one of the two timers;
* `stored?`, `lastStored`, `ticksSince`: what an action stores in a timer, what
  was stored last in a run, and the ticks since;
* `shown_act`, `shown_actAll`: a timer after an action, and after a run;
* `shown_idles`: a timer while the machine is halted or waits for a key;
* `timers_of_run`: both timers, and what depends on them.
-/

namespace Chip8

/-- The two timers. -/
inductive Counter
  | delay
  | sound

namespace Counter

/-- The form of instruction that sets a timer. -/
def setter : Counter → Form
  | delay => .setDelay
  | sound => .setSound

/-- What a timer shows. -/
def shown (c : Counter) (t : Timers) : Nat :=
  match c with
  | delay => t.delay.toNat
  | sound => t.sound.toNat

end Counter

namespace Machine

variable {s : Setup} {m : Machine} {c : Counter}

/-! ### What is stored in a run -/

/-- What an action stores in a timer: a step that executes `Fx15` or `Fx18` stores
    `Vx`. -/
def stored? (s : Setup) (c : Counter) : Machine × Action → Option Nat
  | (m, .step) =>
    match (m.step s).result with
    | .ok ins => if ins.form = c.setter then some m.registers.v[ins.word.x].toNat else none
    | .error _ => none
  | _ => none

/-- What was stored last in a timer, zero if nothing was. -/
def lastStored (s : Setup) (c : Counter) (run : List (Machine × Action)) : Nat :=
  (run.filterMap (stored? s c)).getLast?.getD 0

/-- The ticks since something was stored in a timer, all ticks if nothing was. -/
def ticksSince (s : Setup) (c : Counter) (run : List (Machine × Action)) : Nat :=
  (run.rtakeWhile fun moment => (stored? s c moment).isNone).countP (·.2 = .tick)

theorem lastStored_concat (run : List (Machine × Action)) (moment : Machine × Action) :
    lastStored s c (run ++ [moment]) = (stored? s c moment).getD (lastStored s c run) := by
  rw [lastStored, List.filterMap_append, List.getLast?_append]
  cases h : stored? s c moment <;> simp [h, lastStored]

theorem ticksSince_concat (run : List (Machine × Action)) (moment : Machine × Action) :
    ticksSince s c (run ++ [moment]) =
      if (stored? s c moment).isNone then
        ticksSince s c run + if moment.2 = .tick then 1 else 0
      else 0 := by
  rw [ticksSince, List.rtakeWhile_concat]
  split
  · rw [List.countP_append]
    simp [ticksSince, List.countP_singleton]
  · rfl

/-! ### An action -/

theorem countDown_toNat (t : UInt8) : (Timers.countDown t).toNat = t.toNat - 1 := by
  unfold Timers.countDown
  split
  · subst t
    rfl
  · have hpos : t.toNat ≠ 0 := fun h => ‹t ≠ 0› (UInt8.toNat_inj.1 h)
    have hone : (1 : UInt8).toNat = 1 := rfl
    have := t.toNat_lt
    rw [UInt8.toNat_sub, hone]
    omega

theorem stored?_of_executed {ins : Instruction} (h : (m.step s).result = .ok ins) :
    stored? s c (m, .step) =
      if ins.form = c.setter then some m.registers.v[ins.word.x].toNat else none := by
  simp only [stored?, h]

theorem stored?_of_failed {f : Fault} (h : (m.step s).result = .error f) :
    stored? s c (m, .step) = none := by
  simp only [stored?, h]

/-- An instruction sets a timer to `Vx`, or leaves it as it is. -/
theorem shown_execute {ins : Instruction} {e : Effect} (h : m.execute s ins = .ok e) :
    c.shown e.machine.timers =
      if ins.form = c.setter then m.registers.v[ins.word.x].toNat else c.shown m.timers := by
  obtain ⟨f, w⟩ := ins
  by_cases hform : f = c.setter
  · rw [if_pos hform]
    subst hform
    cases c <;>
    · simp only [execute, Counter.setter] at h
      cases h
      exact congrArg UInt8.toNat (lowByte_toNat _)
  · rw [if_neg hform]
    cases c with
    | delay => exact congrArg UInt8.toNat ((execute_timers h).1 hform)
    | sound => exact congrArg UInt8.toNat ((execute_timers h).2 hform)

theorem shown_step (s : Setup) (m : Machine) (c : Counter) :
    c.shown (m.step s).machine.timers = (stored? s c (m, .step)).getD (c.shown m.timers) := by
  cases stepCase s m with
  | halted f fault machine result => rw [stored?_of_failed result, machine]; rfl
  | outside running range machine result => rw [stored?_of_failed result, machine]; rfl
  | refused w cause running range word refusal machine result =>
    rw [stored?_of_failed result, machine]
    rfl
  | executed w e running range word effect machine result =>
    rw [stored?_of_executed result, machine]
    refine (shown_execute effect).trans ?_
    split <;> rfl

/-- A timer after an action: what the action stores in it or what it showed, less
    one if the action is a tick. -/
theorem shown_act (s : Setup) (m : Machine) (c : Counter) (a : Action) :
    c.shown (m.act s a).timers =
      (stored? s c (m, a)).getD (c.shown m.timers) - if a = .tick then 1 else 0 := by
  cases a with
  | step => exact shown_step s m c
  | tick => cases c <;> exact countDown_toNat _
  | setKey k pressed =>
    rw [act_setKey]
    rfl

/-! ### A run -/

/-- A timer that shows zero at the start of a run, at its end. -/
theorem shown_actAll (h : c.shown m.timers = 0) (as : List Action) :
    c.shown (m.actAll s as).timers =
      lastStored s c (m.moments s as) - ticksSince s c (m.moments s as) := by
  -- An action that stores something starts the count anew, every other one goes on with it.
  induction as using List.reverseRecOn with
  | nil => exact h
  | append_singleton as a ih =>
    have hlast : m.actAll s (as ++ [a]) = (m.actAll s as).act s a := List.foldl_concat ..
    rw [hlast, shown_act, ih, moments_append, moments, moments, lastStored_concat,
      ticksSince_concat]
    cases hstored : stored? s c (m.actAll s as, a) with
    | none =>
      simp only [Option.getD_none, Option.isNone_none, if_true]
      exact Nat.sub_sub ..
    | some value =>
      -- What stores something is a step, so no tick.
      have hstep : a ≠ .tick := fun ha => by subst ha; cases hstored
      simp [hstep]

/-- What is stored and ticked goes on from where it was, as long as nothing is
    stored. -/
theorem stored_append (run : List (Machine × Action)) {later : List (Machine × Action)}
    (h : ∀ moment ∈ later, stored? s c moment = none) :
    lastStored s c (run ++ later) = lastStored s c run ∧
      ticksSince s c (run ++ later) = ticksSince s c run + later.countP (·.2 = .tick) := by
  induction later using List.reverseRecOn with
  | nil => simp
  | append_singleton later moment ih =>
    obtain ⟨hlast, hticks⟩ := ih fun x hx => h x (List.mem_append_left _ hx)
    have hnone := h moment (by simp)
    rw [← List.append_assoc, lastStored_concat, ticksSince_concat, hnone, hlast, hticks,
      List.countP_append, List.countP_singleton]
    simp [Nat.add_assoc]

theorem countP_moments (as : List Action) :
    (m.moments s as).countP (·.2 = .tick) = as.count .tick := by
  induction as generalizing m with
  | nil => rfl
  | cons a as ih => rw [moments, List.countP_cons, List.count_cons, ih]; simp

/-- Every step of a run finds the machine halted or waiting for a key. -/
def Idles (s : Setup) (m : Machine) (as : List Action) : Prop :=
  ∀ before after, as = before ++ .step :: after →
    (m.actAll s before).fault ≠ none ∨ (m.actAll s before).awaiting = true

theorem WaitsInPlace.actAll (h : m.WaitsInPlace) (s : Setup) (as : List Action) :
    (m.actAll s as).WaitsInPlace :=
  actAll_induction as h fun _ a h => h.perform s (.act a)

/-- A step of a machine that is halted or waits stores nothing in the timers. -/
theorem stored?_of_idle (hplace : m.WaitsInPlace) (h : m.fault ≠ none ∨ m.awaiting = true) :
    stored? s c (m, .step) = none := by
  rcases h with hfault | hawaiting
  · obtain ⟨f, hf⟩ := Option.ne_none_iff_exists'.1 hfault
    exact stored?_of_failed (step_of_halted hf).1
  · have hwaits := hplace hawaiting
    rw [stored?_of_executed hwaits.step.2, if_neg]
    rw [Instruction.decode, Form.ofWord_eq_awaitKey_iff.2 hwaits.digits]
    cases c <;> simp [Counter.setter]

theorem stored?_of_idles {as : List Action} (hplace : m.WaitsInPlace) (h : m.Idles s as) :
    ∀ moment ∈ m.moments s as, stored? s c moment = none := by
  rintro ⟨m', a⟩ hmoment
  obtain ⟨before, after, has, rfl⟩ := mem_moments hmoment
  cases a with
  | step => exact stored?_of_idle (hplace.actAll s before) (h before after has)
  | tick => rfl
  | setKey k pressed => rfl

/-- While steps find the machine halted or waiting, a timer goes on counting down. -/
theorem shown_idles (h : c.shown m.timers = 0) (hplace : m.WaitsInPlace) {as later : List Action}
    (hidles : (m.actAll s as).Idles s later) :
    c.shown ((m.actAll s as).actAll s later).timers = lastStored s c (m.moments s as) -
      (ticksSince s c (m.moments s as) + later.count .tick) := by
  obtain ⟨hlast, hticks⟩ :=
    stored_append (m.moments s as) (stored?_of_idles (c := c) (hplace.actAll s as) hidles)
  have hrun := shown_actAll (s := s) h (as ++ later)
  rw [moments_append, hlast, hticks, countP_moments] at hrun
  rw [← hrun, actAll, actAll, actAll, List.foldl_append]

/-- `Fx07` reads the delay timer into `Vx`. -/
theorem step_readDelay {ins : Instruction} (h : (m.step s).result = .ok ins)
    (hform : ins.form = .readDelay) :
    (m.step s).machine.registers.v[ins.word.x] = m.timers.delay := by
  obtain ⟨w, e, -, rfl, he, hmachine⟩ := exists_effect_of_result h
  simp only [execute, hform] at he
  cases he
  rw [hmachine]
  exact Registers.v_set_self _ _ _

/-- The timers over whole runs. After any sequence of steps, ticks and keys from a
    reset on, the delay timer holds the value `d` stored by the latest `Fx15`, zero
    if there was none, less the `k` ticks since then, and never less than zero; so
    does the sound timer with the latest `Fx18`, whatever happens to the other one.
    They go on counting down while steps find the machine halted or waiting for a
    key. The buzzer sounds as long as there were fewer ticks than the value stored,
    and `Fx07` reads the delay timer into `Vx`. -/
theorem timers_of_run (s : Setup) (m : Machine) (as : List Action) :
    let start := m.reset s.config
    let run := start.moments s as
    let now := start.actAll s as
    let d : Int := lastStored s .delay run
    let k : Int := ticksSince s .delay run
    let e : Int := lastStored s .sound run
    let j : Int := ticksSince s .sound run
    (now.timers.delay.toNat = max 0 (d - k) ∧ now.timers.sound.toNat = max 0 (e - j)) ∧
      (∀ later, now.Idles s later →
        (now.actAll s later).timers.delay.toNat = max 0 (d - (k + later.count .tick)) ∧
          (now.actAll s later).timers.sound.toNat = max 0 (e - (j + later.count .tick))) ∧
      (now.sounding = true ↔ j < e) ∧
      ∀ ins, (now.step s).result = .ok ins → ins.form = .readDelay →
        (now.step s).machine.registers.v[ins.word.x].toNat = max 0 (d - k) := by
  intro start run now d k e j
  have hstart (c : Counter) : c.shown start.timers = 0 := by cases c <;> rfl
  have hnow (c : Counter) : c.shown now.timers = lastStored s c run - ticksSince s c run :=
    shown_actAll (hstart c) as
  have hdelay : now.timers.delay.toNat = max 0 (d - k) := by
    have := hnow .delay
    simp only [Counter.shown] at this
    omega
  have hsound : now.timers.sound.toNat = max 0 (e - j) := by
    have := hnow .sound
    simp only [Counter.shown] at this
    omega
  refine ⟨⟨hdelay, hsound⟩, fun later hidles => ?_, ?_, fun ins hresult hform => ?_⟩
  · have hlater (c : Counter) : c.shown (now.actAll s later).timers =
        lastStored s c run - (ticksSince s c run + later.count .tick) :=
      shown_idles (hstart c) nofun hidles
    have hd := hlater .delay
    have he := hlater .sound
    simp only [Counter.shown] at hd he
    omega
  · have hzero : now.timers.sound = 0 ↔ now.timers.sound.toNat = 0 := UInt8.toNat_inj.symm
    rw [sounding, Timers.sounding, bne_iff_ne, ne_eq, hzero]
    omega
  · rw [step_readDelay hresult hform]
    exact hdelay

end Machine

end Chip8
