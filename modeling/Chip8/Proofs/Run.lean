import Chip8.Machine.Step

/-!
# Runs of a machine

What a host does with a machine, one call after the other. While a program runs
it makes steps, ticks the timers and holds or releases keys (`Action`); in
between it may load a program or reset the machine (`Operation`). A call that is
refused, of a key that is not on the keypad or with a program that does not fit,
leaves the machine as it is.

* `actAll`, `performAll`: the machine after a sequence of calls;
* `actAll_induction`, `performAll_induction`: what every call preserves holds
  after every sequence;
* `moments`: the actions of a run, each with the machine that it finds.
-/

namespace Chip8

/-- A call that a host makes while a program runs. -/
inductive Action
  | step
  | tick
  | setKey (key : Int) (pressed : Bool)
  deriving DecidableEq, Repr

/-- A call that a host makes. -/
inductive Operation
  | load (image : Image)
  | reset
  | act (a : Action)

namespace Machine

variable {s : Setup} {m : Machine} {P : Machine → Prop}

/-- The machine after an action. -/
def act (s : Setup) (m : Machine) : Action → Machine
  | .step => (m.step s).machine
  | .tick => m.tick
  | .setKey k pressed =>
    match m.setKey k pressed with
    | .ok m' => m'
    | .error _ => m

/-- The machine after a sequence of actions. -/
def actAll (s : Setup) (m : Machine) (as : List Action) : Machine :=
  as.foldl (act s) m

/-- The machine after an operation. -/
def perform (s : Setup) (m : Machine) : Operation → Machine
  | .load image =>
    match m.load s.config image with
    | .ok m' => m'
    | .error _ => m
  | .reset => m.reset s.config
  | .act a => m.act s a

/-- The machine after a sequence of operations. -/
def performAll (s : Setup) (m : Machine) (ops : List Operation) : Machine :=
  ops.foldl (perform s) m

/-- Holding or releasing a key only changes the keypad. -/
theorem act_setKey (k : Int) (pressed : Bool) :
    m.act s (.setKey k pressed) =
      { m with keypad := (Keypad.key? k).elim m.keypad (m.keypad.set · pressed) } := by
  simp only [act, setKey, Keypad.setKey]
  cases Keypad.key? k <;> rfl

/-- An accepted program is stored and the machine reset. -/
theorem load_eq_ok_iff {c : Config} {image : Image} {m' : Machine} :
    m.load c image = .ok m' ↔
      ∃ program, Program.check image c.loadOffset = .ok program ∧
        m' = { m with program := program }.reset c := by
  unfold load
  cases Program.check image c.loadOffset <;> simp [bind, Except.bind, pure, Except.pure, eq_comm]

theorem actAll_induction (as : List Action) (h : P m)
    (hact : ∀ m a, P m → P (m.act s a)) : P (m.actAll s as) := by
  induction as generalizing m with
  | nil => exact h
  | cons a as ih => exact ih (hact m a h)

theorem performAll_induction (ops : List Operation) (h : P m)
    (hperform : ∀ m op, P m → P (m.perform s op)) : P (m.performAll s ops) := by
  induction ops generalizing m with
  | nil => exact h
  | cons op ops ih => exact ih (hperform m op h)

/-! ### The actions of a run -/

/-- The actions of a run, each with the machine that it finds. -/
def moments (s : Setup) (m : Machine) : List Action → List (Machine × Action)
  | [] => []
  | a :: as => (m, a) :: (m.act s a).moments s as

theorem moments_append (as bs : List Action) :
    m.moments s (as ++ bs) = m.moments s as ++ (m.actAll s as).moments s bs := by
  induction as generalizing m with
  | nil => rfl
  | cons a as ih => exact congrArg ((m, a) :: ·) ih

/-- The actions of a run, and the machines that they find. -/
theorem mem_moments {as : List Action} {moment : Machine × Action}
    (h : moment ∈ m.moments s as) :
    ∃ before after, as = before ++ moment.2 :: after ∧ moment.1 = m.actAll s before := by
  induction as generalizing m with
  | nil => cases h
  | cons a as ih =>
    rcases List.mem_cons.1 h with rfl | h
    · exact ⟨[], as, rfl, rfl⟩
    · obtain ⟨before, after, rfl, hfound⟩ := ih h
      exact ⟨a :: before, after, rfl, hfound⟩

end Machine

end Chip8
