import Chip8.Input.Window

/-!
# Keys and the events of a window

The events of a window come in by and by, and each poll looks at those that came since
the one before. It makes no difference to the keys where the polls fall: a key is held if
the last event that says anything of it (`WindowEvent.says?`) says that it is. Only the
answers of the polls tell the batches apart, as each asks to quit for its own events.

* `receive_eq`: a poll applies the events of its batch, all of them;
* `held_applyAll`, `quits_applyAll`: what events do to a key, and when they ask to quit;
* `keys_of_events`: the keys and the answers after any batches.
-/

namespace Chip8.Input

/-- What an event says of a key: that it is held or released, if it carries a code that
    stands for the key. Escape going down is never a press. -/
def WindowEvent.says? (keymap : Keymap) (key : Key) : WindowEvent → Option Bool
  | .down code => if code ≠ escapeCode ∧ keymap.key? code = some key then some true else .none
  | .up code => if keymap.key? code = some key then some false else .none
  | .quit | .other => .none

/-- An event asks to quit. -/
def WindowEvent.AsksToQuit (e : WindowEvent) : Prop :=
  e = .quit ∨ e = .down escapeCode
  deriving Decidable

namespace Window

variable {w : Window} {e : WindowEvent} {events : List WindowEvent} {key : Key}

/-- A batch of events comes in, and is looked at. -/
def receive (w : Window) (batch : List WindowEvent) : Window × Bool :=
  (batch.foldl deliver w).poll

/-- Batches of events come in one after the other; what each poll answers. -/
def receiveAll (w : Window) : List (List WindowEvent) → Window × List Bool
  | [] => (w, [])
  | batch :: rest =>
    let (after, quits) := w.receive batch
    let (last, answers) := after.receiveAll rest
    (last, quits :: answers)

/-! ### One event -/

theorem held_setCode (w : Window) (code : Int) (pressed : Bool) (key : Key) :
    (w.setCode code pressed).held[key] =
      if w.keymap.key? code = some key then pressed else w.held[key] := by
  unfold setCode
  cases hcode : w.keymap.key? code with
  | none => rw [if_neg nofun]
  | some other =>
    simp only [getElem_fin, Option.some_inj, Vector.getElem_set, Fin.ext_iff]

theorem held_apply (w : Window) (e : WindowEvent) (key : Key) :
    (w.apply e).1.held[key] = (e.says? w.keymap key).getD w.held[key] := by
  cases e with
  | down code =>
    by_cases hescape : code = escapeCode
    · rw [apply, if_pos hescape, WindowEvent.says?, if_neg fun h => h.1 hescape]
      rfl
    · rw [apply, if_neg hescape, held_setCode, WindowEvent.says?]
      simp only [ne_eq, hescape, not_false_eq_true, true_and]
      split <;> rfl
  | up code =>
    rw [apply, held_setCode, WindowEvent.says?]
    split <;> rfl
  | quit | other => rfl

theorem quits_apply (w : Window) (e : WindowEvent) : (w.apply e).2 = true ↔ e.AsksToQuit := by
  cases e with
  | down code =>
    rw [apply]
    split <;> simp [WindowEvent.AsksToQuit, *]
  | up code | quit | other => simp [apply, WindowEvent.AsksToQuit]

/-- An event changes nothing but the held keys. -/
theorem apply_frame (w : Window) (e : WindowEvent) :
    ∃ held, (w.apply e).1 = { w with held := held } := by
  have hset (code : Int) (pressed : Bool) :
      ∃ held, w.setCode code pressed = { w with held := held } := by
    unfold setCode
    split <;> exact ⟨_, rfl⟩
  cases e with
  | down code =>
    rw [apply]
    split
    · exact ⟨w.held, rfl⟩
    · exact hset code true
  | up code => exact hset code false
  | quit | other => exact ⟨w.held, rfl⟩

/-! ### The events of a batch -/

theorem waiting_applyAll (w : Window) (events : List WindowEvent) :
    (w.applyAll events).1.waiting = w.waiting := by
  induction events generalizing w with
  | nil => rfl
  | cons e events ih =>
    have hwaiting : (w.apply e).1.waiting = w.waiting := by
      obtain ⟨held, happly⟩ := w.apply_frame e
      rw [happly]
    exact (ih (w.apply e).1).trans hwaiting

/-- The last event that says anything of a key decides. -/
theorem held_applyAll (w : Window) (events : List WindowEvent) (key : Key) :
    (w.applyAll events).1.held[key] =
      (events.filterMap (·.says? w.keymap key)).getLast?.getD w.held[key] := by
  induction events generalizing w with
  | nil => rfl
  | cons e events ih =>
    have hkeymap : (w.apply e).1.keymap = w.keymap := by
      obtain ⟨held, happly⟩ := w.apply_frame e
      rw [happly]
    have hrest := ih (w.apply e).1
    rw [hkeymap, held_apply] at hrest
    refine hrest.trans ?_
    rw [List.filterMap_cons]
    cases e.says? w.keymap key with
    | none => rfl
    | some pressed => rw [List.getLast?_cons]; rfl

theorem quits_applyAll (w : Window) (events : List WindowEvent) :
    (w.applyAll events).2 = true ↔ ∃ e ∈ events, e.AsksToQuit := by
  induction events generalizing w with
  | nil => simp [applyAll]
  | cons e events ih =>
    simp only [applyAll, Bool.or_eq_true, quits_apply, ih, List.mem_cons, exists_eq_or_imp]

/-- Events one after the other are those of the batches put together. -/
theorem applyAll_append (w : Window) (first second : List WindowEvent) :
    (w.applyAll (first ++ second)).1 = ((w.applyAll first).1.applyAll second).1 := by
  induction first generalizing w with
  | nil => rfl
  | cons e first ih => exact ih _

/-! ### Batches -/

theorem foldl_deliver (w : Window) (batch : List WindowEvent) :
    batch.foldl deliver w = { w with waiting := w.waiting ++ batch } := by
  induction batch generalizing w with
  | nil => simp
  | cons e batch ih => simp [ih, deliver]

/-- A poll applies the events that came since the one before. -/
theorem receive_eq (h : w.waiting = []) (batch : List WindowEvent) :
    w.receive batch = w.applyAll batch := by
  obtain ⟨keymap, held, waiting⟩ := w
  cases h
  rw [receive, foldl_deliver]
  rfl

theorem receiveAll_eq (h : w.waiting = []) (batches : List (List WindowEvent)) :
    (w.receiveAll batches).1 = (w.applyAll batches.flatten).1 ∧
      (w.receiveAll batches).2 = batches.map fun batch => decide (∃ e ∈ batch, e.AsksToQuit) := by
  induction batches generalizing w with
  | nil => exact ⟨rfl, rfl⟩
  | cons batch batches ih =>
    obtain ⟨hlast, hanswers⟩ := ih ((waiting_applyAll w batch).trans h)
    have hquits : (w.applyAll batch).2 = decide (∃ e ∈ batch, e.AsksToQuit) := by
      rw [Bool.eq_iff_iff, quits_applyAll, decide_eq_true_iff]
    rw [receiveAll, receive_eq h, List.flatten_cons, applyAll_append, List.map_cons, ← hquits,
      ← hanswers]
    exact ⟨hlast, rfl⟩

/-- The keys of a window after any batches of events. A key is held if the last event that
    says anything of it says that it is held, wherever the batches end, so that the keys do
    not depend on the batches. Each poll asks to quit if one of its own events does; those
    after it are applied all the same. -/
theorem keys_of_events (keymap : Keymap) (batches : List (List WindowEvent)) :
    let now := (Window.start keymap).receiveAll batches
    (∀ key, now.1.held[key] = true ↔
        (batches.flatten.filterMap (·.says? keymap key)).getLast? = some true) ∧
      (∀ others : List (List WindowEvent), others.flatten = batches.flatten →
        ((Window.start keymap).receiveAll others).1.held = now.1.held) ∧
      now.2 = batches.map fun batch => decide (∃ e ∈ batch, e.AsksToQuit) := by
  intro now
  obtain ⟨hlast, hanswers⟩ := receiveAll_eq (w := Window.start keymap) rfl batches
  refine ⟨fun key => ?_, fun others hothers => ?_, hanswers⟩
  · have hreleased : (Window.start keymap).held[key] = false := by simp [Window.start]
    rw [show now.1 = _ from hlast, held_applyAll, hreleased]
    change (batches.flatten.filterMap (·.says? keymap key)).getLast?.getD false = true ↔ _
    cases (batches.flatten.filterMap (·.says? keymap key)).getLast? <;> simp
  · rw [(receiveAll_eq (w := Window.start keymap) rfl others).1, hothers, ← hlast]

end Window

end Chip8.Input
