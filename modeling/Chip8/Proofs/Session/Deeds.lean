import Chip8.Proofs.Run
import Chip8.Session
import Mathlib.Data.List.Basic

/-!
# Deeds of a session

Of the events that a session records, these matter to its machine, its input and
its buzzer: polls, keys taken over, pictures shown, ticks, instructions, and the
buzzer being switched. They are the session's *deeds* (`Session.deeds`), and each
of them can be done, or checked, without a session:

* `Machine.after`: the machine after deeds, by the calls that a host makes and
  nothing else, and `Machine.Does`, which also tells the results of its steps;
* `Input.Gives`: the answers that an input gives when it is polled and asked for
  keys;
* `Deed.level`: whether the buzzer is on, and `Deed.Flips`, by which every
  switch changes that.
-/

namespace Chip8

/-- What a session does to its machine and its buzzer, with the answers of its
    input and the results of its instructions. -/
inductive Deed
  /-- The input is polled, and asks to quit or does not. -/
  | poll (quits : Bool)
  | setKey (key : Key) (pressed : Bool)
  | refresh
  | tick
  | step (result : Except Fault Instruction)
  | switch (on : Bool)
  deriving DecidableEq

namespace Deed

/-- The result of a step. -/
def result? : Deed → Option (Except Fault Instruction)
  | step result => some result
  | _ => none

/-- How the buzzer is switched. -/
def switch? : Deed → Option Bool
  | switch on => some on
  | _ => none

end Deed

/-- The deed that an event records, if it records one. -/
def SessionEvent.deed? : SessionEvent → Option Deed
  | told (.refresh _) => some .refresh
  | switched on => some (.switch on)
  | polled quits => some (.poll quits)
  | keySet key pressed => some (.setKey key pressed)
  | ticked => some .tick
  | stepped i => some (.step (.ok i))
  | halted f => some (.step (.error f))
  | _ => none

/-- The deeds of a session, in the order in which it did them. -/
def Session.deeds (s : Session) : List Deed :=
  s.events.reverse.filterMap SessionEvent.deed?

/-- What a view of the events tells is told in order, also of those recorded last. -/
theorem Session.filterMap_recordAll {α : Type} (view : SessionEvent → Option α) (s : Session)
    (es : List SessionEvent) :
    (s.recordAll es).events.reverse.filterMap view =
      s.events.reverse.filterMap view ++ es.filterMap view := by
  simp only [recordAll, List.reverse_append, List.reverse_reverse, List.filterMap_append]

theorem Session.deeds_recordAll (s : Session) (es : List SessionEvent) :
    (s.recordAll es).deeds = s.deeds ++ es.filterMap SessionEvent.deed? :=
  s.filterMap_recordAll SessionEvent.deed? es

/-- A view tells nothing of events, such as calls and lines of the log, that it leaves out. -/
theorem filterMap_unseen {α β : Type} {view : SessionEvent → Option α} {event : β → SessionEvent}
    (h : ∀ x, view (event x) = none) (xs : List β) : (xs.map event).filterMap view = [] := by
  rw [List.filterMap_eq_nil_iff, List.forall_mem_map]
  exact fun x _ => h x

theorem Session.deeds_record (s : Session) (e : SessionEvent) :
    (s.record e).deeds = s.deeds ++ e.deed?.toList := by
  rw [show s.record e = s.recordAll [e] from rfl, deeds_recordAll, List.filterMap_cons]
  cases e.deed? <;> rfl

/-- An event and the calls that come with it. -/
theorem Session.deeds_recordCalls (s : Session) (e : SessionEvent) (calls : List HostCall) :
    (s.recordAll (e :: calls.map .called)).deeds = s.deeds ++ e.deed?.toList := by
  rw [deeds_recordAll, List.filterMap_cons, filterMap_unseen fun _ => rfl]
  cases e.deed? <;> rfl

/-! ### The machine -/

namespace Machine

variable {s : Setup} {m m' m'' : Machine} {ds ds' : List Deed}

/-- The machine after a deed. -/
def deed (s : Setup) (m : Machine) : Deed → Machine
  | .setKey key pressed => m.act s (.setKey key.val pressed)
  | .refresh => { m with display := m.display.refresh.display }
  | .tick => m.act s .tick
  | .step _ => m.act s .step
  | .poll _ | .switch _ => m

/-- The machine after deeds. -/
def after (s : Setup) (m : Machine) (ds : List Deed) : Machine :=
  ds.foldl (deed s) m

theorem after_append (s : Setup) (m : Machine) (ds ds' : List Deed) :
    m.after s (ds ++ ds') = (m.after s ds).after s ds' :=
  List.foldl_append

/-- Deeds lead from a machine to another one, every step with the result that is
    told of it. -/
def Does (s : Setup) : Machine → List Deed → Machine → Prop
  | m, [], m' => m' = m
  | m, d :: ds, m' =>
    (∀ result, d.result? = some result → (m.step s).result = result) ∧ (m.deed s d).Does s ds m'

/-- A deed that is not a step. -/
theorem does_singleton {d : Deed} (s : Setup) (m : Machine) (hd : d.result? = none) :
    m.Does s [d] (m.deed s d) :=
  ⟨fun _ h => (nomatch hd.symm.trans h), rfl⟩

theorem Does.append (h : m.Does s ds m') (h' : m'.Does s ds' m'') : m.Does s (ds ++ ds') m'' := by
  induction ds generalizing m with
  | nil =>
    obtain rfl : m' = m := h
    exact h'
  | cons d ds ih => exact ⟨h.1, ih h.2⟩

theorem Does.eq_after (h : m.Does s ds m') : m' = m.after s ds := by
  induction ds generalizing m with
  | nil => exact h
  | cons d ds ih => exact ih h.2

end Machine

/-! ### The input -/

namespace Input

variable {i j k : Input} {ds ds' : List Deed}

/-- What comes in waits for the next poll. -/
theorem isHeld_deliver (i : Input) (a : Arrival) (now : Float) (key : Key) :
    (i.deliver a).isHeld now key = i.isHeld now key := by
  cases i <;> cases a <;> rfl

theorem isHeld_foldl_deliver (arrivals : List Arrival) (now : Float) (key : Key) :
    (arrivals.foldl deliver i).isHeld now key = i.isHeld now key := by
  induction arrivals generalizing i with
  | nil => rfl
  | cons a arrivals ih => rw [List.foldl_cons, ih, isHeld_deliver]

/-- An input gives the answers among deeds: it is polled after something may
    have come in, and is asked for each key as the last poll left it. -/
def Gives : Input → List Deed → Input → Prop
  | i, [], j => ∃ arrivals : List Arrival, j = arrivals.foldl deliver i
  | i, .poll quits :: ds, j =>
    ∃ (arrivals : List Arrival) (time : Float) (left : Input),
      (arrivals.foldl deliver i).poll time = (left, quits) ∧ left.Gives ds j
  | i, .setKey key pressed :: ds, j => (∃ time, pressed = i.isHeld time key) ∧ i.Gives ds j
  | i, _ :: ds, j => i.Gives ds j

theorem gives_nil (i : Input) : i.Gives [] i := ⟨[], rfl⟩

/-- What comes in before deeds might as well come in during them. -/
theorem Gives.of_deliver {arrivals : List Arrival} (h : (arrivals.foldl deliver i).Gives ds j) :
    i.Gives ds j := by
  induction ds with
  | nil =>
    obtain ⟨more, rfl⟩ := h
    exact ⟨arrivals ++ more, List.foldl_append.symm⟩
  | cons d ds ih =>
    cases d with
    | poll quits =>
      obtain ⟨more, time, left, hpoll, hds⟩ := h
      exact ⟨arrivals ++ more, time, left, by rwa [List.foldl_append], hds⟩
    | setKey key pressed =>
      obtain ⟨⟨time, hkey⟩, hds⟩ := h
      exact ⟨⟨time, by rwa [isHeld_foldl_deliver] at hkey⟩, ih hds⟩
    | refresh | tick | step | switch => exact ih h

theorem Gives.append (h : i.Gives ds j) (h' : j.Gives ds' k) : i.Gives (ds ++ ds') k := by
  induction ds generalizing i with
  | nil =>
    obtain ⟨arrivals, rfl⟩ := h
    exact h'.of_deliver
  | cons d ds ih =>
    cases d with
    | poll quits =>
      obtain ⟨arrivals, time, left, hpoll, hds⟩ := h
      exact ⟨arrivals, time, left, hpoll, ih hds⟩
    | setKey key pressed => exact ⟨h.1, ih h.2⟩
    | refresh | tick | step | switch => exact ih h

end Input

/-! ### The buzzer and the count -/

namespace Deed

variable {on : Bool} {ds ds' : List Deed}

/-- Whether the buzzer is on after a deed. -/
def sounds (on : Bool) : Deed → Bool
  | switch now => now
  | _ => on

/-- Whether the buzzer is on after deeds. -/
def level (on : Bool) (ds : List Deed) : Bool := ds.foldl sounds on

theorem level_append (on : Bool) (ds ds' : List Deed) :
    level on (ds ++ ds') = level (level on ds) ds' :=
  List.foldl_append

/-- The buzzer is switched on only when it is off, and off only when it is on. -/
def Flips : Bool → List Deed → Prop
  | _, [] => True
  | on, d :: ds => (∀ now, d.switch? = some now → now = !on) ∧ Flips (sounds on d) ds

/-- A deed that is not a switch. -/
theorem flips_singleton {d : Deed} (on : Bool) (hd : d.switch? = none) : Flips on [d] :=
  ⟨fun _ h => (nomatch hd.symm.trans h), trivial⟩

theorem flips_append (on : Bool) (ds ds' : List Deed) :
    Flips on (ds ++ ds') ↔ Flips on ds ∧ Flips (level on ds) ds' := by
  induction ds generalizing on with
  | nil => exact ⟨fun h => ⟨trivial, h⟩, fun h => h.2⟩
  | cons d ds ih =>
    simp only [List.cons_append, Flips, ih, and_assoc]
    rfl

/-- The deeds of switching the buzzer, if it is switched. -/
def switches : Option Bool → List Deed
  | none => []
  | some on => [switch on]

/-- An instruction that was executed. -/
def returns : Deed → Bool
  | step (.ok _) => true
  | _ => false

end Deed

/-- The buzzer after deeds. -/
def Buzzer.after (b : Buzzer) (ds : List Deed) : Buzzer :=
  ds.foldl (fun b d => match d with
    | .switch on => (b.switch on).1
    | _ => b) b

theorem Buzzer.after_append (b : Buzzer) (ds ds' : List Deed) :
    b.after (ds ++ ds') = (b.after ds).after ds' :=
  List.foldl_append

theorem Buzzer.on_after (b : Buzzer) (ds : List Deed) : (b.after ds).on = Deed.level b.on ds := by
  induction ds generalizing b with
  | nil => rfl
  | cons d ds ih => cases d <;> exact ih _

end Chip8
