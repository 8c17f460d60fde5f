import Chip8.Proofs.Session.Exits

/-!
# Runs refine the plain machine

A run interleaves its instructions with polls, ticks and pictures as the clock
has it. Whatever the clock is, it does nothing to the machine but what the plain
machine does by the deeds of its cycles (`run_refines`).

* `held_after_takeover`: keys that are taken over are held as the input has it;
* `Balanced`: a cycle shows a picture for every poll that does not ask to quit;
* `Refines`: what a run comes to.
-/

namespace Chip8

/-! ### The keys -/

/-- Keys that are taken over are held if the input says so, and others stay as
    they are. -/
theorem held_after_map (setup : Setup) (m : Machine) (held : Key → Bool) (keys : List Key)
    (key : Key) :
    (m.after setup (keys.map fun k => .setKey k (held k))).keypad.held[key] =
      if key ∈ keys then held key else m.keypad.held[key] := by
  induction keys generalizing m with
  | nil => rfl
  | cons k keys ih =>
    rw [List.map_cons, Machine.after, List.foldl_cons, ← Machine.after, ih, Machine.deed_setKey]
    by_cases hmem : key ∈ keys
    · simp [hmem]
    · by_cases hk : key = k
      · subst hk
        simp [hmem, Keypad.set]
      · have hval : k.val ≠ key.val := fun h => hk (Fin.ext h.symm)
        simp [hmem, hk, Keypad.set, Vector.getElem_set_ne, hval]

/-- After a poll all keys are held as the input has it. -/
theorem held_after_takeover (setup : Setup) (m : Machine) (held : Key → Bool) (key : Key) :
    (m.after setup (Deed.takeover held)).keypad.held[key] = held key := by
  rw [Deed.takeover, held_after_map, if_pos (List.mem_finRange key)]

/-! ### The pictures -/

/-- There is a picture for every poll that does not ask to quit. -/
def Balanced (ds : List Deed) : Prop :=
  ds.count .refresh = ds.count (.poll false)

theorem Balanced.append {ds ds' : List Deed} (h : Balanced ds) (h' : Balanced ds') :
    Balanced (ds ++ ds') := by
  rw [Balanced, List.count_append, List.count_append, h, h']

theorem balanced_of_not_mem {ds : List Deed} (h : .refresh ∉ ds) (h' : .poll false ∉ ds) :
    Balanced ds := by
  rw [Balanced, List.count_eq_zero.2 h, List.count_eq_zero.2 h']

theorem balanced_takeover (held : Key → Bool) (count : Nat) :
    Balanced ((Deed.takeover held).take count) := by
  refine balanced_of_not_mem (fun h => ?_) (fun h => ?_) <;>
    simpa [Deed.takeover] using List.mem_of_mem_take h

theorem balanced_switches (on : Option Bool) : Balanced (Deed.switches on) := by
  cases on <;> rfl

namespace Session

theorem Lead.balanced (l : Lead) : Balanced l.deeds := by
  refine Balanced.append ?_ (balanced_of_not_mem (by simp) (by simp))
  cases l.poll with
  | none => rfl
  | some held =>
    have h := balanced_takeover held 16
    rw [take_takeover_all, Balanced] at h
    simp [Lead.shown, Balanced, h]

theorem balanced_step (result : Except Fault Instruction) : Balanced [.step result] := rfl

theorem Cycle.balanced (b : Cycle) : Balanced b.deeds :=
  b.toLead.balanced.append ((balanced_step _).append (balanced_switches b.switch))

theorem balanced_cycles (cycles : List Cycle) : Balanced (cycles.flatMap Cycle.deeds) := by
  induction cycles with
  | nil => rfl
  | cons b cycles ih => exact b.balanced.append ih

/-- Only the poll that an interrupt cuts off goes without a picture. -/
theorem Unfinished.balanced {timed : Bool} {exit : Exit} {last : List Deed}
    (h : Unfinished timed exit last) :
    Balanced last ∨ timed = true ∧ exit = .interrupted ∧
      last.count (.poll false) = last.count .refresh + 1 := by
  cases h with
  | finished | quit | interrupted => exact .inl rfl
  | fault l f => exact .inl (l.balanced.append (balanced_step _))
  | asking held count clocked few =>
    have h := balanced_takeover held count
    rw [Balanced] at h
    exact .inr ⟨clocked, rfl, by simp [h]⟩

/-! ### The count -/

theorem Lead.countP (l : Lead) : l.deeds.countP Deed.returns = 0 := by
  obtain ⟨poll, ticks⟩ := l
  cases poll <;>
    simp [Lead.deeds, Lead.shown, Deed.takeover, List.countP_replicate, Deed.returns]

theorem countP_cycles (cycles : List Cycle) :
    (cycles.flatMap Cycle.deeds).countP Deed.returns = cycles.length := by
  induction cycles with
  | nil => rfl
  | cons b cycles ih =>
    rw [List.flatMap_cons, List.countP_append, ih, Cycle.deeds, List.countP_append, Lead.countP,
      List.countP_cons_of_pos rfl, countP_switches, List.length_cons]
    omega

theorem Unfinished.countP {timed : Bool} {exit : Exit} {last : List Deed}
    (h : Unfinished timed exit last) : last.countP Deed.returns = 0 := by
  cases h with
  | finished | quit | interrupted => rfl
  | fault l f => rw [List.countP_append, l.countP]; rfl
  | asking held count clocked few =>
    refine List.countP_eq_zero.2 fun d hd => ?_
    rcases List.mem_cons.1 hd with rfl | hd
    · exact nofun
    · obtain ⟨key, -, rfl⟩ := List.mem_map.1 (List.mem_of_mem_take hd)
      exact nofun

/-! ### Runs -/

/-- What a run comes to: cycles, the last of which may stay unfinished, then the
    picture once more, and the buzzer off. -/
structure Refines (c : Course) (s : Session) (exit : Exit) (cycles : List Cycle)
    (last : List Deed) (on : Bool) (after : Session) : Prop where
  deeds : after.deeds = cycles.flatMap Cycle.deeds ++ last ++ .refresh :: Deed.silence on
  unfinished : Unfinished s.input.timed exit last
  /-- The plain machine comes to the same by these deeds. -/
  machine : s.machine.Does c.setup after.deeds after.machine
  /-- The polls and the keys are those of the input. -/
  answers : s.input.Gives after.deeds after.input
  count : after.cycles = cycles.length
  limit : ∀ limit, c.limit = some limit → (after.cycles : Int) ≤ max limit 0
  reached : exit = .finished → ∃ limit, c.limit = some limit ∧ limit ≤ after.cycles
  /-- The picture is shown at every poll, and at the end. -/
  pictures : after.deeds.count .refresh = after.deeds.count (.poll false) + 1 ∨
    s.input.timed = true ∧ exit = .interrupted ∧
      after.deeds.count .refresh = after.deeds.count (.poll false)

variable {c : Course} {first : Reading} {rest : Clock} {s : Session} {exit : Exit}
  {cycles : List Cycle} {last : List Deed} {on : Bool}

theorem refines_of_accounts {after : Session} (limited : Limited c (.ended exit) after)
    (account : Accounts c (s.begin.opened first) cycles
      (last ++ .refresh :: Deed.silence on) after)
    (unfinished : Unfinished s.input.timed exit last) :
    Refines c s exit cycles last on after := by
  have hdeeds :
      after.deeds = cycles.flatMap Cycle.deeds ++ last ++ .refresh :: Deed.silence on := by
    rw [List.append_assoc]
    exact account.does.deeds
  have hend : (Deed.refresh :: Deed.silence on).count .refresh =
      (Deed.refresh :: Deed.silence on).count (.poll false) + 1 := by
    cases on <;> rfl
  have hcycles := balanced_cycles cycles
  rw [Balanced] at hcycles
  refine ⟨hdeeds, unfinished, ?_, ?_, ?_, limited.within, fun hexit => ?_, ?_⟩
  · rw [hdeeds, List.append_assoc]
    exact account.does.machine
  · rw [hdeeds, List.append_assoc]
    exact account.does.input
  · have hcount := account.does.cycles
    rw [List.countP_append, List.countP_append, countP_cycles, unfinished.countP,
      countP_close] at hcount
    exact hcount.trans (Nat.zero_add _)
  · exact exists_of_atLimit (limited.reached (congrArg Stage.ended hexit))
  · rw [hdeeds, List.count_append, List.count_append, List.count_append, List.count_append]
    rcases unfinished.balanced with h | ⟨clocked, hexit, h⟩
    · rw [Balanced] at h
      omega
    · exact .inr ⟨clocked, hexit, by omega⟩

/-- What a run that looks at the clock comes to, by its exit. -/
theorem refines_of_run {first : Reading} {rest : Clock}
    (hexit : (s.run c (first :: rest)).1.phase = .ended exit) :
    (∃ e, exit = .undrawn e ∧ s.renderer.kind = .window) ∨
      exit = .stalled ∧ Overruns first rest ∨
      ∃ cycles last on, Refines c s exit cycles last on (s.run c (first :: rest)).1 := by
  cases run_accounted hexit with
  | undrawn window follows records => exact .inl ⟨_, rfl, window⟩
  | «at» account begun =>
    cases begun with
    | stalled l => exact .inr (.inl ⟨rfl, overruns_of_stalled hexit⟩)
    | ended last on =>
      exact .inr (.inr ⟨_, _, on, refines_of_accounts (run_limited hexit) account last⟩)

/-- A run that looks at the clock acts on the machine as the plain machine does
    by the deeds of its cycles, unless pixels cannot be written to a window, or
    the clock overruns the timers. -/
theorem run_refines (c : Course) (s : Session) (first : Reading) (rest : Clock) :
    (∀ (m : Machine) (held : Key → Bool) (key : Key),
        (m.after c.setup (Deed.takeover held)).keypad.held[key] = held key) ∧
      ∃ exit, (s.run c (first :: rest)).1.phase = .ended exit ∧
        ((∃ e, exit = .undrawn e ∧ s.renderer.kind = .window) ∨
          exit = .stalled ∧ Overruns first rest ∨
          ∃ cycles last on, Refines c s exit cycles last on (s.run c (first :: rest)).1) := by
  obtain ⟨exit, hexit, -⟩ := run_moves c s (first :: rest)
  exact ⟨held_after_takeover c.setup, exit, hexit, refines_of_run hexit⟩

end Session

end Chip8
