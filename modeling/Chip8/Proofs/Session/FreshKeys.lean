import Chip8.Proofs.Footprint
import Chip8.Proofs.Session.Refinement
import Mathlib.Order.Bounds.Basic

/-!
# Keys pressed at a poll

A program that waits for a key is told of the keys when the input is polled. All
sixteen keys are taken over in ascending order, and each that goes from released
to pressed (`Keypad.fresh`) is latched, over the one before. So the greatest of
them ends the wait (`polled_key_wait`), and a key that has been held since before
the wait began does not.

* `WaitsAt.cycle`: what a poll, and the step after it, do to a machine that
  waits;
* `not_latched_after`: a held key is not latched unless it is released before;
* `run_ending`: the complete cycles of a run, and what it does after them, whatever
  its exit is;
* `polled_of_run`: what follows a poll of a run.
-/

namespace Chip8

/-- The keys that are reported held while the keypad does not hold them. -/
def Keypad.fresh (p : Keypad) (held : Key → Bool) : Set Key :=
  {key | held key = true ∧ p.held[key] = false}

/-! ### Deeds in order -/

namespace Session

variable {l : Lead} {before later ds : List Deed}

theorem Lead.deeds_some (held : Key → Bool) (ticks : Nat) :
    (Lead.mk (some held) ticks).deeds =
      .poll false :: (Deed.takeover held ++ .refresh :: List.replicate ticks .tick) :=
  List.append_assoc ..

theorem Lead.result?_deeds (l : Lead) : ∀ d ∈ l.deeds, d.result? = none := by
  obtain ⟨poll, ticks⟩ := l
  cases poll <;> simp [deeds, shown, Deed.takeover, Deed.result?, or_imp, forall_and]

theorem result?_close (on : Bool) : ∀ d ∈ Deed.refresh :: Deed.silence on, d.result? = none := by
  cases on <;> simp [Deed.silence, Deed.switches, Deed.result?]

theorem eq_nil_of_notMem_tail {xs : List Deed} {d : Deed} (h : xs = before ++ d :: later)
    (hd : d ∉ xs.tail) : before = [] := by
  subst h
  cases before with
  | nil => rfl
  | cons first before => exact absurd (List.mem_append_right _ List.mem_cons_self) hd

/-- A poll comes first in a cycle. -/
theorem Lead.eq_nil_of_poll (h : l.deeds ++ ds = before ++ .poll false :: later)
    (hds : .poll false ∉ ds) : before = [] := by
  refine eq_nil_of_notMem_tail h fun hmem => ?_
  obtain ⟨poll, ticks⟩ := l
  cases poll with
  | none =>
    have := List.mem_of_mem_tail hmem
    simp [deeds, shown, hds] at this
  | some held => simp [deeds, shown, Deed.takeover, hds] at hmem

end Session

namespace Machine.Does

variable {s : Setup} {m m' : Machine} {ds ds' : List Deed}

theorem split (h : m.Does s (ds ++ ds') m') : ∃ m'', m.Does s ds m'' ∧ m''.Does s ds' m' := by
  induction ds generalizing m with
  | nil => exact ⟨m, rfl, h⟩
  | cons d ds ih =>
    obtain ⟨m'', hds, hrest⟩ := ih h.2
    exact ⟨m'', ⟨h.1, hds⟩, hrest⟩

theorem result {result : Except Fault Instruction}
    (h : m.Does s (ds ++ .step result :: ds') m') : ((m.after s ds).step s).result = result := by
  induction ds generalizing m with
  | nil => exact h.1 result rfl
  | cons d ds ih => exact ih h.2

end Machine.Does

namespace Input.Gives

variable {i k : Input} {before later ds ds' : List Deed} {held : Key → Bool}

theorem split (h : i.Gives (ds ++ ds') k) : ∃ j, i.Gives ds j ∧ j.Gives ds' k := by
  induction ds generalizing i with
  | nil => exact ⟨i, gives_nil i, h⟩
  | cons d ds ih =>
    cases d with
    | poll quits =>
      obtain ⟨arrivals, time, left, hpoll, hds⟩ := h
      obtain ⟨j, hj, hrest⟩ := ih hds
      exact ⟨j, ⟨arrivals, time, left, hpoll, hj⟩, hrest⟩
    | setKey key pressed =>
      obtain ⟨j, hj, hrest⟩ := ih h.2
      exact ⟨j, ⟨h.1, hj⟩, hrest⟩
    | refresh | tick | step | switch =>
      obtain ⟨j, hj, hrest⟩ := ih (i := i) h
      exact ⟨j, hj, hrest⟩

theorem held_of_mem (keys : List Key)
    (h : i.Gives ((keys.map fun key => Deed.setKey key (held key)) ++ ds) k) {key : Key}
    (hkey : key ∈ keys) : ∃ time, held key = i.isHeld time key := by
  induction keys with
  | nil => exact absurd hkey List.not_mem_nil
  | cons first keys ih =>
    rcases List.mem_cons.1 hkey with rfl | hkey
    · exact h.1
    · exact ih h.2 hkey

/-- The answers for the keys are those of the input that is polled. -/
theorem polled {ticks : Nat} (h : i.Gives (before ++ .poll false :: later) k)
    (hlater : .poll false :: later = (Session.Lead.mk (some held) ticks).deeds ++ ds) :
    ∃ input, i.Gives (before ++ [.poll false]) input ∧
      ∀ key, ∃ time, held key = input.isHeld time key := by
  rw [hlater, Session.Lead.deeds_some, List.cons_append, List.append_assoc, List.append_cons] at h
  obtain ⟨input, hinput, hkeys⟩ := h.split
  exact ⟨input, hinput, fun key => hkeys.held_of_mem _ (List.mem_finRange key)⟩

end Input.Gives

namespace Machine

variable {s : Setup} {m m' : Machine} {p : Int} {w : Word} {key : Key} {held : Key → Bool}
  {d : Deed} {ds ds' : List Deed}

/-! ### Machines that a host may have -/

/-- A machine that a host has brought about, by its calls and by showing
    pictures. -/
inductive Reached (s : Setup) : Machine → Prop
  | powerOn : Reached s (powerOn s.config)
  | perform {m : Machine} (reached : Reached s m) (op : Operation) : Reached s (m.perform s op)
  | refresh {m : Machine} (reached : Reached s m) :
      Reached s { m with display := m.display.refresh.display }

theorem WaitsAt.refresh (h : m.WaitsAt p w) :
    { m with display := m.display.refresh.display : Machine }.WaitsAt p w :=
  ⟨h.running, h.awaiting, h.pc, h.range, h.word, h.digits⟩

theorem Reached.waitsInPlace (h : m.Reached s) : m.WaitsInPlace := by
  induction h with
  | powerOn => exact nofun
  | perform reached op ih => exact ih.perform s op
  | refresh reached ih => exact fun hnow => (ih hnow).refresh

theorem WaitsInPlace.after (h : m.WaitsInPlace) (s : Setup) (ds : List Deed) :
    (m.after s ds).WaitsInPlace := by
  induction ds generalizing m with
  | nil => exact h
  | cons d ds ih =>
    refine ih (m := m.deed s d) ?_
    cases d with
    | setKey key pressed => exact h.perform s (.act (.setKey key.val pressed))
    | refresh => exact fun hnow => (h hnow).refresh
    | tick => exact h.perform s (.act .tick)
    | step result => exact h.perform s (.act .step)
    | poll quits | switch on => exact h

/-! ### Deeds between steps -/

/-- A wait goes on until the next step. -/
theorem WaitsAt.after (h : m.WaitsAt p w) (s : Setup) (hds : ∀ d ∈ ds, d.result? = none) :
    (m.after s ds).WaitsAt p w ∧ (m.after s ds).registers = m.registers := by
  induction ds generalizing m with
  | nil => exact ⟨h, rfl⟩
  | cons d ds ih =>
    have hstill : (m.deed s d).WaitsAt p w ∧ (m.deed s d).registers = m.registers := by
      cases d with
      | setKey key pressed => exact ⟨h.setKey s key.val pressed, by rw [deed_setKey]⟩
      | refresh => exact ⟨h.refresh, rfl⟩
      | tick => exact ⟨h.tick, rfl⟩
      | step result => exact nomatch hds _ List.mem_cons_self
      | poll quits | switch on => exact ⟨h, rfl⟩
    have hrest := ih hstill.1 fun d hd => hds d (List.mem_cons_of_mem _ hd)
    exact ⟨hrest.1, hrest.2.trans hstill.2⟩

theorem keypad_after_ticks (s : Setup) (m : Machine) (n : Nat) :
    (m.after s (.refresh :: List.replicate n .tick)).keypad = m.keypad := by
  suffices h : ∀ m : Machine, (m.after s (List.replicate n .tick)).keypad = m.keypad from h _
  induction n with
  | zero => exact fun _ => rfl
  | succ n ih => exact fun m => ih m.tick

/-! ### The keys of a poll -/

/-- Of keys that are taken over, each at most once, those are pressed that are
    fresh. -/
theorem presses_map (keys : List Key) (hkeys : keys.Nodup) (now : Vector Bool 16) :
    presses now (keys.map fun k => .setKey k.val (held k)) =
      keys.filter fun k => held k && !now[k] := by
  induction keys generalizing now with
  | nil => rfl
  | cons k keys ih =>
    obtain ⟨hk, hkeys⟩ := List.nodup_cons.1 hkeys
    have hsame : keys.filter (fun k' => held k' && !(now.set k (held k))[k']) =
        keys.filter fun k' => held k' && !now[k'] := by
      refine List.filter_congr fun k' hk' => ?_
      have hne : k.val ≠ k'.val := fun h => hk (Fin.ext h ▸ hk')
      rw [getElem_fin, getElem_fin, Vector.getElem_set_ne _ _ hne]
    rw [List.map_cons, presses, heldAfter, pressed, Keypad.key?_eq_some_iff.2 rfl, ih hkeys, hsame,
      List.filter_cons]
    simp only
    split <;> rfl

theorem after_takeover (s : Setup) (m : Machine) (held : Key → Bool) :
    m.after s (Deed.takeover held) =
      m.actAll s ((List.finRange 16).map fun key => .setKey key.val (held key)) := by
  simp only [after, actAll, Deed.takeover, List.foldl_map]
  rfl

theorem after_poll (s : Setup) (m : Machine) (quits : Bool) (ds : List Deed) :
    m.after s (.poll quits :: ds) = m.after s ds := rfl

/-- The picture and the ticks after a poll leave the keypad alone. -/
theorem keypad_after_lead (s : Setup) (m : Machine) (held : Key → Bool) (ticks : Nat) :
    (m.after s (Session.Lead.mk (some held) ticks).deeds).keypad =
      (m.after s (Deed.takeover held)).keypad := by
  rw [Session.Lead.deeds_some, after_poll, after_append, keypad_after_ticks]

/-- The fresh keys in ascending order, as they are latched one over the other. -/
def freshKeys (m : Machine) (held : Key → Bool) : List Key :=
  (List.finRange 16).filter fun key => held key && !m.keypad.held[key]

theorem mem_freshKeys_iff : key ∈ m.freshKeys held ↔ key ∈ m.keypad.fresh held := by
  simp [freshKeys, Keypad.fresh]

theorem isGreatest_getLast_freshKeys (h : m.freshKeys held ≠ []) :
    IsGreatest (m.keypad.fresh held) ((m.freshKeys held).getLast h) := by
  refine ⟨mem_freshKeys_iff.1 (List.getLast_mem h), fun key hkey => ?_⟩
  have hascending : (m.freshKeys held).Pairwise (· < ·) :=
    (List.pairwise_lt_finRange 16).filter _
  rw [← List.dropLast_append_getLast h] at hascending
  have hmem := mem_freshKeys_iff.2 hkey
  rw [← List.dropLast_append_getLast h] at hmem
  rcases List.mem_append.1 hmem with hmem | hmem
  · have := (List.pairwise_append.1 hascending).2.2 key hmem _ (List.mem_singleton_self _)
    exact le_of_lt this
  · exact le_of_eq (List.mem_singleton.1 hmem)

/-- A machine that waits with nothing latched finds the last of the fresh keys
    latched after a poll. -/
theorem WaitsAt.latch_lead (h : m.WaitsAt p w) (s : Setup) (held : Key → Bool) (ticks : Nat)
    (hlatch : m.keypad.latch = none) :
    (m.after s (Session.Lead.mk (some held) ticks).deeds).keypad.latch =
      (m.freshKeys held).getLast? := by
  have hcalm : ∀ before after, ((List.finRange 16).map fun key =>
      Action.setKey key.val (held key)) = before ++ .step :: after →
        m.keypad.latch = none ∧ presses m.keypad.held before = [] := by
    intro before after e
    have hstep : Action.step ∈ before ++ .step :: after :=
      List.mem_append_right _ List.mem_cons_self
    simp [← e] at hstep
  rw [keypad_after_lead, after_takeover, (h.actAll s hcalm).2,
    presses_map _ (List.nodup_finRange 16), hlatch, Option.or_none]
  rfl

/-- What a cycle with a poll does to a machine that waits with nothing latched. -/
theorem WaitsAt.cycle (h : m.WaitsAt p w) (s : Setup) (held : Key → Bool) (ticks : Nat)
    (hlatch : m.keypad.latch = none) {next : Machine}
    (hnext : next = ((m.after s (Session.Lead.mk (some held) ticks).deeds).step s).machine) :
    (m.keypad.fresh held = ∅ → next.WaitsAt p w ∧ next.registers = m.registers) ∧
      ((m.keypad.fresh held).Nonempty → ∃ key, IsGreatest (m.keypad.fresh held) key ∧
        next.awaiting = false ∧
        next.registers = (m.registers.setPc (p + 2)).set w.x (UInt8.ofNat key.val)) := by
  obtain ⟨hwaits, hregisters⟩ := h.after s (Session.Lead.mk (some held) ticks).result?_deeds
  have hlast := h.latch_lead s held ticks hlatch
  subst hnext
  refine ⟨fun hempty => ?_, fun ⟨key, hkey⟩ => ?_⟩
  · have hnone : m.freshKeys held = [] := List.eq_nil_iff_forall_not_mem.2 fun key hkey =>
      (hempty ▸ mem_freshKeys_iff.1 hkey : key ∈ (∅ : Set Key))
    rw [hnone] at hlast
    refine ⟨hwaits.stays s hlast, ?_⟩
    rw [hwaits.step_of_none hlast]
    exact hregisters
  · have hne := List.ne_nil_of_mem (mem_freshKeys_iff.2 hkey)
    rw [List.getLast?_eq_some_getLast hne] at hlast
    refine ⟨_, isGreatest_getLast_freshKeys hne, ?_, ?_⟩
    · rw [hwaits.step_of_some hlast]
    · rw [hwaits.step_of_some hlast, hregisters]

/-! ### Keys held from the start -/

/-- A step latches no key. -/
theorem keypad_step (s : Setup) (m : Machine) :
    (m.step s).machine.keypad = m.keypad ∨ (m.step s).machine.keypad = m.keypad.forget := by
  cases stepCase s m with
  | halted f fault machine => exact .inl (by rw [machine])
  | outside running range machine => exact .inl (by rw [machine])
  | refused w c running range word refusal machine => exact .inl (by simp only [machine, fetched])
  | executed w e running range word effect machine =>
    rw [machine, reported]
    by_cases hform : Form.ofWord w = .awaitKey
    · rw [execute_awaitKey (Form.ofWord_eq_awaitKey_iff.1 hform)] at effect
      cases effect
      rw [keypad_awaitKey]
      split
      · exact .inl rfl
      · exact .inr rfl
    · exact .inl ((execute_frame effect).keypad hform)

/-- A key that is held, and not latched, is not latched unless it is released. -/
theorem not_latched_deed (s : Setup) (hheld : m.keypad.held[key] = true)
    (hlatch : m.keypad.latch ≠ some key) (hd : d ≠ .setKey key false) :
    (m.deed s d).keypad.held[key] = true ∧ (m.deed s d).keypad.latch ≠ some key := by
  cases d with
  | setKey k now =>
    obtain ⟨hheldAfter, hlatchAfter⟩ := act_setKey_keypad (s := s) (m := m) k.val now
    have hkeeps : Action.setKey k.val now ≠ .setKey key.val false := by
      intro e
      obtain ⟨hk, rfl⟩ := Action.setKey.inj e
      exact hd (congrArg (Deed.setKey · false) (Fin.ext (Int.ofNat.inj hk)))
    refine ⟨?_, fun h => ?_⟩
    · rw [deed, hheldAfter]
      exact heldAfter_eq_true hheld hkeeps
    · rw [deed, hlatchAfter] at h
      rcases Option.or_eq_some_iff.1 h with h | ⟨-, h⟩
      · -- Only a key that is not held is pressed.
        rw [(mem_pressed_iff.1 (List.mem_of_getLast? h)).2] at hheld
        cases hheld
      · exact hlatch h
  | step result =>
    rcases keypad_step s m with h | h
    · rw [show (m.deed s (.step result)).keypad = m.keypad from h]
      exact ⟨hheld, hlatch⟩
    · rw [show (m.deed s (.step result)).keypad = m.keypad.forget from h]
      exact ⟨hheld, (Option.some_ne_none key).symm⟩
  | poll | refresh | tick | switch => exact ⟨hheld, hlatch⟩

theorem not_latched_after (s : Setup) (hheld : m.keypad.held[key] = true)
    (hlatch : m.keypad.latch ≠ some key) (hds : .setKey key false ∉ ds) :
    (m.after s ds).keypad.latch ≠ some key := by
  induction ds generalizing m with
  | nil => exact hlatch
  | cons d ds ih =>
    obtain ⟨hd, hds⟩ := List.mem_cons.not.1 hds |> not_or.1
    have hnext := not_latched_deed s hheld hlatch fun e => hd e.symm
    exact ih hnext.1 hnext.2 hds

/-- The step that ends a wait finds a key latched. -/
theorem WaitsAt.exists_key (h : m.WaitsAt p w) (s : Setup)
    (past : (m.step s).machine.awaiting = false) :
    ∃ key, m.keypad.latch = some key ∧
      (m.step s).machine.registers =
        (m.registers.setPc (p + 2)).set w.x (UInt8.ofNat key.val) := by
  cases hlatch : m.keypad.latch with
  | none =>
    rw [h.step_of_none hlatch] at past
    exact absurd (h.awaiting.symm.trans past) nofun
  | some key => exact ⟨key, rfl, by rw [h.step_of_some hlatch]⟩

/-- A waiting machine draws nothing. -/
theorem WaitsAt.commands (h : m.WaitsAt p w) (s : Setup) : (m.step s).commands = [] := by
  have hword : m.nextWord? = some w := nextWord?_eq_some_iff.2 ⟨h.pc ▸ h.range, h.pc ▸ h.word⟩
  simp only [Machine.step, h.running, hword, execute_awaitKey h.digits, commit]

end Machine

namespace Session

variable {c : Course} {first : Reading} {rest : Clock} {st : Stage} {exit : Exit}
  {s s₀ : Session} {l : Lead} {before later ds : List Deed}

/-! ### How runs end -/

/-- The deeds that a run does after its complete cycles, with the machine that it
    does them to. -/
inductive Ending (setup : Setup) (timed : Bool) (m : Machine) : Exit → List Deed → Prop
  | ended {m' : Machine} {exit : Exit} {ds : List Deed} (last : Unfinished timed exit ds)
      (does : m.Does setup ds m') (on : Bool) :
      Ending setup timed m exit (ds ++ .refresh :: Deed.silence on)
  | stalled (l : Lead) : Ending setup timed m .stalled l.deeds
  /-- The next step draws pixels, and they could not be written. -/
  | undrawn (l : Lead) (e : RendererError) (on : Bool)
      (draws : ((m.after setup l.deeds).step setup).commands ≠ []) :
      Ending setup timed m (.undrawn e) (l.deeds ++ .refresh :: Deed.silence on)

/-- What is known of a run that could not write the pixels of a step. -/
def Undrawn (c : Course) (first : Reading) (s₀ : Session) (st : Stage) (s : Session) : Prop :=
  ∀ e, st = .ended (.undrawn e) → ∃ (cycles : List Cycle) (l : Lead) (on : Bool) (m : Machine),
    (s₀.opened first).Records
        (cycles.flatMap Cycle.deeds ++ l.deeds ++ .refresh :: Deed.silence on) s ∧
      s₀.machine.Does c.setup (cycles.flatMap Cycle.deeds ++ l.deeds) m ∧
      (m.step c.setup).commands ≠ []

theorem undrawn_move {y : Stage × Session} (h : Move c (first :: rest) (st, s) y)
    (hs : Accounted c first s₀ st s) (undrawn : Undrawn c first s₀ st s) :
    Undrawn c first s₀ y.1 y.2 := by
  cases h with
  | note p =>
    intro e he
    obtain ⟨cycles, l, on, m, records, hm⟩ := undrawn e he
    exact ⟨cycles, l, on, m, { records with }, hm⟩
  | arrive arrivals =>
    intro e he
    obtain ⟨cycles, l, on, m, records, hm⟩ := undrawn e he
    have hrecords := records.trans (does_arrive c _ arrivals).toRecords
    rw [List.append_nil] at hrecords
    exact ⟨cycles, l, on, m, hrecords, hm⟩
  | @undraw _ told now written e display drawn =>
    cases hs with | @«at» _ _ cycles _ account begun =>
    cases begun with | due _ l =>
    have hrecords := account.does.toRecords.trans (records_undraw drawn display).1
    rw [List.append_nil] at hrecords
    have hdraws : (s.machine.step c.setup).commands ≠ [] := by
      intro hnone
      rw [hnone] at drawn
      cases drawn
    exact fun _ _ => ⟨cycles, l, _, s.machine,
      hrecords.trans (does_finish c _ (.undrawn e)).toRecords, account.does.machine, hdraws⟩
  | _ => exact fun _ hexit => nomatch hexit

/-- A run does complete cycles, and then comes to an ending. The account of a run
    leaves the machine out if a step was not drawn, so what is known of that is
    kept beside it. -/
theorem run_ending (hexit : (s.run c (first :: rest)).1.phase = .ended exit) :
    ∃ (cycles : List Cycle) (last : List Deed) (m : Machine),
      (s.run c (first :: rest)).1.deeds = cycles.flatMap Cycle.deeds ++ last ∧
      s.machine.Does c.setup (cycles.flatMap Cycle.deeds) m ∧
      Ending c.setup s.input.timed m exit last ∧
      s.input.Gives (cycles.flatMap Cycle.deeds ++ last) (s.run c (first :: rest)).1.input := by
  obtain ⟨accounted, undrawn⟩ := run_induction
    (P := fun st s' => Accounted c first s.begin st s' ∧ Undrawn c first s.begin st s') hexit
    ⟨.opening (.refl c s.begin), nofun⟩
    fun _ _ hmove h => ⟨accounted_move hmove h.1, undrawn_move hmove h.1 h.2⟩
  cases accounted with
  | @undrawn _ e =>
    obtain ⟨cycles, l, on, _, records, does, hdraws⟩ := undrawn e rfl
    obtain ⟨m, hcycles, hlead⟩ := does.split
    rw [hlead.eq_after] at hdraws
    have hgives := records.input
    rw [List.append_assoc] at hgives
    exact ⟨cycles, _, m, records.deeds.trans (List.append_assoc ..), hcycles,
      .undrawn l e on hdraws, hgives⟩
  | @«at» _ _ cycles ds account begun =>
    obtain ⟨m, hcycles, hds⟩ := account.does.machine.split
    refine ⟨cycles, ds, m, account.does.deeds, hcycles, ?_, account.does.input⟩
    cases begun with
    | stalled l => exact .stalled l
    | ended last on =>
      obtain ⟨_, hlast, -⟩ := hds.split
      exact .ended last hlast on

/-! ### Polls -/

/-- The deeds of a run from a poll on that does not ask to quit, with the machine
    that the poll finds. -/
inductive Polled (setup : Setup) (timed : Bool) (m : Machine) (exit : Exit) : List Deed → Prop
  | cycle (l : Lead) {result : Except Fault Instruction} (rest : List Deed)
      (step : ((m.after setup l.deeds).step setup).result = result) :
      Polled setup timed m exit (l.deeds ++ .step result :: rest)
  | undrawn (l : Lead) (rest : List Deed)
      (draws : ((m.after setup l.deeds).step setup).commands ≠ []) :
      Polled setup timed m exit (l.deeds ++ rest)
  | unanswered {ds : List Deed} (still : ∀ d ∈ ds, d.result? = none)
      (cut : exit = .interrupted ∧ timed = true ∨ exit = .stalled) :
      Polled setup timed m exit ds

theorem Ending.polled {setup : Setup} {timed : Bool} {m : Machine} {last : List Deed}
    (h : Ending setup timed m exit last) (hpoll : last = before ++ .poll false :: later) :
    before = [] ∧ Polled setup timed m exit last := by
  cases h with
  | stalled l =>
    rw [← List.append_nil l.deeds] at hpoll
    exact ⟨l.eq_nil_of_poll hpoll List.not_mem_nil,
      .unanswered l.result?_deeds (.inr rfl)⟩
  | undrawn l e on draws =>
    exact ⟨l.eq_nil_of_poll hpoll (Deed.poll_notMem_close false on), .undrawn l _ draws⟩
  | ended last does on =>
    have hclose := Deed.poll_notMem_close false on
    have hmem := congrArg (.poll false ∈ ·) hpoll
    cases last with
    | finished | interrupted => simp [hclose] at hmem
    | quit => simp [hclose] at hmem
    | fault l f =>
      rw [List.append_assoc] at hpoll ⊢
      exact ⟨l.eq_nil_of_poll hpoll (by simp [hclose]), .cycle l _ does.result⟩
    | asking held count clocked few =>
      have hkeys {d : Deed} (hd : d ∈ (Deed.takeover held).take count) :
          ∃ key, .setKey key (held key) = d := by
        simpa [Deed.takeover] using List.mem_of_mem_take hd
      refine ⟨eq_nil_of_notMem_tail hpoll (List.not_mem_append (fun hd => ?_) hclose),
        .unanswered (fun d hd => ?_) (.inl ⟨rfl, clocked⟩)⟩
      · obtain ⟨key, hkey⟩ := hkeys hd
        cases hkey
      · rw [List.cons_append, List.mem_cons, List.mem_append] at hd
        rcases hd with rfl | hd | hd
        · rfl
        · obtain ⟨key, rfl⟩ := hkeys hd
          rfl
        · exact result?_close on d hd

/-- A poll of a run is part of a complete cycle, or of what comes after them. -/
theorem polled_of_run {setup : Setup} {timed : Bool} {m m' : Machine} {cycles : List Cycle}
    {last : List Deed} (h : m.Does setup (cycles.flatMap Cycle.deeds) m')
    (ending : Ending setup timed m' exit last)
    (hpoll : cycles.flatMap Cycle.deeds ++ last = before ++ .poll false :: later) :
    Polled setup timed (m.after setup before) exit (.poll false :: later) := by
  induction cycles generalizing m before with
  | nil =>
    obtain rfl : m' = m := h
    rw [List.flatMap_nil, List.nil_append] at hpoll
    obtain ⟨rfl, hpolled⟩ := ending.polled hpoll
    rw [hpoll] at hpolled
    exact hpolled
  | cons b cycles ih =>
    obtain ⟨m'', hb, hcycles⟩ := Machine.Does.split h
    have hlater {between : List Deed} (hbefore : before = b.deeds ++ between)
        (hrest : cycles.flatMap Cycle.deeds ++ last = between ++ .poll false :: later) :
        Polled setup timed (m.after setup before) exit (.poll false :: later) := by
      rw [hbefore, Machine.after_append, ← hb.eq_after]
      exact ih hcycles hrest
    rw [List.flatMap_cons, List.append_assoc, List.append_eq_append_iff] at hpoll
    rcases hpoll with ⟨between, hbefore, hrest⟩ | ⟨found, hcycle, hfound⟩
    · exact hlater hbefore hrest
    · cases found with
      | nil => exact @hlater [] (by rw [hcycle, List.append_nil, List.append_nil]) hfound.symm
      | cons d found =>
        -- The poll is that of the first cycle.
        obtain ⟨rfl, rfl⟩ := List.cons.inj hfound
        obtain rfl : before = [] := Lead.eq_nil_of_poll hcycle (by
          cases b.switch <;> simp [Deed.switches])
        rw [hfound, ← List.nil_append (_ :: found), ← hcycle, Cycle.deeds, List.append_assoc]
        exact .cycle b.toLead _ hb.result

/-- A machine that waits makes its next step, if the run makes one, in the
    instruction that it waits in. -/
theorem Polled.of_waitsAt {setup : Setup} {timed : Bool} {m : Machine} {p : Int} {w : Word}
    (h : Polled setup timed m exit (.poll false :: later)) (waits : m.WaitsAt p w) :
    (∃ held ticks rest, .poll false :: later =
        (Lead.mk (some held) ticks).deeds ++ [.step (.ok (.decode w))] ++ rest) ∨
      (∀ d ∈ later, d.result? = none) ∧
        (exit = .interrupted ∧ timed = true ∨ exit = .stalled) := by
  generalize hds : .poll false :: later = ds at h
  cases h with
  | undrawn l rest draws =>
    exact absurd ((waits.after setup l.result?_deeds).1.commands setup) draws
  | unanswered still cut =>
    exact .inr ⟨fun d hd => still d (hds ▸ List.mem_cons_of_mem _ hd), cut⟩
  | @cycle l result rest step =>
    have hthen := (waits.after setup l.result?_deeds).1
    obtain rfl := step.symm.trans hthen.step.2
    obtain ⟨poll, ticks⟩ := l
    cases poll with
    | none => cases ticks <;> cases hds
    | some held => exact .inl ⟨held, ticks, rest, List.append_cons ..⟩

/-- Keys and a program that waits for one, in a run. If the machine waits and no key
    is latched when the input is polled, then a key is fresh if the input reports
    it held and the keypad does not hold it. If no key is fresh, the next step
    leaves the machine waiting where it is; if there are some, it puts the greatest
    of them into `Vx` and goes on after the wait. There is a next step unless the
    clock is interrupted while a timed input is asked for its keys, or the timers
    never make up for the ticks that are due.

    A key that was held when a wait began and is never reported released does not
    end it, neither in the same run nor in a later one. -/
theorem polled_key_wait (c : Course) (s : Session) (clock : Clock)
    (reached : s.machine.Reached c.setup) :
    let after := (s.run c clock).1
    (∀ before later, after.deeds = before ++ .poll false :: later →
      let m := s.machine.after c.setup before
      m.awaiting = true → m.keypad.latch = none →
      let p := m.registers.pc
      let w := m.wordAt p
      (∃ (held : Key → Bool) (ticks : Nat) (later' : List Deed),
        let cycle := (Lead.mk (some held) ticks).deeds ++ [.step (.ok (.decode w))]
        let next := m.after c.setup cycle
        .poll false :: later = cycle ++ later' ∧
        (∃ input, s.input.Gives (before ++ [.poll false]) input ∧
          ∀ key, ∃ time, held key = input.isHeld time key) ∧
        (m.keypad.fresh held = ∅ → next.WaitsAt p w ∧ next.registers = m.registers) ∧
        ((m.keypad.fresh held).Nonempty → ∃ key, IsGreatest (m.keypad.fresh held) key ∧
          next.awaiting = false ∧
          next.registers = (m.registers.setPc (p + 2)).set w.x (UInt8.ofNat key.val))) ∨
      (∀ d ∈ later, d.result? = none) ∧
        (after.exit? = some .interrupted ∧ s.input.timed = true ∨
          after.exit? = some .stalled)) ∧
    ∀ (m : Machine) (ds : List Deed) (key : Key),
      m.awaiting = false → (m.step c.setup).machine.awaiting = true →
      let start := (m.step c.setup).machine
      start.keypad.held[key] = true → .setKey key false ∉ ds →
      let now := start.after c.setup ds
      let next := (now.step c.setup).machine
      now.awaiting = true → next.awaiting = false →
      let p := now.registers.pc
      ∃ other, other ≠ key ∧
        next.registers =
          (now.registers.setPc (p + 2)).set (now.wordAt p).x (UInt8.ofNat other.val) := by
  intro after
  constructor
  · intro before later hdeeds m hawaiting hlatch p w
    have hwaits : m.WaitsAt p w := reached.waitsInPlace.after c.setup before hawaiting
    cases clock with
    | nil => cases before <;> cases hdeeds
    | cons first rest =>
    obtain ⟨exit, hexit, -⟩ := run_moves c s (first :: rest)
    obtain ⟨cycles, last, m', hrun, hdoes, hending, hgives⟩ := run_ending hexit
    rw [← hrun, hdeeds] at hgives
    have hended : after.exit? = some exit := by simp only [after, exit?, hexit]
    rw [hended, Option.some_inj, Option.some_inj]
    refine ((polled_of_run hdoes hending (hrun.symm.trans hdeeds)).of_waitsAt hwaits).imp_left ?_
    rintro ⟨held, ticks, later', hlater⟩
    rw [List.append_assoc] at hlater
    refine ⟨held, ticks, later', ?_, hgives.polled hlater,
      hwaits.cycle c.setup held ticks hlatch ?_⟩
    · rw [hlater, List.append_assoc]
    · rw [Machine.after_append]
      rfl
  · intro m ds key hbefore hbegun start hheld hds now next hawaiting hover p
    obtain ⟨hstart, hkeypad⟩ := Machine.waitsAt_of_step hbefore hbegun
    have hempty : start.keypad.latch = none := congrArg Keypad.latch hkeypad
    have hunlatched : now.keypad.latch ≠ some key :=
      Machine.not_latched_after c.setup hheld (by rw [hempty]; exact nofun) hds
    have hnow : now.WaitsAt p (now.wordAt p) := hstart.inPlace.after c.setup ds hawaiting
    obtain ⟨other, hother, hregisters⟩ := hnow.exists_key c.setup hover
    exact ⟨other, fun h => hunlatched (h ▸ hother), hregisters⟩

/-- A machine about to wait for a key in `V3`, the key 5 held. -/
def fiveHeld : Machine :=
  (Machine.powerOn {}).performAll Machine.standardSetup
    [.load (.bytes [0xF3, 0x0A]), .act (.setKey 5 true)]

theorem reached_fiveHeld : fiveHeld.Reached Machine.standardSetup :=
  .perform (.perform .powerOn (.load (.bytes [0xF3, 0x0A]))) (.act (.setKey 5 true))

/-- A session of this machine once it waits, in which the keys 2, 5 and 9 are
    reported held. -/
def threeReported : Session :=
  { start (fiveHeld.perform Machine.standardSetup (.act .step))
      (.scripted ⟨[⟨some [2, 5, 9], false⟩], []⟩) (.plain (.make .null)) ⟨.bell, false⟩
    with nextReport := 1000.0 }

/-- One instruction at full speed. -/
def oneStep : Course := ⟨Machine.standardSetup, none, some 1⟩

theorem reached_threeReported : threeReported.machine.Reached oneStep.setup := by
  simp only [threeReported, Session.start, oneStep]
  exact reached_fiveHeld.perform (.act .step)

/-- The keys of the poll. -/
def threeTaken : List Deed := Deed.takeover (· ∈ ([2, 5, 9] : List Key))

/-- Of the keys 2 and 9, which are pressed at the poll, the greater one ends the
    wait; the key 5, held since before it began, does not. -/
theorem polled_key_wait_threeReported :
    let run := (threeReported.run oneStep [⟨0.0, []⟩, ⟨0.0, []⟩]).1
    let start := threeReported.machine.after oneStep.setup []
    let begun := (fiveHeld.step oneStep.setup).machine
    let past := ((begun.after oneStep.setup threeTaken).step oneStep.setup).machine
    threeReported.machine.Reached oneStep.setup ∧
      start.awaiting = true ∧ start.keypad.latch = none ∧
      (∃ cycle later, run.deeds = cycle ++ later ∧
        (start.after oneStep.setup cycle).awaiting = false ∧
        (start.after oneStep.setup cycle).registers.v[(3 : Fin 16)] = 9) ∧
      begun.awaiting = true ∧ begun.keypad.held[(5 : Key)] = true ∧
      ∃ other, other ≠ (5 : Key) ∧ past.registers.v[(3 : Fin 16)] = UInt8.ofNat other.val := by
  obtain ⟨hawaiting, hlatch, hreleased, hx⟩ :
      (threeReported.machine.after oneStep.setup []).awaiting = true ∧
        (threeReported.machine.after oneStep.setup []).keypad.latch = none ∧
        (threeReported.machine.after oneStep.setup []).keypad.held[(9 : Key)] = false ∧
        ((threeReported.machine.after oneStep.setup []).wordAt
          (threeReported.machine.after oneStep.setup []).registers.pc).x = 3 := by
    decide +kernel
  have hdeeds : (threeReported.run oneStep [⟨0.0, []⟩, ⟨0.0, []⟩]).1.deeds =
      [] ++ .poll false :: (threeTaken ++ [.refresh, .step (.ok (.decode 0xF30A)), .refresh]) := by
    decide +kernel
  obtain ⟨hbefore, hbegun, hfive⟩ : fiveHeld.awaiting = false ∧
      (fiveHeld.step oneStep.setup).machine.awaiting = true ∧
      (fiveHeld.step oneStep.setup).machine.keypad.held[(5 : Key)] = true := by
    decide +kernel
  obtain ⟨hwaits, hpast, hx'⟩ :
      ((fiveHeld.step oneStep.setup).machine.after oneStep.setup threeTaken).awaiting = true ∧
        (((fiveHeld.step oneStep.setup).machine.after oneStep.setup threeTaken).step
          oneStep.setup).machine.awaiting = false ∧
        (((fiveHeld.step oneStep.setup).machine.after oneStep.setup threeTaken).wordAt
          ((fiveHeld.step oneStep.setup).machine.after oneStep.setup threeTaken).registers.pc).x =
            3 := by
    decide +kernel
  obtain ⟨hpolls, hheld⟩ :=
    polled_key_wait oneStep threeReported [⟨0.0, []⟩, ⟨0.0, []⟩] reached_threeReported
  refine ⟨reached_threeReported, hawaiting, hlatch, ?_, hbegun, hfive, ?_⟩
  · rcases hpolls [] _ hdeeds hawaiting hlatch with
      ⟨held, ticks, later, hcycle, -, -, hfresh⟩ | ⟨hstill, -⟩
    · have hanswers (key : Key) : held key = decide (key ∈ ([2, 5, 9] : List Key)) := by
        have h := congrArg (·[key.val + 1]?) hcycle
        simpa [threeTaken, Lead.deeds, Lead.shown, Deed.takeover, List.getElem?_append_left]
          using h.symm
      have hnine : 9 ∈ (threeReported.machine.after oneStep.setup []).keypad.fresh held :=
        ⟨hanswers 9, hreleased⟩
      obtain ⟨key, ⟨hkey, hgreatest⟩, hover, hregisters⟩ := hfresh ⟨9, hnine⟩
      have hlisted := hkey.1
      rw [hanswers, decide_eq_true_iff] at hlisted
      have hle : ∀ key ∈ ([2, 5, 9] : List Key), key ≤ 9 := by decide
      obtain rfl := le_antisymm (hle key hlisted) (hgreatest hnine)
      refine ⟨_, _, hdeeds.trans hcycle, hover, ?_⟩
      rw [hregisters, hx]
      exact Registers.v_set_self _ _ _
    · exact absurd (hstill (.step (.ok (.decode 0xF30A))) (by simp)) (Option.some_ne_none _)
  · obtain ⟨other, hother, hregisters⟩ :=
      hheld fiveHeld threeTaken 5 hbefore hbegun hfive (by decide) hwaits hpast
    refine ⟨other, hother, ?_⟩
    rw [hregisters, hx']
    exact Registers.v_set_self _ _ _

end Session

end Chip8
