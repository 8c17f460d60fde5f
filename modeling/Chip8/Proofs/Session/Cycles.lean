import Chip8.Proofs.Session.Effects
import Chip8.Proofs.Session.Move

/-!
# The cycles of a run

The deeds of a run are those of its cycles, one after the other: a poll with the
keys and the picture, if the picture was due, then ticks, an instruction, and
the buzzer following it (`Cycle`). The last cycle may stay unfinished
(`Unfinished`), and after it the picture is shown and the buzzer falls silent.

* `Accounts`: the cycles and the deeds after them that a session accounts for;
* `Begun`: what a session has done of a cycle, at every stage of it;
* `run_accounts`: a run accounts for its cycles up to its exit.
-/

namespace Chip8

namespace Session

/-- How a cycle begins: with a poll, if the picture is due, and the answer for
    every key; and with the ticks that are due. -/
structure Lead where
  poll : Option (Key → Bool)
  ticks : Nat

/-- A poll that does not ask to quit, the keys being taken over, and the picture
    being shown. -/
def Lead.shown : Option (Key → Bool) → List Deed
  | none => []
  | some held => .poll false :: Deed.takeover held ++ [.refresh]

def Lead.deeds (l : Lead) : List Deed :=
  shown l.poll ++ List.replicate l.ticks .tick

theorem Lead.deeds_tick (l : Lead) :
    { l with ticks := l.ticks + 1 : Lead }.deeds = l.deeds ++ [.tick] := by
  simp only [deeds, List.replicate_succ', List.append_assoc]

/-- A complete cycle, with the buzzer being switched at its end or not. -/
structure Cycle extends Lead where
  instruction : Instruction
  switch : Option Bool

def Cycle.deeds (b : Cycle) : List Deed :=
  b.toLead.deeds ++ .step (.ok b.instruction) :: Deed.switches b.switch

/-- The deeds of a cycle that an exit leaves unfinished. -/
inductive Unfinished (timed : Bool) : Exit → List Deed → Prop
  | finished : Unfinished timed .finished []
  | quit : Unfinished timed .quit [.poll true]
  | fault (l : Lead) (f : Fault) : Unfinished timed (.fault f) (l.deeds ++ [.step (.error f)])
  | interrupted : Unfinished timed .interrupted []
  /-- Asking a timed input for its keys looks at the clock. -/
  | asking (held : Key → Bool) (count : Nat) (clocked : timed = true) (few : count < 16) :
      Unfinished timed .interrupted (.poll false :: (Deed.takeover held).take count)

/-- What has been done of a cycle at a stage. -/
inductive Begun (timed : Bool) : Stage → List Deed → Prop
  | between : Begun timed .between []
  | ready : Begun timed .ready []
  | waiting (resume : Float) : Begun timed (.waiting resume) []
  | polling (now : Float) : Begun timed (.polling now) []
  | sampling (now : Float) (key : Key) (held : Key → Bool) (clocked : timed = true) :
      Begun timed (.sampling now key) (.poll false :: (Deed.takeover held).take key.val)
  | taken (now : Float) (held : Key → Bool) :
      Begun timed (.taken now) (.poll false :: Deed.takeover held)
  | due (now : Float) (l : Lead) : Begun timed (.due now) l.deeds
  | done (now : Float) : Begun timed (.done now) []
  | ended {exit : Exit} {ds : List Deed} (last : Unfinished timed exit ds) (on : Bool) :
      Begun timed (.ended exit) (ds ++ .refresh :: Deed.silence on)
  | stalled (l : Lead) : Begun timed (.ended .stalled) l.deeds

/-- After every cycle the buzzer is on if the sound timer runs. -/
def Follows (c : Course) (s₀ : Session) (cycles : List Cycle) : Prop :=
  ∀ done, done <+: cycles → done ≠ [] →
    Deed.level s₀.buzzing (done.flatMap Cycle.deeds) =
      (s₀.machine.after c.setup (done.flatMap Cycle.deeds)).sounding

/-- A session that has come from another one accounts for cycles, and for deeds
    after them. -/
structure Accounts (c : Course) (s₀ : Session) (cycles : List Cycle) (ds : List Deed)
    (s : Session) : Prop where
  does : s₀.Does c (cycles.flatMap Cycle.deeds ++ ds) s
  follows : Follows c s₀ cycles

variable {c : Course} {clock : Clock} {s₀ s s' : Session} {cycles : List Cycle}
  {ds ds' : List Deed} {l : Lead}

theorem Accounts.start (c : Course) (s : Session) : Accounts c s [] [] s where
  does := .refl c s
  follows := fun _ hdone hne => absurd (List.prefix_nil.1 hdone) hne

theorem Accounts.trans (h : Accounts c s₀ cycles ds s) (h' : s.Does c ds' s') :
    Accounts c s₀ cycles (ds ++ ds') s' where
  does := List.append_assoc .. ▸ h.does.trans h'
  follows := h.follows

theorem Accounts.idle (h : Accounts c s₀ cycles ds s) (h' : s.Does c [] s') :
    Accounts c s₀ cycles ds s' :=
  List.append_nil ds ▸ h.trans h'

/-- Switching the buzzer does nothing to the machine. -/
theorem after_switches (setup : Setup) (m : Machine) (on : Option Bool) :
    m.after setup (Deed.switches on) = m := by
  cases on <;> rfl

/-- An instruction completes a cycle. -/
theorem Accounts.complete {i : Instruction} (h : Accounts c s₀ cycles l.deeds s)
    (h' : s.Does c (.step (.ok i) ::
      Deed.sync s.buzzing (s.machine.step c.setup).machine.sounding) s') :
    ∃ b : Cycle, Accounts c s₀ (cycles ++ [b]) [] s' := by
  generalize hsounding : (s.machine.step c.setup).machine.sounding = sounding at h'
  have hmachine : s'.machine.sounding = sounding := by
    rw [← hsounding, h'.machine.eq_after]
    exact congrArg Machine.sounding (after_switches ..)
  refine ⟨⟨l, i, if sounding = s.buzzing then none else some sounding⟩, ?_⟩
  generalize hb : (⟨l, i, _⟩ : Cycle) = b
  have hdoes : s₀.Does c ((cycles ++ [b]).flatMap Cycle.deeds ++ []) s' := by
    have := (h.trans h').does
    rwa [List.append_nil, List.flatMap_append, List.flatMap_singleton, ← hb]
  refine ⟨hdoes, fun done hdone hne => ?_⟩
  rcases List.prefix_concat_iff.1 hdone with rfl | hdone
  · rw [List.append_nil] at hdoes
    rw [← hdoes.machine.eq_after, ← hdoes.buzzing, h'.buzzing, hmachine]
    exact Deed.level_sync _ _
  · exact h.follows done hdone hne

/-! ### Keys being taken over -/

/-- The answer for a key makes no difference before it. -/
theorem take_takeover_update (held : Key → Bool) (key : Key) (pressed : Bool) :
    (Deed.takeover (Function.update held key pressed)).take key.val =
      (Deed.takeover held).take key.val := by
  simp only [Deed.takeover, ← List.map_take]
  refine List.map_congr_left fun k hk => ?_
  have hne : k ≠ key := by
    rintro rfl
    obtain ⟨i, hi, hik⟩ := List.mem_take_iff_getElem.1 hk
    rw [List.getElem_finRange] at hik
    have := congrArg Fin.val hik
    simp only [Fin.val_cast] at this
    omega
  rw [Function.update_of_ne hne]

theorem take_takeover_succ (held : Key → Bool) (key : Key) (pressed : Bool) :
    (Deed.takeover (Function.update held key pressed)).take (key.val + 1) =
      (Deed.takeover held).take key.val ++ [.setKey key pressed] := by
  have hlength : key.val < (Deed.takeover (Function.update held key pressed)).length := by
    simp [Deed.takeover]
  rw [List.take_succ_eq_append_getElem hlength, take_takeover_update]
  simp [Deed.takeover]

theorem take_takeover_all (held : Key → Bool) :
    (Deed.takeover held).take 16 = Deed.takeover held :=
  List.take_of_length_le (by simp [Deed.takeover])

/-! ### Runs -/

/-- The session once it has looked at the clock. -/
def opened (s : Session) (first : Reading) : Session :=
  { s with nextTick := first.time + tickInterval, nextFrame := 0.0 }

/-- At every stage a session accounts for what it has done, but for an
    instruction whose pixels could not be written. -/
inductive Accounted (c : Course) (first : Reading) (s₀ : Session) : Stage → Session → Prop
  | opening {s : Session} (idle : s₀.Does c [] s) : Accounted c first s₀ .opening s
  | at {st : Stage} {s : Session} {cycles : List Cycle} {ds : List Deed}
      (account : Accounts c (s₀.opened first) cycles ds s) (begun : Begun s₀.input.timed st ds) :
      Accounted c first s₀ st s
  | undrawn {s : Session} {e : RendererError} {cycles : List Cycle} {l : Lead} {on : Bool}
      (window : s₀.renderer.kind = .window) (follows : Follows c (s₀.opened first) cycles)
      (records : (s₀.opened first).Records
        (cycles.flatMap Cycle.deeds ++ l.deeds ++ .refresh :: Deed.silence on) s) :
      Accounted c first s₀ (.ended (.undrawn e)) s

variable {first : Reading} {rest : Clock} {st : Stage}

/-- The account at the end of a run. -/
theorem Accounts.finish {exit : Exit} (h : Accounts c (s₀.opened first) cycles ds s)
    (last : Unfinished s₀.input.timed exit ds) :
    Accounted c first s₀ (.ended exit) (s.finish exit) :=
  .at (h.trans (does_finish c s exit)) (.ended last s.buzzing)

/-- Interrupted looks leave a poll unfinished, or none. -/
theorem Begun.unfinished (h : Begun s₀.input.timed st ds) (looks : st.Looks) :
    Unfinished s₀.input.timed .interrupted ds := by
  cases looks <;> cases h
  case sampling.sampling key held clocked => exact .asking held key.val clocked key.isLt
  all_goals exact .interrupted

/-- What has been begun of a cycle goes on by every move. -/
theorem begun_move {y : Stage × Session} (h : Move c (first :: rest) (st, s) y)
    (account : Accounts c (s₀.opened first) cycles ds s) (begun : Begun s₀.input.timed st ds) :
    Accounted c first s₀ y.1 y.2 := by
  cases h with
  | note p => exact .at (account.idle { Does.refl c _ with }) begun
  | arrive arrivals => exact .at (account.idle (does_arrive c _ arrivals)) begun
  | sumUp time => exact .at (account.idle { does_report c _ _ _ with }) begun
  | start look => cases begun
  | noStart empty => cases empty
  | limit reached =>
    cases begun
    exact account.finish .finished
  | goOn below =>
    cases begun
    exact .at account .ready
  | frameDue look due =>
    cases begun
    exact .at account (.polling _)
  | frameAhead look ahead =>
    cases begun
    exact .at account (.due _ ⟨none, 0⟩)
  | quit line poll =>
    cases begun
    exact ((account.trans (does_poll c poll)).trans (does_log c _ line)).finish .quit
  | ask timed poll =>
    cases begun
    have asked := account.trans (does_poll c poll)
    exact .at asked (.sampling _ 0 (fun _ => false) (asked.does.timed.symm.trans timed))
  | askAll untimed poll =>
    cases begun
    exact .at ((account.trans (does_poll c poll)).trans (does_takeKeys c _ _)) (.taken _ _)
  | @takeKey _ now time key next =>
    cases begun with | sampling _ _ held clocked =>
    have taken := account.trans (does_takeKey c s time key)
    rw [List.cons_append, ← take_takeover_succ] at taken
    exact .at taken (.sampling _ _ _ clocked)
  | @takeLast _ now time key last =>
    cases begun with | sampling _ _ held clocked =>
    have taken := account.trans (does_takeKey c s time key)
    have hlast : key.val + 1 = 16 := by omega
    rw [List.cons_append, ← take_takeover_succ, hlast, take_takeover_all] at taken
    exact .at taken (.taken _ _)
  | @frame _ now =>
    cases begun with | taken _ held =>
    -- The picture ends what a poll has led to, and no tick has been made yet.
    have shown := account.trans (does_frame c s now)
    rw [List.cons_append, ← List.append_nil (_ :: _)] at shown
    exact .at shown (.due _ ⟨some held, 0⟩)
  | tick due =>
    cases begun with | due _ l =>
    exact .at (l.deeds_tick ▸ account.trans (does_tick c _)) (.due _ _)
  | stall due =>
    cases begun with | due _ l =>
    exact .at account (.stalled l)
  | step ahead result drawn =>
    cases begun with | due _ l =>
    obtain ⟨b, complete⟩ := account.complete (does_step result drawn)
    exact .at complete (.done _)
  | fail ahead result =>
    cases begun with | due _ l =>
    exact (account.trans (does_fail result)).finish (.fault l _)
  | @undraw _ told now written e display drawn =>
    cases begun with | due _ l =>
    obtain ⟨records, hwindow⟩ := records_undraw drawn display
    have hrecords := account.does.toRecords.trans records
    rw [List.append_nil] at hrecords
    exact .undrawn (account.does.kind ▸ hwindow) account.follows
      (hrecords.trans (does_finish c _ (.undrawn e)).toRecords)
  | rest uncapped =>
    cases begun
    exact .at account .between
  | wait capped =>
    cases begun
    exact .at account (.waiting _)
  | wake look late =>
    cases begun
    exact .at account .between
  | interrupt looks => exact account.finish (begun.unfinished looks)

theorem accounted_move {y : Stage × Session} (h : Move c (first :: rest) (st, s) y)
    (hs : Accounted c first s₀ st s) : Accounted c first s₀ y.1 y.2 := by
  cases hs with
  | opening idle =>
    cases h with
    | note p => exact .opening { idle with }
    | arrive arrivals => exact .opening (idle.trans (does_arrive c _ arrivals))
    | start look =>
      cases look
      have hopened : (s₀.opened first).Does c [] (s.opened first) := { idle with ticks := rfl }
      exact .at ((Accounts.start c _).trans (hopened.trans (does_report c _ 0 0))) .between
    | interrupt looks => cases looks
    | noStart empty => cases empty
  | «at» account begun => exact begun_move h account begun
  | undrawn window follows records =>
    -- The run has come to its end, and nothing but arrivals may follow.
    cases h with
    | note p => exact .undrawn window follows { records with }
    | arrive arrivals =>
      have hlast := records.trans (does_arrive c _ arrivals).toRecords
      rw [List.append_nil] at hlast
      exact .undrawn window follows hlast
    | interrupt looks => cases looks

/-- A run that looks at the clock accounts for what it does. -/
theorem run_accounted {exit : Exit} (hexit : (s.run c (first :: rest)).1.phase = .ended exit) :
    Accounted c first s.begin (.ended exit) (s.run c (first :: rest)).1 :=
  run_induction hexit (.opening (.refl c s.begin)) fun _ _ => accounted_move

end Session

end Chip8
