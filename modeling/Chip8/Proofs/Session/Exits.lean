import Chip8.Proofs.Session.Cycles

/-!
# Why runs end

An exit says something about the run that it ends:

* a run that finishes has reached its limit, one that halts has not, and none
  goes beyond it (`run_limited`);
* timers that never make up for the ticks that are due have a clock to which
  every tick from some point on is due (`overruns_of_stalled`);
* every other exit leaves the buzzer off (`buzzing_of_run`).
-/

namespace Chip8

namespace Session

variable {c : Course} {clock : Clock} {s s' : Session} {st : Stage} {exit : Exit}

/-! ### The limit -/

theorem atLimit_congr (h : s'.cycles = s.cycles) : s'.atLimit c = s.atLimit c := by
  simp only [atLimit, h]

theorem exists_of_atLimit (h : s.atLimit c = true) :
    ∃ limit, c.limit = some limit ∧ limit ≤ s.cycles := by
  unfold atLimit at h
  split at h
  · cases h
  · exact ⟨_, ‹_›, of_decide_eq_true h⟩

/-- No more instructions have been executed than may be. -/
def Within (c : Course) (s : Session) : Prop :=
  ∀ limit, c.limit = some limit → (s.cycles : Int) ≤ max limit 0

theorem Within.congr (h : s.Within c) (hcycles : s'.cycles = s.cycles) : s'.Within c :=
  fun limit hlimit => hcycles ▸ h limit hlimit

theorem within_succ (below : s.atLimit c = false) (hcycles : s'.cycles = s.cycles + 1) :
    s'.Within c := by
  intro limit hlimit
  simp only [atLimit, hlimit, decide_eq_false_iff_not] at below
  rw [hcycles]
  omega

/-- There is an instruction to come, or there was one that failed. -/
inductive Stage.Runs : Stage → Prop
  | ready : Runs .ready
  | polling {now : Float} : Runs (.polling now)
  | sampling {now : Float} {key : Key} : Runs (.sampling now key)
  | taken {now : Float} : Runs (.taken now)
  | due {now : Float} : Runs (.due now)
  | fault {f : Fault} : Runs (.ended (.fault f))

/-- A session keeps to its limit. -/
structure Limited (c : Course) (st : Stage) (s : Session) : Prop where
  within : s.Within c
  below : st.Runs → s.atLimit c = false
  reached : st = .ended .finished → s.atLimit c = true

theorem countP_switches (on : Option Bool) : (Deed.switches on).countP Deed.returns = 0 := by
  cases on <;> rfl

theorem countP_close (on : Bool) :
    (Deed.refresh :: Deed.silence on).countP Deed.returns = 0 := by
  cases on <;> rfl

theorem countP_takeover (held : Key → Bool) : (Deed.takeover held).countP Deed.returns = 0 := by
  simp [Deed.takeover, Deed.returns]

theorem cycles_finish (h : s.Does c (.refresh :: Deed.silence s.buzzing) s') :
    s'.cycles = s.cycles := by
  rw [h.cycles, countP_close, Nat.add_zero]

theorem cycles_takeKeys (c : Course) (s : Session) (time : Float) :
    (s.takeKeys time).cycles = s.cycles := by
  rw [(does_takeKeys c s time).cycles, countP_takeover, Nat.add_zero]

/-- Only an instruction that is executed is counted. -/
theorem Move.cycles {x y : Stage × Session} (h : Move c clock x y) :
    y.2.cycles = x.2.cycles ∨
      ∃ now, x.1 = .due now ∧ y.1 = .done now ∧ y.2.cycles = x.2.cycles + 1 := by
  cases h with
  | step ahead result drawn =>
    refine .inr ⟨_, rfl, rfl, (does_step result drawn).cycles.trans ?_⟩
    rw [Deed.sync, List.countP_cons_of_pos rfl, countP_switches]
  | start first => exact .inl (does_report c _ 0 0).cycles
  | sumUp time => exact .inl (does_report c _ _ _).cycles
  | limit reached => exact .inl (cycles_finish (does_finish c _ _))
  | quit line poll => exact .inl ((cycles_finish (does_finish c _ _)).trans rfl)
  | askAll untimed poll => exact .inl (cycles_takeKeys c _ _)
  | frame => exact .inl (does_frame c _ _).cycles
  | fail ahead result => exact .inl ((cycles_finish (does_finish c _ _)).trans rfl)
  | undraw display drawn =>
    exact .inl ((cycles_finish (does_finish c _ _)).trans (records_undraw drawn display).1.cycles)
  | interrupt looks => exact .inl (cycles_finish (does_finish c _ _))
  | _ => exact .inl rfl

theorem limited_move {x y : Stage × Session} (h : Move c clock x y) (hx : Limited c x.1 x.2) :
    Limited c y.1 y.2 := by
  rcases h.cycles with hcycles | ⟨now, hdue, hdone, hcycles⟩
  · have hwithin := hx.within.congr hcycles
    have hlimit := atLimit_congr (c := c) hcycles
    refine ⟨hwithin, fun hruns => ?_, fun hreached => ?_⟩
    · rw [hlimit]
      cases h with
      | goOn below => exact below
      | note | arrive => exact hx.below hruns
      | sumUp | frameDue | frameAhead => exact hx.below .ready
      | ask | askAll => exact hx.below .polling
      | takeKey | takeLast => exact hx.below .sampling
      | frame => exact hx.below .taken
      | tick | fail => exact hx.below .due
      | _ => cases hruns
    · rw [hlimit]
      cases h with
      | limit reached => exact reached
      | note | arrive => exact hx.reached hreached
      | _ => cases hreached
  · refine ⟨within_succ (hx.below (hdue ▸ .due)) hcycles, ?_, ?_⟩
    · rw [hdone]
      exact nofun
    · rw [hdone]
      exact nofun

/-- A run keeps to its limit. -/
theorem run_limited (hexit : (s.run c clock).1.phase = .ended exit) :
    Limited c (.ended exit) (s.run c clock).1 :=
  run_induction hexit ⟨fun _ _ => le_max_right _ _, nofun, nofun⟩ fun _ _ => limited_move

/-! ### Ticks that are due for ever -/

/-- The time at which a cycle started, while it lasts. -/
def Stage.now? : Stage → Option Float
  | .polling now | .sampling now _ | .taken now | .due now | .done now => some now
  | _ => none

/-- A cycle started when the clock said so, and if the timers are stalled, all
    ticks to come are due at the time of a look. -/
structure Timed (clock : Clock) (st : Stage) (s : Session) : Prop where
  looked : ∀ now, st.now? = some now → ∃ r ∈ clock, r.time = now
  stalled : st = .ended .stalled → ∃ r ∈ clock, ∀ n, tickTime s.nextTick n ≤ r.time

theorem timed_move {x y : Stage × Session} (h : Move c clock x y) (hx : Timed clock x.1 x.2) :
    Timed clock y.1 y.2 := by
  cases h with
  | note | arrive => exact ⟨hx.looked, hx.stalled⟩
  | frameDue look due => exact ⟨fun _ hnow => ⟨_, look, Option.some.inj hnow⟩, nofun⟩
  | frameAhead look ahead => exact ⟨fun _ hnow => ⟨_, look, Option.some.inj hnow⟩, nofun⟩
  | ask | askAll | takeKey | takeLast | frame | tick | step => exact ⟨hx.looked, nofun⟩
  | stall due =>
    obtain ⟨r, hr, rfl⟩ := hx.looked _ rfl
    exact ⟨nofun, fun _ => ⟨r, hr, due⟩⟩
  | _ => exact ⟨nofun, nofun⟩

theorem run_timed (hexit : (s.run c clock).1.phase = .ended exit) :
    Timed clock (.ended exit) (s.run c clock).1 :=
  run_induction hexit ⟨nofun, nofun⟩ fun _ _ => timed_move

/-- A clock by which the ticks of a run, from some tick on, are all due at the
    time of one look, however many there are. -/
def Overruns (first : Reading) (rest : Clock) : Prop :=
  ∃ r ∈ first :: rest, ∃ k, ∀ n ≥ k, tickTime (first.time + tickInterval) n ≤ r.time

/-- Timers are stalled only by a clock that overruns them. -/
theorem overruns_of_stalled {first : Reading} {rest : Clock}
    (hexit : (s.run c (first :: rest)).1.phase = .ended .stalled) : Overruns first rest := by
  obtain ⟨r, hr, hdue⟩ := (run_timed hexit).stalled rfl
  cases run_accounted hexit with | @«at» _ _ cycles ds account begun =>
  refine ⟨r, hr, (cycles.flatMap Cycle.deeds ++ ds).count .tick, fun n hn => ?_⟩
  have hnext := account.does.ticks
  obtain ⟨m, rfl⟩ := Nat.exists_eq_add_of_le' hn
  rw [← tickTime_add]
  exact hnext ▸ hdue m

/-! ### The buzzer -/

theorem buzzing_finish (h : s.Does c (.refresh :: Deed.silence s.buzzing) s') :
    s'.buzzing = false :=
  h.buzzing.trans (Deed.level_silence _)

/-- The session has switched the buzzer off if it has come to an end. -/
def Silent (st : Stage) (s : Session) : Prop :=
  ∀ exit, st = .ended exit → exit = .stalled ∨ s.buzzing = false

theorem silent_move {x y : Stage × Session} (hclock : clock ≠ []) (h : Move c clock x y)
    (hx : Silent x.1 x.2) : Silent y.1 y.2 := by
  cases h with
  | note | arrive => exact hx
  | stall due => exact fun _ hexit => .inl (Stage.ended.inj hexit).symm
  | limit reached => exact fun _ _ => .inr (buzzing_finish (does_finish c _ _))
  | quit line poll => exact fun _ _ => .inr (buzzing_finish (does_finish c _ _))
  | fail ahead result => exact fun _ _ => .inr (buzzing_finish (does_finish c _ _))
  | undraw display drawn => exact fun _ _ => .inr (buzzing_finish (does_finish c _ _))
  | interrupt looks => exact fun _ _ => .inr (buzzing_finish (does_finish c _ _))
  | noStart empty => exact absurd empty hclock
  | _ => exact fun _ hexit => nomatch hexit

/-- A run that looks at the clock leaves the buzzer off, unless it does not end. -/
theorem run_silent (hclock : clock ≠ []) (hexit : (s.run c clock).1.phase = .ended exit) :
    exit = .stalled ∨ (s.run c clock).1.buzzing = false :=
  run_induction (P := Silent) hexit (fun _ h => nomatch h) (fun _ _ => silent_move hclock) exit rfl

end Session

end Chip8
