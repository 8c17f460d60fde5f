import Chip8.Proofs.Session.Refinement

/-!
# The buzzer over runs

A session may run more than once (`Session.runs`). It switches its buzzer when
the sound timer has started or run out by the end of a cycle, and switches it off
at the end of every run. So over all of its runs the buzzer is switched on and
off in turn (`buzzer_over_runs`):

* `Deed.Flips` keeps the switches in turn, whatever is done between them;
* `Follows` ties the buzzer to the sound timer at the end of a cycle;
* `run_silent` leaves it off at the end of a run.
-/

namespace Chip8

namespace Deed

variable {on : Bool} {ds : List Deed}

/-- Switches that flip the buzzer are on and off in turn. -/
theorem Flips.getElem (h : Flips on ds) (k : Nat) (hk : k < (ds.filterMap switch?).length) :
    (ds.filterMap switch?)[k] = (on ^^ decide (k % 2 = 0)) := by
  induction ds generalizing on k with
  | nil => exact absurd hk (Nat.not_lt_zero k)
  | cons d ds ih =>
    cases d with
    | switch now =>
      obtain rfl := h.1 now rfl
      cases k with
      | zero => cases on <;> rfl
      | succ k =>
        have hnext := ih h.2 k (Nat.lt_of_succ_lt_succ hk)
        have hparity : (k + 1) % 2 = 0 ↔ ¬k % 2 = 0 := by omega
        refine hnext.trans ?_
        simp only [sounds, hparity, decide_not]
        cases on <;> cases decide (k % 2 = 0) <;> rfl
    | poll | setKey | refresh | tick | step => exact ih h.2 k hk

/-- Switches that flip the buzzer are as many on as off, but for the one that it
    was left with. -/
theorem Flips.count (h : Flips on ds) :
    (ds.filterMap switch?).count true + on.toNat =
      (ds.filterMap switch?).count false + (level on ds).toNat := by
  induction ds generalizing on with
  | nil => rfl
  | cons d ds ih =>
    have hrest := ih h.2
    cases d with
    | switch now =>
      obtain rfl := h.1 now rfl
      cases on <;> simp [switch?, level, sounds] at hrest ⊢ <;> omega
    | poll | setKey | refresh | tick | step => exact hrest

end Deed

namespace Session

/-- A run, from the session before it to the session after it. -/
structure Ran where
  course : Course
  before : Session
  after : Session

/-- Runs, one after the other. Nothing comes after a run that does not end. -/
def runs (s : Session) : List (Course × Clock) → List Ran
  | [] => []
  | (c, clock) :: rest =>
    let after := (s.run c clock).1
    ⟨c, s, after⟩ :: match after.phase with
      | .ended .stalled => []
      | _ => after.runs rest

/-- The deeds of runs. -/
def deedsOf (rs : List Ran) : List Deed :=
  rs.flatMap fun r => r.after.deeds

variable {c : Course} {clock : Clock} {s : Session} {exit : Exit}

/-- Neither the session nor its buzzer is on. -/
structure Off (s : Session) : Prop where
  buzzing : s.buzzing = false
  buzzer : s.buzzer.on = false

/-- After every cycle of a run its buzzer is on if the sound timer runs, and the
    deeds after them complete no cycle. -/
def Ran.Follows (r : Ran) : Prop :=
  ∃ cycles last, r.after.deeds = cycles.flatMap Cycle.deeds ++ last ∧
    last.countP Deed.returns = 0 ∧
    ∀ done, done <+: cycles → done ≠ [] →
      (r.before.buzzer.after (done.flatMap Cycle.deeds)).on =
        (r.before.machine.after r.course.setup (done.flatMap Cycle.deeds)).sounding

/-- The records of a run, whatever its exit is. -/
theorem exists_records {first : Reading} {rest : Clock}
    (hexit : (s.run c (first :: rest)).1.phase = .ended exit) :
    ∃ cycles last, last.countP Deed.returns = 0 ∧ Session.Follows c (s.begin.opened first) cycles ∧
      (s.begin.opened first).Records (cycles.flatMap Cycle.deeds ++ last)
        (s.run c (first :: rest)).1 := by
  cases run_accounted hexit with
  | @undrawn _ _ cycles l on window follows records =>
    rw [List.append_assoc] at records
    exact ⟨cycles, _, by rw [List.countP_append, l.countP, countP_close], follows, records⟩
  | @«at» _ _ cycles ds account begun =>
    refine ⟨cycles, ds, ?_, account.follows, account.does.toRecords⟩
    cases begun with
    | stalled l => exact l.countP
    | ended last on => rw [List.countP_append, last.countP, countP_close]

/-- What one run does to a buzzer that is off. -/
theorem run_buzzer (c : Course) (clock : Clock) (hoff : s.Off) :
    Deed.Flips false (s.run c clock).1.deeds ∧ (Ran.mk c s (s.run c clock).1).Follows ∧
      ((s.run c clock).1.phase = .ended .stalled ∨
        Deed.level false (s.run c clock).1.deeds = false ∧ (s.run c clock).1.Off) := by
  cases clock with
  | nil =>
    -- Without a look at the clock nothing happens.
    refine ⟨trivial, ⟨[], [], rfl, rfl, fun done hdone hne => ?_⟩, .inr ⟨rfl, hoff.1, hoff.2⟩⟩
    exact absurd (List.prefix_nil.1 hdone) hne
  | cons first rest =>
    obtain ⟨exit, hexit, -⟩ := run_moves c s (first :: rest)
    obtain ⟨cycles, last, hlast, hfollows, hrecords⟩ := exists_records hexit
    have hbuzzing : (s.begin.opened first).buzzing = false := hoff.buzzing
    have hbuzzer : (s.begin.opened first).buzzer.on = false := hoff.buzzer
    have hdeeds : (s.run c (first :: rest)).1.deeds = cycles.flatMap Cycle.deeds ++ last :=
      hrecords.deeds
    have hlevel := hrecords.buzzing
    rw [hbuzzing, ← hdeeds] at hlevel
    refine ⟨?_, ⟨cycles, last, hdeeds, hlast, fun done hdone hne => ?_⟩, ?_⟩
    · rw [hdeeds, ← hbuzzing]
      exact hrecords.flips
    · have hdone := hfollows done hdone hne
      rw [hbuzzing] at hdone
      rw [Buzzer.on_after, hoff.buzzer]
      exact hdone
    · rcases run_silent (List.cons_ne_nil first rest) hexit with rfl | hsilent
      · exact .inl hexit
      · refine .inr ⟨hlevel.symm.trans hsilent, hsilent, ?_⟩
        rw [hrecords.buzzer, Buzzer.on_after, hbuzzer, ← hdeeds, ← hlevel, hsilent]

/-! ### Many runs -/

theorem runs_cons (s : Session) (c : Course) (clock : Clock) (rest : List (Course × Clock)) :
    ∃ later, s.runs ((c, clock) :: rest) = ⟨c, s, (s.run c clock).1⟩ :: later ∧
      (later = [] ∨ (s.run c clock).1.phase ≠ .ended .stalled ∧
        later = (s.run c clock).1.runs rest) := by
  rw [runs]
  refine ⟨_, rfl, ?_⟩
  split
  · exact .inl rfl
  · exact .inr ⟨‹_›, rfl⟩

/-- What runs do to a buzzer that is off: it flips, follows the sound timer, and
    is off after every run that ends. -/
structure Orderly (rs : List Ran) : Prop where
  flips : Deed.Flips false (deedsOf rs)
  follows : ∀ r ∈ rs, r.Follows
  off : ∀ done r rest, rs = done ++ r :: rest → r.after.phase ≠ .ended .stalled →
    Deed.level false (deedsOf (done ++ [r])) = false ∧ r.after.Off

theorem orderly_nil : Orderly [] where
  flips := trivial
  follows := fun _ hr => absurd hr List.not_mem_nil
  off := fun done r rest h => by simp at h

/-- A run goes before others if it leaves the buzzer off, or if there are none. -/
theorem Orderly.cons {r : Ran} {rs : List Ran} (h : Orderly rs)
    (hflips : Deed.Flips false r.after.deeds) (hfollows : r.Follows)
    (hoff : r.after.phase ≠ .ended .stalled →
      Deed.level false r.after.deeds = false ∧ r.after.Off)
    (hlast : rs = [] ∨ r.after.phase ≠ .ended .stalled) : Orderly (r :: rs) where
  flips := by
    refine (Deed.flips_append _ _ _).2 ⟨hflips, ?_⟩
    rcases hlast with rfl | hended
    · exact trivial
    · rw [(hoff hended).1]
      exact h.flips
  follows := List.forall_mem_cons.2 ⟨hfollows, h.follows⟩
  off := by
    intro done q rest heq hq
    cases done with
    | nil =>
      obtain ⟨rfl, -⟩ := List.cons.inj heq
      rw [List.nil_append, deedsOf, List.flatMap_singleton]
      exact hoff hq
    | cons first done =>
      obtain ⟨rfl, rfl⟩ := List.cons.inj heq
      have hended : r.after.phase ≠ .ended .stalled := by simpa using hlast
      rw [List.cons_append, deedsOf, List.flatMap_cons, Deed.level_append, (hoff hended).1]
      exact h.off done q rest rfl hq

theorem runs_orderly (hoff : s.Off) (courses : List (Course × Clock)) :
    Orderly (s.runs courses) := by
  induction courses generalizing s with
  | nil => exact orderly_nil
  | cons next courses ih =>
    obtain ⟨c, clock⟩ := next
    obtain ⟨hflips, hfollows, hend⟩ := run_buzzer c clock hoff
    obtain ⟨later, hruns, hlater⟩ := runs_cons s c clock courses
    rw [hruns]
    rcases hlater with rfl | ⟨hended, rfl⟩
    · exact orderly_nil.cons hflips hfollows hend.resolve_left (.inl rfl)
    · exact (ih (hend.resolve_left hended).2).cons hflips hfollows hend.resolve_left (.inr hended)

/-- Over all runs of a session its buzzer is switched on and off in turn, it is on
    after a cycle if the sound timer runs, and after every run that ends it is off,
    having been switched off as often as on. -/
theorem buzzer_over_runs (m : Machine) (input : Input) (renderer : Renderer) (kind : BuzzerKind)
    (courses : List (Course × Clock)) :
    let rs := (start m input renderer ⟨kind, false⟩).runs courses
    let switches (rs : List Ran) := (deedsOf rs).filterMap Deed.switch?
    (∀ k (hk : k < (switches rs).length), (switches rs)[k] = decide (k % 2 = 0)) ∧
      (∀ r ∈ rs, r.Follows) ∧
      ∀ done r rest, rs = done ++ r :: rest → r.after.phase ≠ .ended .stalled →
        (switches (done ++ [r])).count true = (switches (done ++ [r])).count false ∧
          r.after.buzzing = false ∧ r.after.buzzer.on = false := by
  intro rs switches
  have h : Orderly rs := runs_orderly ⟨rfl, rfl⟩ courses
  refine ⟨fun k hk => ?_, h.follows, fun done r rest heq hended => ?_⟩
  · rw [h.flips.getElem k hk, Bool.false_xor]
  · obtain ⟨hlevel, hoff⟩ := h.off done r rest heq hended
    refine ⟨?_, hoff.buzzing, hoff.buzzer⟩
    have hflips := h.flips
    rw [heq, List.append_cons, deedsOf, List.flatMap_append] at hflips
    have hcount := ((Deed.flips_append _ _ _).1 hflips).1.count
    rw [← deedsOf, hlevel] at hcount
    exact hcount

end Session

end Chip8
