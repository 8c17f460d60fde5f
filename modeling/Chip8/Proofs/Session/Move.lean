import Chip8.Proofs.Session.Ticking
import Mathlib.Logic.Relation

/-!
# Moves of a session

A look at the clock leads to many things, one after the other. Taken apart, they
are *moves* of the session (`Session.Move`) from one stage of a cycle to the
next (`Session.Stage`): a poll, a key taken over, a tick, an instruction. What
every move keeps holds throughout a run.

* `observe_moves`: a look at the clock makes moves;
* `run_moves`: so does a run, from the opening up to its exit.
-/

namespace Chip8

namespace Session

/-- How far a session has come. -/
inductive Stage
  /-- The clock has not been looked at yet. -/
  | opening
  /-- A cycle may start, if the limit is not reached. -/
  | between
  /-- A cycle starts with the next look. -/
  | ready
  /-- The next cycle starts at a time. -/
  | waiting (resume : Float)
  /-- The input is to be polled, in a cycle that started at `now`. -/
  | polling (now : Float)
  /-- The input is to be asked for a key, and then for those after it. -/
  | sampling (now : Float) (key : Key)
  /-- All keys are taken over, and the picture is to be shown. -/
  | taken (now : Float)
  /-- The timers are to make up for the ticks due at `now`, and an instruction
      is to be executed. -/
  | due (now : Float)
  /-- The cycle is complete. -/
  | done (now : Float)
  | ended (exit : Exit)

/-- The clock is looked at, and may interrupt the session. -/
inductive Stage.Looks : Stage → Prop
  | ready : Looks .ready
  | waiting {resume : Float} : Looks (.waiting resume)
  | polling {now : Float} : Looks (.polling now)
  | sampling {now : Float} {key : Key} : Looks (.sampling now key)

end Session

/-- The stage that a phase notes. -/
def Phase.stage : Phase → Session.Stage
  | opening => .opening
  | ready => .ready
  | polling now => .polling now
  | sampling now key => .sampling now key
  | waiting resume => .waiting resume
  | ended exit => .ended exit

namespace Session

variable {c : Course} {clock : Clock} {r : Reading} {now time : Float} {s : Session}

/-- What a session does at a stage of a run by a clock. -/
inductive Move (c : Course) (clock : Clock) : Stage × Session → Stage × Session → Prop
  /-- The phase is noted. -/
  | note {st : Stage} {s : Session} (p : Phase) : Move c clock (st, s) (st, { s with phase := p })
  /-- Something comes in. -/
  | arrive {st : Stage} {s : Session} (arrivals : List Arrival) :
      Move c clock (st, s) (st, { s with input := arrivals.foldl Input.deliver s.input })
  /-- The first look at the clock. -/
  | start {s : Session} {r : Reading} (first : clock.head? = some r) :
      Move c clock (.opening, s)
        (.between, { s with nextTick := r.time + tickInterval, nextFrame := 0.0 }.report 0 0)
  | limit {s : Session} (reached : s.atLimit c = true) :
      Move c clock (.between, s) (.ended .finished, s.finish .finished)
  | goOn {s : Session} (below : s.atLimit c = false) : Move c clock (.between, s) (.ready, s)
  | sumUp {s : Session} (time : Float) : Move c clock (.ready, s) (.ready, s.sumUp time)
  /-- A cycle starts with a poll. -/
  | frameDue {s : Session} {r : Reading} (look : r ∈ clock) (due : s.nextFrame ≤ r.time) :
      Move c clock (.ready, s) (.polling r.time, s)
  /-- A cycle starts without a poll. -/
  | frameAhead {s : Session} {r : Reading} (look : r ∈ clock) (ahead : ¬s.nextFrame ≤ r.time) :
      Move c clock (.ready, s) (.due r.time, s)
  | quit {s : Session} {now time : Float} {input : Input} (line : LogLine)
      (poll : s.input.poll time = (input, true)) :
      Move c clock (.polling now, s)
        (.ended .quit,
          (({ s with input := input }.record (.polled true)).record (.logged line)).finish .quit)
  | ask {s : Session} {now time : Float} {input : Input} (timed : input.timed = true)
      (poll : s.input.poll time = (input, false)) :
      Move c clock (.polling now, s)
        (.sampling now 0, { s with input := input }.record (.polled false))
  | askAll {s : Session} {now time : Float} {input : Input} (untimed : input.timed = false)
      (poll : s.input.poll time = (input, false)) :
      Move c clock (.polling now, s)
        (.taken now, ({ s with input := input }.record (.polled false)).takeKeys time)
  | takeKey {s : Session} {now time : Float} {key : Key} (next : key.val + 1 < 16) :
      Move c clock (.sampling now key, s) (.sampling now ⟨key.val + 1, next⟩, s.takeKey time key)
  | takeLast {s : Session} {now time : Float} {key : Key} (last : ¬key.val + 1 < 16) :
      Move c clock (.sampling now key, s) (.taken now, s.takeKey time key)
  | frame {s : Session} {now : Float} : Move c clock (.taken now, s) (.due now, s.frame now)
  | tick {s : Session} {now : Float} (due : s.nextTick ≤ now) :
      Move c clock (.due now, s) (.due now, s.tick)
  | stall {s : Session} {now : Float} (due : ∀ n, tickTime s.nextTick n ≤ now) :
      Move c clock (.due now, s) (.ended .stalled, s)
  | step {s told : Session} {now : Float} {i : Instruction} {written : Bool}
      (ahead : ¬s.nextTick ≤ now) (result : (s.machine.step c.setup).result = .ok i)
      (drawn : (s.take (s.machine.step c.setup)).tellAll (s.machine.step c.setup).commands =
        (told, written, none)) :
      Move c clock (.due now, s) (.done now, (told.record (.stepped i)).settle)
  | fail {s : Session} {now : Float} {f : Fault} (ahead : ¬s.nextTick ≤ now)
      (result : (s.machine.step c.setup).result = .error f) :
      Move c clock (.due now, s)
        (.ended (.fault f),
          ((s.take (s.machine.step c.setup)).record (.halted f)).finish (.fault f))
  | undraw {s told : Session} {now : Float} {written : Bool} {e : RendererError}
      (display : Display Display.standardWidth Display.standardHeight)
      (drawn : (s.take (s.machine.step c.setup)).tellAll (s.machine.step c.setup).commands =
        (told, written, some e)) :
      Move c clock (.due now, s)
        (.ended (.undrawn e),
          { told with machine := { told.machine with display := display } }.finish (.undrawn e))
  | rest {s : Session} {now : Float} (uncapped : c.interval = none) :
      Move c clock (.done now, s) (.between, s)
  | wait {s : Session} {now interval : Float} (capped : c.interval = some interval) :
      Move c clock (.done now, s) (.waiting (now + interval), s)
  | wake {s : Session} {r : Reading} {resume : Float} (look : r ∈ clock)
      (late : ¬r.time < resume) : Move c clock (.waiting resume, s) (.between, s)
  | interrupt {st : Stage} {s : Session} (looks : st.Looks) :
      Move c clock (st, s) (.ended .interrupted, s.finish .interrupted)
  /-- There is no first look. -/
  | noStart {s : Session} (empty : clock = []) :
      Move c clock (.opening, s) (.ended .interrupted, s)

/-- A session makes moves, one after the other. -/
abbrev Moves (c : Course) (clock : Clock) : Stage × Session → Stage × Session → Prop :=
  Relation.ReflTransGen (Move c clock)

/-! ### A look at the clock -/

theorem next_moves : Moves c clock (.between, s) ((s.next c).phase.stage, s.next c) := by
  unfold next
  cases h : s.atLimit c with
  | true => exact .single (.limit h)
  | false => exact .head (.goOn h) (.single (.note .ready))

theorem complete_moves :
    Moves c clock (.done now, s.settle) ((s.complete c now).phase.stage, s.complete c now) := by
  unfold complete
  cases h : c.interval with
  | none => exact .head (.rest h) next_moves
  | some interval => exact .head (.wait h) (.single (.note _))

theorem execute_moves (ahead : ¬s.nextTick ≤ now) :
    Moves c clock (.due now, s) ((s.execute c now).phase.stage, s.execute c now) := by
  cases hresult : (s.machine.step c.setup).result with
  | error f =>
    simp only [execute, hresult]
    exact .single (.fail ahead hresult)
  | ok i =>
    obtain ⟨⟨told, written, problem⟩, hdrawn⟩ : ∃ told,
      (s.take (s.machine.step c.setup)).tellAll (s.machine.step c.setup).commands = told := ⟨_, rfl⟩
    cases problem with
    | none =>
      simp only [execute, hresult, hdrawn]
      exact .head (.step ahead hresult hdrawn) complete_moves
    | some e =>
      simp only [execute, hresult, hdrawn]
      exact .single (.undraw _ hdrawn)

theorem nextTick_iterate_tick (n : Nat) : (tick^[n] s).nextTick = tickTime s.nextTick n := by
  induction n generalizing s with
  | zero => rfl
  | succ n ih => exact ih

theorem tick_moves {n : Nat} (h : ∀ k < n, tickTime s.nextTick k ≤ now) :
    Moves c clock (.due now, s) (.due now, tick^[n] s) := by
  induction n with
  | zero => exact .refl
  | succ n ih =>
    rw [Function.iterate_succ_apply']
    refine .tail (ih fun k hk => h k (Nat.lt_succ_of_lt hk)) (.tick ?_)
    rw [nextTick_iterate_tick]
    exact h n (Nat.lt_succ_self n)

theorem advance_moves :
    Moves c clock (.due now, s) ((s.advance c now).phase.stage, s.advance c now) := by
  unfold advance
  cases h : s.catchUp now tickBound with
  | none => exact .head (.stall (forall_of_catchUp_eq_none h)) (.single (.note _))
  | some s' =>
    obtain ⟨n, hdue, hahead, rfl⟩ := exists_of_catchUp_eq_some h
    rw [← nextTick_iterate_tick] at hahead
    exact (tick_moves hdue).trans (execute_moves hahead)

theorem showFrame_moves :
    Moves c clock (.taken now, s) ((s.showFrame c now).phase.stage, s.showFrame c now) :=
  .head .frame advance_moves

theorem poll_moves :
    Moves c clock (.polling now, s) ((s.poll c now time).phase.stage, s.poll c now time) := by
  rcases hpoll : s.input.poll time with ⟨input, quits⟩
  cases quits with
  | true =>
    simp only [poll, hpoll, if_true]
    exact .single (.quit _ hpoll)
  | false =>
    cases htimed : input.timed with
    | true =>
      simp only [poll, hpoll, record, htimed, Bool.false_eq_true, if_false, if_true]
      exact .head (.ask htimed hpoll) (.single (.note _))
    | false =>
      simp only [poll, hpoll, record, htimed, Bool.false_eq_true, if_false]
      exact .head (.askAll htimed hpoll) showFrame_moves

theorem startCycle_moves (look : r ∈ clock) :
    Moves c clock (.ready, s) ((s.startCycle c r.time).phase.stage, s.startCycle c r.time) := by
  have hframe {s : Session} : Moves c clock (.ready, s)
      (Phase.stage (if s.nextFrame ≤ r.time then
          if s.input.timed then { s with phase := .polling r.time } else s.poll c r.time r.time
        else s.advance c r.time).phase,
        if s.nextFrame ≤ r.time then
          if s.input.timed then { s with phase := .polling r.time } else s.poll c r.time r.time
        else s.advance c r.time) := by
    split
    · refine .head (.frameDue look ‹_›) ?_
      split
      · exact .single (.note _)
      · exact poll_moves
    · exact .head (.frameAhead look ‹_›) advance_moves
  unfold startCycle
  split
  · exact .head (.sumUp r.time) hframe
  · exact hframe

theorem observe_moves (look : r ∈ clock) (first : s.phase = .opening → clock.head? = some r) :
    Moves c clock (s.phase.stage, s) ((s.observe c r).phase.stage, s.observe c r) := by
  refine .head (.arrive r.arrivals) ?_
  unfold observe
  cases h : s.phase with
  | opening => exact .head (.start (first h)) next_moves
  | ready => exact startCycle_moves look
  | polling now => exact poll_moves
  | sampling now key =>
    simp only
    split
    · exact .head (.takeKey ‹_›) (.single (.note _))
    · exact .head (.takeLast ‹_›) showFrame_moves
  | waiting resume =>
    simp only
    split
    · rw [← h]
    · exact .head (.wake look ‹_›) next_moves
  | ended exit =>
    simp only
    rw [← h]

theorem interrupt_moves (first : s.phase = .opening → clock = []) :
    Moves c clock (s.phase.stage, s) (s.interrupt.phase.stage, s.interrupt) := by
  unfold interrupt
  cases h : s.phase with
  | opening => exact .head (.noStart (first h)) (.single (.note _))
  | ready => exact .single (.interrupt .ready)
  | polling now => exact .single (.interrupt .polling)
  | sampling now key => exact .single (.interrupt .sampling)
  | waiting resume => exact .single (.interrupt .waiting)
  | ended exit =>
    simp only
    rw [← h]

/-! ### A run -/

/-- Nothing leads back to the opening. -/
theorem Moves.ne_opening {x y : Stage × Session} (h : Moves c clock x y) (hx : x.1 ≠ .opening) :
    y.1 ≠ .opening := by
  induction h with
  | refl => exact hx
  | tail _ hmove ih => cases hmove <;> first | exact ih | exact nofun

theorem observe_ne_opening (c : Course) (s : Session) (r : Reading) :
    (s.observe c r).phase ≠ .opening := by
  have hstage : (s.observe c r).phase.stage ≠ .opening := by
    by_cases h : s.phase = .opening
    · have hmoves (s : Session) : Moves c [] (.between, s) ((s.next c).phase.stage, s.next c) :=
        next_moves
      simp only [observe, h]
      exact (hmoves _).ne_opening nofun
    · have hmoves : Moves c [r] (s.phase.stage, s)
          ((s.observe c r).phase.stage, s.observe c r) :=
        observe_moves List.mem_cons_self fun e => absurd e h
      refine hmoves.ne_opening ?_
      cases hs : s.phase <;> first | exact absurd hs h | exact nofun
  intro h
  rw [h] at hstage
  exact hstage rfl

theorem phase_of_exit?_eq_some {exit : Exit} (h : s.exit? = some exit) : s.phase = .ended exit := by
  unfold exit? at h
  split at h <;> cases h
  assumption

theorem interrupt_ended (s : Session) : ∃ exit, s.interrupt.phase = .ended exit := by
  unfold interrupt
  split
  · exact ⟨_, rfl⟩
  · exact ⟨_, ‹_›⟩
  · exact ⟨_, rfl⟩

/-- Looking at the clock until the run ends makes moves up to its exit. -/
theorem drive_moves {rest : Clock} (looks : rest ⊆ clock)
    (first : s.phase = .opening → rest = clock) :
    ∃ exit, (s.drive c rest).1.phase = .ended exit ∧
      Moves c clock (s.phase.stage, s) (.ended exit, (s.drive c rest).1) := by
  induction rest generalizing s with
  | nil =>
    obtain ⟨exit, hexit⟩ := interrupt_ended s
    refine ⟨exit, hexit, ?_⟩
    have hmoves := interrupt_moves (c := c) fun h => (first h).symm
    rwa [hexit] at hmoves
  | cons r rest ih =>
    have hmoves : Moves c clock (s.phase.stage, s) ((s.observe c r).phase.stage, s.observe c r) :=
      observe_moves (looks List.mem_cons_self) fun h => first h ▸ rfl
    cases hexit : (s.observe c r).exit? with
    | some exit =>
      simp only [drive, hexit]
      rw [phase_of_exit?_eq_some hexit] at hmoves
      exact ⟨exit, phase_of_exit?_eq_some hexit, hmoves⟩
    | none =>
      obtain ⟨exit, hended, hrest⟩ := ih (s := s.observe c r)
        (fun r hr => looks (List.mem_cons_of_mem _ hr))
        fun h => absurd h (observe_ne_opening c s r)
      simp only [drive, hexit]
      exact ⟨exit, hended, hmoves.trans hrest⟩

/-- A run makes moves from the opening up to its exit. -/
theorem run_moves (c : Course) (s : Session) (clock : Clock) :
    ∃ exit, (s.run c clock).1.phase = .ended exit ∧
      Moves c clock (.opening, s.begin) (.ended exit, (s.run c clock).1) :=
  drive_moves (List.Subset.refl _) fun _ => rfl

/-- What holds at the opening and is kept by every move holds when a run ends. -/
theorem run_induction {P : Stage → Session → Prop} {exit : Exit}
    (hexit : (s.run c clock).1.phase = .ended exit) (hstart : P .opening s.begin)
    (hmove : ∀ x y, Move c clock x y → P x.1 x.2 → P y.1 y.2) :
    P (.ended exit) (s.run c clock).1 := by
  obtain ⟨exit', hexit', hmoves⟩ := run_moves c s clock
  obtain rfl : exit = exit' := Phase.ended.inj (hexit.symm.trans hexit')
  clear hexit hexit'
  suffices h : ∀ x, Moves c clock (.opening, s.begin) x → P x.1 x.2 from h _ hmoves
  intro x hx
  induction hx with
  | refl => exact hstart
  | tail _ hlast ih => exact hmove _ _ hlast ih

end Session

end Chip8
