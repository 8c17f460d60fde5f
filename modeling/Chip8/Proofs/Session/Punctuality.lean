import Chip8.Proofs.Session.Refinement
import Mathlib.Data.List.DropRight

/-!
# Ticks on time

The deadlines of the ticks of a run are `tickTime` after its first look at the
clock: the first one an interval later, and every other one an interval after the
one before. A cycle goes by the time of the look that started it
(`Session.starts`), whatever is looked at after that. By this time

* a tick is made only if its deadline has come (`Deed.Overdue`),
* and an instruction only if the deadline of the next tick has not
  (`Deed.Ahead`).

This holds of every deed, given those before it (`Deed.OnTime`), so no tick is
left out, made twice or made early (`run_punctual`), by a clock that stands
still, jumps or goes back as well.

* `Punctual`: the deeds of a session so far are on time, in a cycle that has
  started or between two;
* `Kept`: how far the session is when it looks at the clock;
* `observe_kept`: this is kept by every look.
-/

namespace Chip8

open Session (tickTime)

namespace Deed

/-- By the start of the cycle that comes after deeds, the next tick is due. -/
def Overdue (t₀ : Float) (starts : List Float) (ds : List Deed) : Prop :=
  ∃ now, starts[ds.countP returns]? = some now ∧ tickTime t₀ (ds.count .tick + 1) ≤ now

/-- By the start of the cycle that comes after deeds, the next tick is not due. -/
def Ahead (t₀ : Float) (starts : List Float) (ds : List Deed) : Prop :=
  ∃ now, starts[ds.countP returns]? = some now ∧ ¬tickTime t₀ (ds.count .tick + 1) ≤ now

/-- After other deeds, it is time for a deed. -/
def OnTime (t₀ : Float) (starts : List Float) (before : List Deed) : Deed → Prop
  | tick => Overdue t₀ starts before
  | step _ => Ahead t₀ starts before
  | poll _ | setKey _ _ | refresh | switch _ => True

/-- Every deed is on time after those before it. -/
def AllOnTime (t₀ : Float) (starts : List Float) (ds : List Deed) : Prop :=
  ∀ before d, before ++ [d] <+: ds → d.OnTime t₀ starts before

/-- The deeds since the last instruction. -/
def latest (ds : List Deed) : List Deed := ds.rtakeWhile fun d => !d.returns

/-- A deed that any time is right for. -/
def Free : Deed → Prop
  | tick | step _ => False
  | poll _ | setKey _ _ | refresh | switch _ => True

variable {t₀ : Float} {starts : List Float} {ds ds' : List Deed} {d : Deed}

theorem Free.onTime (h : d.Free) (before : List Deed) : d.OnTime t₀ starts before := by
  cases d <;> first | exact h | trivial

theorem Free.ne_tick (h : d.Free) : d ≠ tick := by
  rintro rfl
  exact h

theorem Free.returns (h : d.Free) : d.returns = false := by
  cases d <;> first | exact h.elim | rfl

theorem AllOnTime.concat (h : AllOnTime t₀ starts ds) (hd : d.OnTime t₀ starts ds) :
    AllOnTime t₀ starts (ds ++ [d]) := by
  intro before e he
  rcases List.prefix_concat_iff.1 he with he | he
  · obtain ⟨rfl, hlast⟩ := List.append_inj' he rfl
    obtain rfl := List.singleton_inj.1 hlast
    exact hd
  · exact h before e he

theorem AllOnTime.append_free (h : AllOnTime t₀ starts ds) (free : ∀ d ∈ ds', d.Free) :
    AllOnTime t₀ starts (ds ++ ds') := by
  induction ds' generalizing ds with
  | nil => rwa [List.append_nil]
  | cons d ds' ih =>
    rw [List.append_cons]
    exact ih (h.concat ((free d List.mem_cons_self).onTime ds))
      fun e he => free e (List.mem_cons_of_mem d he)

/-- A cycle that starts later makes no difference. -/
theorem AllOnTime.later (h : AllOnTime t₀ starts ds) (now : Float) :
    AllOnTime t₀ (starts ++ [now]) ds := by
  have hlater {before : List Deed} {t : Float} (ht : starts[before.countP returns]? = some t) :
      (starts ++ [now])[before.countP returns]? = some t := by
    rwa [List.getElem?_append_left (List.getElem?_eq_some_iff.1 ht).1]
  intro before d hd
  have hbefore := h before d hd
  cases d with
  | tick | step =>
    obtain ⟨t, ht, hdue⟩ := hbefore
    exact ⟨t, hlater ht, hdue⟩
  | poll | setKey | refresh | switch => trivial

/-- The latest deeds after an instruction. -/
theorem mem_switches_of_latest {i : Instruction} {on : Option Bool}
    (h : d ∈ latest (ds ++ .step (.ok i) :: switches on)) : d ∈ switches on := by
  cases on with
  | none =>
    rw [switches, latest, List.rtakeWhile_concat_neg _ _ _ Bool.false_ne_true] at h
    exact h
  | some on =>
    rw [switches, latest, List.append_cons, List.rtakeWhile_concat_pos _ _ _ rfl,
      List.rtakeWhile_concat_neg _ _ _ Bool.false_ne_true] at h
    exact h

theorem free_switches (on : Option Bool) : ∀ d ∈ switches on, d.Free := by
  cases on <;> simp [switches, Free]

theorem free_takeover (held : Key → Bool) : ∀ d ∈ takeover held, d.Free := by
  simp [takeover, Free]

theorem free_close (on : Bool) : ∀ d ∈ refresh :: silence on, d.Free :=
  List.forall_mem_cons.2 ⟨trivial, free_switches _⟩

end Deed

namespace Session

open Deed (AllOnTime Overdue Ahead Free)

/-- The time of a look that starts a cycle. -/
def start? (s : Session) (r : Reading) : Option Float :=
  match s.phase with
  | .ready => some r.time
  | _ => none

/-- The times of the looks that start the cycles of a session. -/
def starts (c : Course) (s : Session) : Clock → List Float
  | [] => []
  | r :: rest =>
    let after := s.observe c r
    (s.start? r).toList ++ match after.exit? with
      | some _ => []
      | none => after.starts c rest

variable {c : Course} {t₀ now time : Float} {ts : List Float} {now? : Option Float}
  {s s' : Session} {ds : List Deed} {exit : Exit} {clock : Clock}

/-- The deeds of a run that first looked at the clock at `t₀` are on time so far.
    Its cycles started at `ts`; all of them are complete, but for one that
    started at `now?`, if there is such a time. -/
structure Punctual (t₀ : Float) (ts : List Float) (now? : Option Float) (s : Session) :
    Prop where
  onTime : AllOnTime t₀ ts s.deeds
  cycles : s.cycles = s.deeds.countP Deed.returns
  ticks : s.nextTick = tickTime t₀ (s.deeds.count .tick + 1)
  started : ∃ complete, ts = complete ++ now?.toList ∧ complete.length = s.cycles

/-- Whatever a session accounts for, its count and its next tick are right. -/
theorem Punctual.records {last? : Option Float} (h : Punctual t₀ ts now? s)
    (records : s.Records ds s') (onTime : AllOnTime t₀ ts (s.deeds ++ ds))
    (started : ∃ complete, ts = complete ++ last?.toList ∧ complete.length = s'.cycles) :
    Punctual t₀ ts last? s' where
  onTime := by rwa [records.deeds]
  cycles := by rw [records.cycles, h.cycles, records.deeds, List.countP_append]
  ticks := by
    rw [records.ticks, h.ticks, tickTime_add, records.deeds, List.count_append]
    congr 1
    omega
  started := started

/-- Free deeds are neither counted nor do they put a tick off. -/
theorem Records.same (h : s.Records ds s') (free : ∀ d ∈ ds, d.Free) :
    s'.cycles = s.cycles ∧ s'.nextTick = s.nextTick := by
  refine ⟨?_, ?_⟩
  · rw [h.cycles, List.countP_eq_zero.2 fun d hd => ?_, Nat.add_zero]
    rw [(free d hd).returns]
    exact Bool.false_ne_true
  · rw [h.ticks, List.count_eq_zero.2 fun hd => (free _ hd).ne_tick rfl]
    rfl

theorem Punctual.free (h : Punctual t₀ ts now? s) (records : s.Records ds s')
    (free : ∀ d ∈ ds, d.Free) : Punctual t₀ ts now? s' :=
  h.records records (h.onTime.append_free free) ((records.same free).1 ▸ h.started)

theorem Punctual.note (h : Punctual t₀ ts now? s) (p : Phase) :
    Punctual t₀ ts now? { s with phase := p } :=
  ⟨h.onTime, h.cycles, h.ticks, h.started⟩

/-- The time that the cycle goes by. -/
theorem Punctual.reading (h : Punctual t₀ ts (some now) s) :
    ts[s.deeds.countP Deed.returns]? = some now := by
  obtain ⟨complete, rfl, hlength⟩ := h.started
  rw [← h.cycles, ← hlength]
  exact List.getElem?_concat_length

/-- A cycle starts. -/
theorem Punctual.begun (h : Punctual t₀ ts none s) (now : Float) :
    Punctual t₀ (ts ++ [now]) (some now) s where
  onTime := h.onTime.later now
  cycles := h.cycles
  ticks := h.ticks
  started := by
    obtain ⟨complete, hts, hlength⟩ := h.started
    exact ⟨ts, rfl, by rw [hts, Option.toList_none, List.append_nil, hlength]⟩

/-! ### At a look -/

/-- How far a session is in a phase. -/
inductive Kept (t₀ : Float) (ts : List Float) (s : Session) : Phase → Prop
  | ready (punctual : Punctual t₀ ts none s) : Kept t₀ ts s .ready
  | waiting (punctual : Punctual t₀ ts none s) (resume : Float) : Kept t₀ ts s (.waiting resume)
  | polling {now : Float} (punctual : Punctual t₀ ts (some now) s) : Kept t₀ ts s (.polling now)
  | sampling {now : Float} (punctual : Punctual t₀ ts (some now) s) (key : Key) :
      Kept t₀ ts s (.sampling now key)
  | ended {now? : Option Float} {exit : Exit} (punctual : Punctual t₀ ts now? s)
      (undrawn : ∀ e, exit = .undrawn e → ∃ now ∈ now?, ¬s.nextTick ≤ now)
      (stalled : exit = .stalled → ∃ now ∈ now?, ∀ n, tickTime s.nextTick n ≤ now) :
      Kept t₀ ts s (.ended exit)

theorem Punctual.finish (h : Punctual t₀ ts now? s) (c : Course)
    (undrawn : ∀ e, exit = .undrawn e → ∃ now ∈ now?, ¬s.nextTick ≤ now)
    (stalled : exit ≠ .stalled) : Kept t₀ ts (s.finish exit) (s.finish exit).phase := by
  have hfinish := (does_finish c s exit).toRecords
  have hfree := Deed.free_close s.buzzing
  refine .ended (h.free hfinish hfree) ?_ fun h => absurd h stalled
  rwa [(hfinish.same hfree).2]

theorem Punctual.next (h : Punctual t₀ ts none s) (c : Course) :
    Kept t₀ ts (s.next c) (s.next c).phase := by
  unfold Session.next
  split
  · exact h.finish c (by simp) (by simp)
  · exact .ready (h.note _)

theorem Punctual.tick (h : Punctual t₀ ts (some now) s) (c : Course) (due : s.nextTick ≤ now) :
    Punctual t₀ ts (some now) s.tick :=
  h.records (does_tick c s).toRecords (h.onTime.concat ⟨now, h.reading, h.ticks ▸ due⟩) h.started

/-- The session's next tick stands for the deadline after those that have been
    kept, so making up for ticks is on time, one after the other. -/
theorem Punctual.catchUp {n : Nat} (h : Punctual t₀ ts (some now) s) (c : Course)
    (due : ∀ k < n, tickTime s.nextTick k ≤ now) :
    Punctual t₀ ts (some now) (Session.tick^[n] s) := by
  induction n with
  | zero => exact h
  | succ n ih =>
    rw [Function.iterate_succ_apply']
    refine (ih fun k hk => due k (Nat.lt_succ_of_lt hk)).tick c ?_
    rw [nextTick_iterate_tick]
    exact due n (Nat.lt_succ_self n)

theorem Punctual.complete (h : Punctual t₀ ts none s.settle) (c : Course) (now : Float) :
    Kept t₀ ts (s.complete c now) (s.complete c now).phase := by
  unfold Session.complete
  split
  · exact h.next c
  · exact .waiting (h.note _) _

/-- An instruction that is executed to its end completes the cycle. -/
theorem Punctual.settle {told : Session} {i : Instruction} {written : Bool}
    (h : Punctual t₀ ts (some now) s) (ahead : ¬s.nextTick ≤ now)
    (result : (s.machine.step c.setup).result = .ok i)
    (drawn : (s.take (s.machine.step c.setup)).tellAll (s.machine.step c.setup).commands =
      (told, written, none)) :
    Punctual t₀ ts none (told.record (.stepped i)).settle := by
  have hstep := does_step result drawn
  have hsync := Deed.free_switches
    (if (s.machine.step c.setup).machine.sounding = s.buzzing then none
      else some (s.machine.step c.setup).machine.sounding)
  refine h.records hstep.toRecords ?_ ⟨ts, (List.append_nil ts).symm, ?_⟩
  · rw [List.append_cons]
    exact (h.onTime.concat (d := .step (.ok i)) ⟨now, h.reading, h.ticks ▸ ahead⟩).append_free hsync
  · obtain ⟨complete, rfl, hlength⟩ := h.started
    rw [hstep.cycles, List.countP_cons_of_pos rfl, Deed.sync, countP_switches, ← hlength]
    exact List.length_append

/-- An instruction is executed, or fails, when the next tick is not due. -/
theorem Punctual.execute (h : Punctual t₀ ts (some now) s) (c : Course)
    (ahead : ¬s.nextTick ≤ now) : Kept t₀ ts (s.execute c now) (s.execute c now).phase := by
  cases hresult : (s.machine.step c.setup).result with
  | error f =>
    have hfault := h.onTime.concat (d := .step (.error f)) ⟨now, h.reading, h.ticks ▸ ahead⟩
    simp only [Session.execute, hresult]
    exact (h.records (does_fail hresult).toRecords hfault h.started).finish c (by simp) (by simp)
  | ok i =>
    obtain ⟨⟨told, written, problem⟩, hdrawn⟩ : ∃ told,
      (s.take (s.machine.step c.setup)).tellAll (s.machine.step c.setup).commands = told := ⟨_, rfl⟩
    cases problem with
    | none =>
      simp only [Session.execute, hresult, hdrawn]
      exact (h.settle ahead hresult hdrawn).complete c now
    | some e =>
      simp only [Session.execute, hresult, hdrawn]
      -- No deed records a step that is not drawn, but the time for it had come.
      have hrecords := fun display => (records_undraw hdrawn display).1
      refine (h.free (hrecords _) (List.forall_mem_nil _)).finish c ?_ (by simp)
      rw [(hrecords _).ticks]
      exact fun _ _ => ⟨now, rfl, ahead⟩

theorem Punctual.advance (h : Punctual t₀ ts (some now) s) (c : Course) :
    Kept t₀ ts (s.advance c now) (s.advance c now).phase := by
  unfold Session.advance
  cases hcatch : s.catchUp now tickBound with
  | none =>
    have hdue := forall_of_catchUp_eq_none hcatch
    exact .ended (h.note _) (by simp) fun _ => ⟨now, rfl, hdue⟩
  | some s' =>
    obtain ⟨n, hdue, hahead, rfl⟩ := exists_of_catchUp_eq_some hcatch
    rw [← nextTick_iterate_tick] at hahead
    exact (h.catchUp c hdue).execute c hahead

theorem Punctual.showFrame (h : Punctual t₀ ts (some now) s) (c : Course) :
    Kept t₀ ts (s.showFrame c now) (s.showFrame c now).phase :=
  (h.free (does_frame c s now).toRecords (by simp [Free])).advance c

theorem Punctual.poll (h : Punctual t₀ ts (some now) s) (c : Course) (time : Float) :
    Kept t₀ ts (s.poll c now time) (s.poll c now time).phase := by
  rcases hpoll : s.input.poll time with ⟨input, quits⟩
  have hpolled := h.free (does_poll c hpoll).toRecords (by simp [Free])
  cases quits with
  | true =>
    simp only [Session.poll, hpoll, if_true]
    exact (hpolled.free (does_log c _ _).toRecords (List.forall_mem_nil _)).finish c
      (by simp) (by simp)
  | false =>
    simp only [Session.poll, hpoll, Bool.false_eq_true, if_false]
    split
    · exact .sampling (hpolled.note _) 0
    · exact (hpolled.free (does_takeKeys c _ time).toRecords (Deed.free_takeover _)).showFrame c

theorem Punctual.startCycle (h : Punctual t₀ ts none s) (c : Course) (now : Float) :
    Kept t₀ (ts ++ [now]) (s.startCycle c now) (s.startCycle c now).phase := by
  have hframe {s : Session} (h : Punctual t₀ (ts ++ [now]) (some now) s) :
      Kept t₀ (ts ++ [now])
        (if s.nextFrame ≤ now then
          if s.input.timed then { s with phase := .polling now } else s.poll c now now
        else s.advance c now)
        (Session.phase (if s.nextFrame ≤ now then
          if s.input.timed then { s with phase := .polling now } else s.poll c now now
        else s.advance c now)) := by
    split
    · split
      · exact .polling (h.note _)
      · exact h.poll c now
    · exact h.advance c
  unfold Session.startCycle
  split
  · have hsummed : s.Records [] (s.sumUp now) :=
      { (does_report c s s.frames s.operations).toRecords with }
    exact hframe ((h.begun now).free hsummed (List.forall_mem_nil _))
  · exact hframe (h.begun now)

/-- A session is kept by a look, which may start a cycle. -/
theorem observe_kept (c : Course) (r : Reading) (h : Kept t₀ ts s s.phase) :
    Kept t₀ (ts ++ (s.start? r).toList) (s.observe c r) (s.observe c r).phase := by
  generalize hphase : s.phase = p at h
  have harrive {now? : Option Float} (punctual : Punctual t₀ ts now? s) :
      Punctual t₀ ts now?
        { s with input := r.arrivals.foldl Input.deliver s.input, phase := p } :=
    (punctual.free (does_arrive c s r.arrivals).toRecords (List.forall_mem_nil _)).note p
  cases h with
  | ready punctual =>
    simp only [observe, start?, hphase]
    exact (harrive punctual).startCycle c r.time
  | polling punctual =>
    simp only [observe, start?, hphase, Option.toList_none, List.append_nil]
    exact (harrive punctual).poll c r.time
  | sampling punctual key =>
    have htaken := (harrive punctual).free (does_takeKey c _ r.time key).toRecords (by simp [Free])
    simp only [observe, start?, hphase, Option.toList_none, List.append_nil]
    split
    · exact .sampling (htaken.note _) _
    · exact htaken.showFrame c
  | waiting punctual resume =>
    simp only [observe, start?, hphase, Option.toList_none, List.append_nil]
    split
    · exact .waiting (harrive punctual) resume
    · exact (harrive punctual).next c
  | ended punctual undrawn stalled =>
    simp only [observe, start?, hphase, Option.toList_none, List.append_nil]
    exact .ended (harrive punctual) undrawn stalled

theorem interrupt_kept (c : Course) (h : Kept t₀ ts s s.phase) :
    Kept t₀ ts s.interrupt s.interrupt.phase := by
  generalize hphase : s.phase = p at h
  cases h with
  | ready punctual | polling punctual | sampling punctual | waiting punctual =>
    simp only [interrupt, hphase]
    exact punctual.finish c (by simp) (by simp)
  | ended punctual undrawn stalled =>
    simp only [interrupt, hphase]
    exact .ended punctual undrawn stalled

/-! ### Runs -/

theorem drive_kept (c : Course) (h : Kept t₀ ts s s.phase) (clock : Clock) :
    Kept t₀ (ts ++ s.starts c clock) (s.drive c clock).1 (s.drive c clock).1.phase := by
  induction clock generalizing ts s with
  | nil =>
    rw [starts, List.append_nil]
    exact interrupt_kept c h
  | cons r rest ih =>
    -- This look adds to the cycles that have started, and the rest goes on from there.
    have hlook := observe_kept c r h
    rw [starts, ← List.append_assoc, drive]
    cases hexit : (s.observe c r).exit? with
    | some exit =>
      simp only [List.append_nil]
      exact hlook
    | none => exact ih hlook

/-- Before the first cycle of a run, the first tick is due an interval after the
    first look. -/
theorem opened_kept (c : Course) (s : Session) (first : Reading) :
    Kept first.time [] (s.begin.observe c first) (s.begin.observe c first).phase := by
  have hopened : Punctual first.time [] none (s.begin.opened first) :=
    ⟨fun _ _ h => by simp [deeds, opened, begin] at h, rfl, rfl, [], rfl, rfl⟩
  have harrive := hopened.free (does_arrive c _ first.arrivals).toRecords (List.forall_mem_nil _)
  exact (harrive.free (does_report c _ 0 0).toRecords (List.forall_mem_nil _)).next c

theorem run_kept (c : Course) (s : Session) (first : Reading) (rest : Clock) :
    Kept first.time (s.begin.starts c (first :: rest)) (s.run c (first :: rest)).1
      (s.run c (first :: rest)).1.phase := by
  have hopened := opened_kept c s first
  rw [run, starts, drive]
  cases hexit : (s.begin.observe c first).exit? with
  | some exit => exact hopened
  | none => exact drive_kept c hopened rest

/-! ### Quitting -/

theorem Lead.quit_notMem (l : Lead) : .poll true ∉ l.deeds := by
  obtain ⟨poll, ticks⟩ := l
  cases poll <;> simp [Lead.deeds, Lead.shown, Deed.takeover]

theorem quit_notMem_cycles (cycles : List Cycle) : .poll true ∉ cycles.flatMap Cycle.deeds := by
  intro h
  obtain ⟨b, -, hb⟩ := List.mem_flatMap.1 h
  rcases List.mem_append.1 hb with hb | hb
  · exact b.toLead.quit_notMem hb
  · rcases hswitch : b.switch with _ | on <;> simp [hswitch, Deed.switches] at hb

theorem Unfinished.eq_quit {timed : Bool} (h : Unfinished timed exit ds) :
    ds = [.poll true] ∨ .poll true ∉ ds := by
  cases h with
  | finished | interrupted => exact .inr List.not_mem_nil
  | quit => exact .inl rfl
  | fault l f => exact .inr (by simp [l.quit_notMem])
  | asking held count clocked few =>
    refine .inr fun h => ?_
    rcases List.mem_cons.1 h with h | h
    · exact nomatch h
    · simpa [Deed.takeover] using List.mem_of_mem_take h

/-- After the instruction of a cycle there is nothing but the buzzer. -/
theorem tick_notMem_latest (cycles : List Cycle) :
    .tick ∉ Deed.latest (cycles.flatMap Cycle.deeds) := by
  obtain rfl | ⟨earlier, b, rfl⟩ := List.eq_nil_or_concat cycles
  · exact List.not_mem_nil
  · rw [List.concat_eq_append, List.flatMap_append, List.flatMap_singleton, Cycle.deeds,
      ← List.append_assoc]
    exact fun h => (Deed.free_switches b.switch _ (Deed.mem_switches_of_latest h)).ne_tick rfl

/-- A poll that asks to quit is the only deed of its cycle. -/
theorem quit_of_accounted {first : Reading} {s₀ : Session} {before later : List Deed}
    (h : Accounted c first s₀ (.ended exit) s) (begun : s₀.deeds = [])
    (hquit : s.deeds = before ++ .poll true :: later) :
    .tick ∉ Deed.latest before ∧ .tick ∉ later := by
  have hmem : .poll true ∈ s.deeds := hquit ▸ List.mem_append_right _ List.mem_cons_self
  have hdeeds {ds : List Deed} (records : (s₀.opened first).Records ds s) : s.deeds = ds :=
    records.deeds.trans (congrArg (· ++ ds) begun)
  cases h with
  | @undrawn _ _ cycles l on window follows records =>
    rw [hdeeds records] at hmem
    have hlead := List.not_mem_append (quit_notMem_cycles cycles) l.quit_notMem
    exact absurd hmem (List.not_mem_append hlead (Deed.poll_notMem_close true on))
  | @«at» _ _ cycles _ account stage =>
    have hcycles := quit_notMem_cycles cycles
    rw [hdeeds account.does.toRecords] at hmem hquit
    cases stage with
    | stalled l => exact absurd hmem (List.not_mem_append hcycles l.quit_notMem)
    | ended last on =>
      have hclose := Deed.poll_notMem_close true on
      rcases last.eq_quit with rfl | hlast
      · -- The quitting poll stands between the cycles and the end of the run.
        rw [List.singleton_append] at hquit
        obtain ⟨rfl, -, rfl⟩ := (List.append_cons_inj_of_notMem hcycles hclose).1 hquit
        exact ⟨tick_notMem_latest cycles, fun h => (Deed.free_close on _ h).ne_tick rfl⟩
      · exact absurd hmem (List.not_mem_append hcycles (List.not_mem_append hlast hclose))

/-! ### Ticks on time -/

theorem starts_sublist (c : Course) (s : Session) (clock : Clock) :
    (s.starts c clock).Sublist (clock.map Reading.time) := by
  induction clock generalizing s with
  | nil => exact .slnil
  | cons r rest ih =>
    have hlook : (s.start? r).toList.Sublist [r.time] := by
      unfold start?
      split
      · exact .refl _
      · exact List.nil_sublist _
    refine hlook.append ?_
    split
    · exact List.nil_sublist _
    · exact ih _

/-- The first look of a run starts no cycle. -/
theorem starts_begin_sublist (c : Course) (s : Session) (first : Reading) (rest : Clock) :
    (s.begin.starts c (first :: rest)).Sublist (rest.map Reading.time) := by
  rw [starts]
  split
  · exact List.nil_sublist _
  · exact starts_sublist c _ rest

theorem Punctual.length (h : Punctual t₀ ts now? s) :
    ts.length = s.cycles ∨ ts.length = s.cycles + 1 := by
  obtain ⟨complete, rfl, hlength⟩ := h.started
  cases now? <;> simp [hlength]

theorem Punctual.ahead (h : Punctual t₀ ts now? s) (hnow : now ∈ now?) (ahead : ¬s.nextTick ≤ now) :
    Ahead t₀ ts s.deeds := by
  obtain rfl := Option.mem_def.1 hnow
  exact ⟨now, h.reading, h.ticks ▸ ahead⟩

/-- Runs make up for their ticks, by any clock. A cycle goes by the time of the
    look that started it, and there is such a look for every instruction that is
    executed. By this time
    * a tick that is made is due, and the next tick is not due when an
      instruction is executed, fails, or cannot be drawn;
    * if the run stalls, then all ticks to come are due.
    A cycle in which the input asks to quit makes no tick. -/
theorem run_punctual (c : Course) (s : Session) (first : Reading) (rest : Clock) :
    let after := (s.run c (first :: rest)).1
    let starts := s.begin.starts c (first :: rest)
    starts.Sublist (rest.map Reading.time) ∧
    (starts.length = after.cycles ∨ starts.length = after.cycles + 1) ∧
    (∀ before d, before ++ [d] <+: after.deeds → d.OnTime first.time starts before) ∧
    (∀ e, after.exit? = some (.undrawn e) → Ahead first.time starts after.deeds) ∧
    (after.exit? = some .stalled → ∃ now, starts[after.cycles]? = some now ∧
      ∀ k > after.deeds.count .tick, tickTime first.time k ≤ now) ∧
    ∀ before later, after.deeds = before ++ .poll true :: later →
      .tick ∉ Deed.latest before ∧ .tick ∉ later := by
  intro after starts
  have hkept : Kept first.time starts after after.phase := run_kept c s first rest
  obtain ⟨exit, hexit, -⟩ := run_moves c s (first :: rest)
  have hquit (before later : List Deed) (h : after.deeds = before ++ .poll true :: later) :=
    quit_of_accounted (run_accounted hexit) rfl h
  have hexit : after.phase = .ended exit := hexit
  rw [hexit] at hkept
  cases hkept with | @ended now? _ punctual undrawn stalled =>
  refine ⟨starts_begin_sublist c s first rest, punctual.length, punctual.onTime, fun e he => ?_,
    fun h => ?_, hquit⟩
  · have := Phase.ended.inj (hexit.symm.trans (phase_of_exit?_eq_some he))
    obtain ⟨now, hnow, hahead⟩ := undrawn e this
    exact punctual.ahead hnow hahead
  · have := Phase.ended.inj (hexit.symm.trans (phase_of_exit?_eq_some h))
    obtain ⟨now, hnow, hdue⟩ := stalled this
    obtain rfl := Option.mem_def.1 hnow
    refine ⟨now, punctual.cycles ▸ punctual.reading, fun k hk => ?_⟩
    obtain ⟨n, rfl⟩ := Nat.exists_eq_add_of_le' hk
    rw [← tickTime_add, ← punctual.ticks]
    exact hdue n

end Session

end Chip8
