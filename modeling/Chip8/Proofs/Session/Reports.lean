import Chip8.Proofs.Session.Buzzing
import Mathlib.Algebra.GroupWithZero.Nat

/-!
# Reports add up

A session counts the pictures that it shows at polls and the instructions that it
executes. Once in a while it reports both in its title and counts anew, and it reports
nothing at the start of every run. What it has counted by the end of a run is reported
in a later one. So over all runs of a session, whichever way they end, the reports and
the counts that are left add up to what was done (`reports_conserve`).

* `Performance.title_injective`: a title tells its two numbers;
* `Quiet`, `Tallies`: what a session reports and counts with its deeds;
* `Tally`: the account of a run, kept by every move;
* `polls_of_run`: the keys are all taken over at a poll, unless an interrupt cuts it off.
-/

namespace Chip8

/-! ### Titles -/

/-- What a title reports of a session. -/
structure Performance where
  /-- Pictures shown. -/
  frames : Nat
  /-- Instructions executed. -/
  operations : Nat

namespace Performance

/-- The title that a report sets. -/
def title (p : Performance) : String :=
  Product.name ++ " - " ++ toString p.frames ++ " FPS, " ++ toString p.operations ++ " OPS"

/-- A number ends where a blank follows its digits. -/
theorem toString_append_inj {n n' : Nat} {rest rest' : List Char}
    (h : (toString n).toList ++ ' ' :: rest = (toString n').toList ++ ' ' :: rest') :
    n = n' ∧ rest = rest' := by
  have hdigits (n : Nat) (rest : List Char) :
      ((toString n).toList ++ ' ' :: rest).takeWhile Char.isDigit = Nat.toDigits 10 n := by
    rw [Nat.toString_eq_repr, Nat.toList_repr, List.takeWhile_append_of_pos,
      List.takeWhile_cons_of_neg (by decide), List.append_nil]
    exact fun c hc => Nat.isDigit_of_mem_toDigits (by decide) (by decide) hc
  have hsame := congrArg (List.takeWhile Char.isDigit) h
  rw [hdigits, hdigits] at hsame
  have hn := congrArg (Nat.ofDigitChars 10 · 0) hsame
  simp only [Nat.ofDigitChars_ten_toDigits] at hn
  subst hn
  exact ⟨rfl, (List.cons.inj (List.append_cancel_left h)).2⟩

theorem toList_title (p : Performance) :
    p.title.toList = (Product.name ++ " - ").toList ++
      ((toString p.frames).toList ++ ' ' :: ("FPS, ".toList ++
        ((toString p.operations).toList ++ ' ' :: "OPS".toList))) := by
  simp only [title, String.toList_append, List.append_assoc]
  rfl

theorem title_injective : Function.Injective title := by
  intro p p' h
  have h := congrArg String.toList h
  rw [toList_title, toList_title] at h
  obtain ⟨hframes, hrest⟩ := toString_append_inj (List.append_cancel_left h)
  obtain ⟨hoperations, -⟩ := toString_append_inj (List.append_cancel_left hrest)
  cases p
  cases p'
  exact congrArg₂ Performance.mk hframes hoperations

end Performance

/-- The title that an event sets, if it sets one. -/
def SessionEvent.title? : SessionEvent → Option String
  | told (.title text) => some text
  | _ => none

/-- The last of the keys is taken over. -/
def Deed.takesLast : Deed → Bool
  | setKey key _ => key.val = 15
  | _ => false

namespace Session

variable {c : Course} {clock : Clock} {s s' s'' before : Session} {ds ds' : List Deed}
  {reports reports' : List Performance} {shown : Nat} {exit : Exit}

/-- The titles that a session has set in a run, in the order in which it set them. -/
def titles (s : Session) : List String :=
  s.events.reverse.filterMap SessionEvent.title?

theorem titles_recordAll (s : Session) (es : List SessionEvent) :
    (s.recordAll es).titles = s.titles ++ es.filterMap SessionEvent.title? :=
  s.filterMap_recordAll SessionEvent.title? es

/-! ### What reports nothing -/

/-- No title is set, and nothing is counted. -/
structure Quiet (s s' : Session) : Prop where
  titles : s'.titles = s.titles
  frames : s'.frames = s.frames
  operations : s'.operations = s.operations

theorem Quiet.refl (s : Session) : Quiet s s := ⟨rfl, rfl, rfl⟩

theorem Quiet.trans (h : Quiet s s') (h' : Quiet s' s'') : Quiet s s'' :=
  ⟨h'.titles.trans h.titles, h'.frames.trans h.frames, h'.operations.trans h.operations⟩

theorem quiet_recordAll (es : List SessionEvent) (h : es.filterMap SessionEvent.title? = []) :
    Quiet s (s.recordAll es) :=
  ⟨by rw [titles_recordAll, h, List.append_nil], rfl, rfl⟩

theorem quiet_record {e : SessionEvent} (h : e.title? = none) : Quiet s (s.record e) :=
  quiet_recordAll [e] (by rw [List.filterMap_cons, h, List.filterMap_nil])

/-- An event that sets no title, with the calls that come with it. -/
theorem quiet_recordCalls {e : SessionEvent} (h : e.title? = none) (calls : List HostCall) :
    Quiet s (s.recordAll (e :: calls.map .called)) :=
  quiet_recordAll _ (by rw [List.filterMap_cons, h, filterMap_unseen fun _ => rfl])

theorem quiet_tellAll {commands : List RenderCommand}
    (h : ∀ command ∈ commands, (SessionEvent.told command).title? = none) :
    Quiet s (s.tellAll commands).1 := by
  induction commands generalizing s with
  | nil => exact .refl s
  | cons command commands ih =>
    obtain ⟨hfirst, hrest⟩ := List.forall_mem_cons.1 h
    cases hhandle : s.renderer.handle command with
    | error e =>
      simp only [tellAll, tell, hhandle]
      exact .refl s
    | ok told =>
      simp only [tellAll, tell, hhandle]
      refine Quiet.trans ?_ (ih hrest)
      exact { quiet_recordCalls (s := s) hfirst told.2 with }

theorem quiet_refresh (s : Session) : Quiet s s.refresh := by
  have hcommand : ∀ command ∈ s.machine.display.refresh.commands,
      (SessionEvent.told command).title? = none := by
    intro command hmem
    rw [List.mem_singleton.1 hmem]
    rfl
  exact { quiet_tellAll hcommand with }

theorem quiet_switch (s : Session) (on : Bool) : Quiet s (s.switch on) :=
  { quiet_recordCalls (s := s) (e := .switched on) rfl (s.buzzer.switch on).2 with }

theorem quiet_syncBuzzer (s : Session) : Quiet s s.syncBuzzer := by
  unfold syncBuzzer
  split
  · exact .refl s
  · exact quiet_switch s _

theorem quiet_finish (s : Session) (exit : Exit) : Quiet s (s.finish exit) := by
  suffices h : Quiet s (if s.refresh.buzzing then s.refresh.switch false else s.refresh) from
    { h with }
  split
  · exact (quiet_refresh s).trans (quiet_switch _ false)
  · exact quiet_refresh s

theorem quiet_takeKey (s : Session) (time : Float) (key : Key) : Quiet s (s.takeKey time key) :=
  { quiet_record (s := s) (e := .keySet key (s.input.isHeld time key)) rfl with }

theorem quiet_takeKeys (s : Session) (time : Float) : Quiet s (s.takeKeys time) := by
  unfold takeKeys
  induction List.finRange 16 generalizing s with
  | nil => exact .refl s
  | cons key keys ih => exact (quiet_takeKey s time key).trans (ih _)

theorem quiet_take (s : Session) (result : StepResult) : Quiet s (s.take result) :=
  { quiet_recordAll (s := s) _ (filterMap_unseen (fun _ => rfl) result.log) with }

/-- Drawing what an instruction draws. -/
theorem quiet_draw (setup : Setup) (s : Session) :
    Quiet s ((s.take (s.machine.step setup)).tellAll (s.machine.step setup).commands).1 := by
  refine (quiet_take s _).trans (quiet_tellAll fun command hmem => ?_)
  obtain ⟨x, y, lit, rfl⟩ := Machine.isPixel_step setup s.machine command hmem
  rfl

/-! ### What is reported and counted -/

/-- With deeds a session makes reports, and counts the pictures shown at polls and the
    instructions executed. What it reports it does not have to report any more. -/
structure Tallies (s : Session) (reports : List Performance) (shown : Nat) (ds : List Deed)
    (s' : Session) : Prop where
  deeds : s'.deeds = s.deeds ++ ds
  titles : s'.titles = s.titles ++ reports.map Performance.title
  frames : (reports.map Performance.frames).sum + s'.frames = s.frames + shown
  operations : (reports.map Performance.operations).sum + s'.operations =
    s.operations + ds.countP Deed.returns

/-- Deeds that complete no instruction are not counted. -/
theorem Quiet.tallies (h : Quiet s s') (records : s.Records ds s')
    (hreturns : ds.countP Deed.returns = 0) : s.Tallies [] 0 ds s' where
  deeds := records.deeds
  titles := h.titles.trans (List.append_nil _).symm
  frames := (Nat.zero_add _).trans h.frames
  operations := by
    rw [hreturns]
    exact (Nat.zero_add _).trans h.operations

/-- A report is made in the title, whatever renderer shows it. -/
theorem titles_report (s : Session) (frames operations : Nat) :
    (s.report frames operations).titles =
        s.titles ++ [Performance.title ⟨frames, operations⟩] ∧
      (s.report frames operations).frames = s.frames ∧
      (s.report frames operations).operations = s.operations := by
  let text := Performance.title ⟨frames, operations⟩
  have hcommand : ¬(RenderCommand.title text).IsPixel := nofun
  obtain ⟨renderer, calls, htell, -⟩ := s.exists_tell hcommand
  have hreport : s.report frames operations = _ := congrArg Prod.fst htell
  rw [hreport, titles_recordAll, List.filterMap_cons,
    filterMap_unseen fun _ => rfl]
  exact ⟨rfl, rfl, rfl⟩

/-- A run starts with a report of nothing. -/
theorem tallies_report (c : Course) (s : Session) :
    s.Tallies [⟨0, 0⟩] 0 [] (s.report 0 0) := by
  obtain ⟨htitles, hframes, hoperations⟩ := titles_report s 0 0
  exact ⟨(does_report c s 0 0).deeds, htitles, (Nat.zero_add _).trans hframes,
    (Nat.zero_add _).trans hoperations⟩

/-- What is summed up is all that was left to report. -/
theorem tallies_sumUp (c : Course) (s : Session) (now : Float) :
    s.Tallies [⟨s.frames, s.operations⟩] 0 [] (s.sumUp now) :=
  ⟨(does_report c s s.frames s.operations).deeds, (titles_report s s.frames s.operations).1,
    rfl, rfl⟩

theorem tallies_frame (c : Course) (s : Session) (now : Float) :
    s.Tallies [] 1 [.refresh] (s.frame now) := by
  have hshown := quiet_refresh { s with nextFrame := now + frameInterval }
  exact ⟨(does_frame c s now).deeds, hshown.titles.trans (List.append_nil _).symm,
    (Nat.zero_add _).trans (congrArg (· + 1) hshown.frames),
    (Nat.zero_add _).trans hshown.operations⟩

theorem tallies_step {told : Session} {i : Instruction} {written : Bool}
    (result : (s.machine.step c.setup).result = .ok i)
    (drawn : (s.take (s.machine.step c.setup)).tellAll (s.machine.step c.setup).commands =
      (told, written, none)) :
    s.Tallies [] 0
      (.step (.ok i) :: Deed.sync s.buzzing (s.machine.step c.setup).machine.sounding)
      (told.record (.stepped i)).settle := by
  have hdrawn := quiet_draw c.setup s
  rw [drawn] at hdrawn
  have hstepped : Quiet s (told.record (.stepped i)).syncBuzzer :=
    (hdrawn.trans (quiet_record rfl)).trans (quiet_syncBuzzer _)
  refine ⟨(does_step result drawn).deeds, hstepped.titles.trans (List.append_nil _).symm,
    (Nat.zero_add _).trans hstepped.frames, ?_⟩
  rw [List.countP_cons_of_pos rfl, Deed.sync, countP_switches]
  exact (Nat.zero_add _).trans (congrArg (· + 1) hstepped.operations)

/-! ### The account of a run -/

/-- The pictures still to be shown at a stage, for keys that are all taken over. -/
def Stage.unshown : Stage → Nat
  | .taken _ => 1
  | _ => 0

theorem Stage.Looks.unshown {st : Stage} (h : st.Looks) : st.unshown = 0 := by
  cases h <;> rfl

theorem takesLast_switches (on : Option Bool) : (Deed.switches on).countP Deed.takesLast = 0 := by
  cases on <;> rfl

theorem takesLast_close (on : Bool) :
    (.refresh :: Deed.silence on : List Deed).countP Deed.takesLast = 0 :=
  takesLast_switches _

theorem takesLast_takeover (held : Key → Bool) :
    (Deed.takeover held).countP Deed.takesLast = 1 := by
  simp [Deed.takeover, List.countP_map, Function.comp_def, Deed.takesLast]
  decide

/-- The account of a run, from the counts before it: the reports are those of its titles,
    and with the counts that are left they add up to its instructions and pictures. -/
structure Tally (before : Session) (st : Stage) (reports : List Performance) (s : Session) :
    Prop where
  titles : s.titles = reports.map Performance.title
  frames : (reports.map Performance.frames).sum + s.frames + st.unshown =
    before.frames + s.deeds.countP Deed.takesLast
  operations : (reports.map Performance.operations).sum + s.operations =
    before.operations + s.deeds.countP Deed.returns

theorem Tally.trans {st st' : Stage} (h : Tally before st reports s)
    (h' : s.Tallies reports' shown ds s')
    (hshown : st.unshown + ds.countP Deed.takesLast = shown + st'.unshown) :
    Tally before st' (reports ++ reports') s' where
  titles := by rw [h'.titles, h.titles, List.map_append]
  frames := by
    have := h.frames
    have := h'.frames
    rw [h'.deeds, List.map_append, List.sum_append, List.countP_append]
    omega
  operations := by
    have := h.operations
    have := h'.operations
    rw [h'.deeds, List.map_append, List.sum_append, List.countP_append]
    omega

/-- What reports nothing is accounted for by its deeds. -/
theorem Tally.quiet {st st' : Stage} (h : Tally before st reports s) (hquiet : Quiet s s')
    (records : s.Records ds s') (hreturns : ds.countP Deed.returns = 0)
    (hshown : st.unshown + ds.countP Deed.takesLast = st'.unshown) :
    Tally before st' reports s' := by
  have := h.trans (hquiet.tallies records hreturns) (hshown.trans (Nat.zero_add _).symm)
  rwa [List.append_nil] at this

theorem Tally.idle {st : Stage} (h : Tally before st reports s) (hquiet : Quiet s s')
    (records : s.Records ds s') (hreturns : ds.countP Deed.returns = 0)
    (htakes : ds.countP Deed.takesLast = 0) : Tally before st reports s' :=
  h.quiet hquiet records hreturns (by rw [htakes, Nat.add_zero])

/-- The last picture of a run is not counted. -/
theorem Tally.finish {st : Stage} (c : Course) (h : Tally before st reports s)
    (hshown : st.unshown = 0) (exit : Exit) :
    Tally before (.ended exit) reports (s.finish exit) := by
  refine h.quiet (quiet_finish s exit) (does_finish c s exit).toRecords (countP_close _) ?_
  rw [hshown, takesLast_close]
  rfl

theorem Tally.poll {st : Stage} {time : Float} {input : Input} {quits : Bool} (c : Course)
    (h : Tally before st reports s) (hpoll : s.input.poll time = (input, quits)) :
    Tally before st reports ({ s with input := input }.record (.polled quits)) :=
  h.idle { quiet_record (s := s) (e := .polled quits) rfl with }
    (does_poll c hpoll).toRecords rfl rfl

/-- What a move reports and counts is accounted for. The picture of a poll is counted once
    the keys are taken over and it is shown. -/
theorem tally_move {st : Stage} {y : Stage × Session} (h : Move c clock (st, s) y)
    (hs : Tally before st reports s) : ∃ reports', Tally before y.1 reports' y.2 := by
  cases h with
  | note p => exact ⟨_, { hs with }⟩
  | arrive arrivals =>
    exact ⟨_, hs.idle { Quiet.refl s with } (does_arrive c s arrivals).toRecords rfl rfl⟩
  | @start _ r first =>
    have hopened : Tally before .opening reports
        { s with nextTick := r.time + tickInterval, nextFrame := 0.0 } := { hs with }
    exact ⟨_, hopened.trans (tallies_report c _) rfl⟩
  | sumUp time => exact ⟨_, hs.trans (tallies_sumUp c s time) rfl⟩
  | frame => exact ⟨_, hs.trans (tallies_frame c s _) rfl⟩
  | step ahead result drawn =>
    exact ⟨_, hs.trans (tallies_step result drawn) (congrArg (0 + ·) (takesLast_switches _))⟩
  | limit reached => exact ⟨_, hs.finish c rfl _⟩
  | quit line poll =>
    have hlogged := (hs.poll c poll).idle (quiet_record rfl) (does_log c _ line).toRecords rfl rfl
    exact ⟨_, hlogged.finish c rfl _⟩
  | ask timed poll => exact ⟨_, { hs.poll c poll with }⟩
  | askAll untimed poll =>
    refine ⟨_, (hs.poll c poll).quiet (quiet_takeKeys _ _) (does_takeKeys c _ _).toRecords
      (countP_takeover _) ?_⟩
    rw [takesLast_takeover]
    rfl
  | @takeKey _ now time key next =>
    refine ⟨_, hs.quiet (quiet_takeKey s time key) (does_takeKey c s time key).toRecords rfl ?_⟩
    have hkey : key.val ≠ 15 := by omega
    simp [Stage.unshown, Deed.takesLast, hkey]
  | @takeLast _ now time key last =>
    refine ⟨_, hs.quiet (quiet_takeKey s time key) (does_takeKey c s time key).toRecords rfl ?_⟩
    have hkey : key.val = 15 := by omega
    simp [Stage.unshown, Deed.takesLast, hkey]
  | tick due =>
    exact ⟨_, hs.idle { quiet_record (s := s) (e := .ticked) rfl with }
      (does_tick c s).toRecords rfl rfl⟩
  | fail ahead result =>
    have hfailed := hs.idle ((quiet_take s _).trans (quiet_record rfl))
      (does_fail result).toRecords rfl rfl
    exact ⟨_, hfailed.finish c rfl _⟩
  | undraw display drawn =>
    have hquiet := quiet_draw c.setup s
    rw [drawn] at hquiet
    obtain ⟨records, -⟩ := records_undraw drawn display
    refine ⟨_, (hs.idle ?_ records rfl rfl).finish c rfl _⟩
    exact { hquiet with }
  | interrupt looks => exact ⟨_, hs.finish c looks.unshown _⟩
  | goOn | frameDue | frameAhead | stall | rest | wait | wake | noStart =>
    exact ⟨_, { hs with }⟩

/-- At the end of a run its reports and counts add up. -/
theorem run_tally (hexit : (s.run c clock).1.phase = .ended exit) :
    ∃ reports, Tally s (.ended exit) reports (s.run c clock).1 :=
  run_induction (P := fun st s' => ∃ reports, Tally s st reports s') hexit
    ⟨[], rfl, Nat.zero_add s.frames, Nat.zero_add s.operations⟩
    fun _ _ hmove ⟨_, h⟩ => tally_move hmove h

/-! ### Polls -/

/-- All keys are taken over at every poll that does not ask to quit. -/
def TakenOver (ds : List Deed) : Prop :=
  ds.countP Deed.takesLast = ds.count (.poll false)

theorem TakenOver.append (h : TakenOver ds) (h' : TakenOver ds') : TakenOver (ds ++ ds') := by
  rw [TakenOver, List.countP_append, List.count_append, h, h']

theorem poll_notMem_takeover (quits : Bool) (held : Key → Bool) :
    .poll quits ∉ Deed.takeover held := by
  simp [Deed.takeover]

/-- The last of the keys is not among those before it. -/
theorem takesLast_take_takeover (held : Key → Bool) {count : Nat} (few : count < 16) :
    ((Deed.takeover held).take count).countP Deed.takesLast = 0 := by
  refine List.countP_eq_zero.2 fun d hd => ?_
  obtain ⟨i, hi, rfl⟩ := List.mem_take_iff_getElem.1 hd
  have hlast : i ≠ 15 := by omega
  simpa [Deed.takeover, Deed.takesLast] using hlast

theorem Lead.takenOver (l : Lead) : TakenOver l.deeds := by
  have hticks : TakenOver (List.replicate l.ticks .tick) := by
    simp [TakenOver, List.countP_replicate, List.count_replicate, Deed.takesLast]
  refine TakenOver.append ?_ hticks
  cases l.poll with
  | none => rfl
  | some held =>
    have hpolls := List.count_eq_zero.2 (poll_notMem_takeover false held)
    simp [Lead.shown, TakenOver, takesLast_takeover, hpolls, Deed.takesLast]

theorem Cycle.takenOver (b : Cycle) : TakenOver b.deeds := by
  refine b.toLead.takenOver.append ?_
  cases b.switch <;> rfl

theorem takenOver_cycles (cycles : List Cycle) : TakenOver (cycles.flatMap Cycle.deeds) := by
  induction cycles with
  | nil => rfl
  | cons b cycles ih => exact b.takenOver.append ih

theorem takenOver_close (on : Bool) : TakenOver (.refresh :: Deed.silence on) := by
  cases on <;> rfl

/-- Only an interrupt leaves keys of a poll to be taken over. -/
theorem Unfinished.takenOver {timed : Bool} {last : List Deed} (h : Unfinished timed exit last) :
    TakenOver last ∨ timed = true ∧ exit = .interrupted ∧
      last.count (.poll false) = last.countP Deed.takesLast + 1 := by
  cases h with
  | finished | quit | interrupted => exact .inl rfl
  | fault l f => exact .inl (l.takenOver.append rfl)
  | asking held count clocked few =>
    refine .inr ⟨clocked, rfl, ?_⟩
    have hpolls : ((Deed.takeover held).take count).count (.poll false) = 0 :=
      List.count_eq_zero.2 fun h => poll_notMem_takeover false held (List.mem_of_mem_take h)
    rw [List.count_cons_self, hpolls, List.countP_cons_of_neg Bool.false_ne_true,
      takesLast_take_takeover held few]

/-- A run whose last poll an interrupt has cut off, before the keys were all taken over. -/
def Ran.cutOff (r : Ran) : Bool :=
  r.after.deeds.countP Deed.takesLast < r.after.deeds.count (.poll false)

/-- The keys are taken over at every poll of a run, but for one that is cut off. -/
theorem polls_of_run (hexit : (s.run c clock).1.phase = .ended exit) :
    TakenOver (s.run c clock).1.deeds ∨ s.input.timed = true ∧ exit = .interrupted ∧
      (s.run c clock).1.deeds.count (.poll false) =
        (s.run c clock).1.deeds.countP Deed.takesLast + 1 := by
  cases clock with
  | nil => exact .inl rfl
  | cons first rest =>
    cases run_accounted hexit with
    | @undrawn _ _ cycles l on window follows records =>
      rw [records.deeds, List.append_assoc]
      exact .inl ((takenOver_cycles cycles).append (l.takenOver.append (takenOver_close on)))
    | @«at» _ _ cycles ds account begun =>
      have hdeeds : (s.run c (first :: rest)).1.deeds = cycles.flatMap Cycle.deeds ++ ds :=
        account.does.deeds
      rw [hdeeds]
      cases begun with
      | stalled l => exact .inl ((takenOver_cycles cycles).append l.takenOver)
      | @ended _ last unfinished on =>
        rcases unfinished.takenOver with hlast | ⟨clocked, hexit, hlast⟩
        · exact .inl ((takenOver_cycles cycles).append (hlast.append (takenOver_close on)))
        · refine .inr ⟨clocked, hexit, ?_⟩
          have hcycles := takenOver_cycles cycles
          have hclose := takenOver_close on
          rw [TakenOver] at hcycles hclose
          simp only [List.count_append, List.countP_append]
          omega

/-- A run is cut off only by an interrupt, and has then one poll more than its keys were
    taken over. -/
theorem cutOff_run (c : Course) (clock : Clock) (s : Session) :
    let r : Ran := ⟨c, s, (s.run c clock).1⟩
    r.after.deeds.count (.poll false) =
        r.after.deeds.countP Deed.takesLast + (if r.cutOff then 1 else 0) ∧
      (r.cutOff = true → s.input.timed = true ∧ r.after.phase = .ended .interrupted) := by
  intro r
  obtain ⟨exit, hexit, -⟩ := run_moves c s clock
  rcases polls_of_run hexit with hpolls | ⟨hclocked, rfl, hpolls⟩
  · have hwhole : r.cutOff = false := by
      rw [TakenOver] at hpolls
      exact decide_eq_false (Nat.not_lt.2 (Nat.le_of_eq hpolls.symm))
    rw [hwhole]
    exact ⟨hpolls.symm, nofun⟩
  · have hcut : r.cutOff = true := decide_eq_true (hpolls ▸ Nat.lt_succ_self _)
    rw [hcut]
    exact ⟨hpolls, fun _ => ⟨hclocked, hexit⟩⟩

theorem timed_run (c : Course) (clock : Clock) (s : Session) :
    (s.run c clock).1.input.timed = s.input.timed := by
  cases clock with
  | nil => rfl
  | cons first rest =>
    obtain ⟨exit, hexit, -⟩ := run_moves c s (first :: rest)
    obtain ⟨_, _, -, -, hrecords⟩ := exists_records hexit
    exact hrecords.timed

/-! ### Many runs -/

/-- The titles of runs. -/
def titlesOf (rs : List Ran) : List String :=
  rs.flatMap fun r => r.after.titles

/-- The account of runs that a session has come to its last state by. -/
structure Conserves (s : Session) (rs : List Ran) (reports : List Performance) (last : Session) :
    Prop where
  titles : titlesOf rs = reports.map Performance.title
  frames : (reports.map Performance.frames).sum + last.frames + rs.countP Ran.cutOff =
    s.frames + (deedsOf rs).count (.poll false)
  operations : (reports.map Performance.operations).sum + last.operations =
    s.operations + (deedsOf rs).countP Deed.returns
  interrupted : ∀ r ∈ rs, r.cutOff = true →
    s.input.timed = true ∧ r.after.phase = .ended .interrupted

theorem conserves_nil (s : Session) : Conserves s [] [] s where
  titles := rfl
  frames := by simp [deedsOf]
  operations := by simp [deedsOf]
  interrupted := fun _ hr => absurd hr List.not_mem_nil

/-- A run goes before others that account for what it has left to report. -/
theorem Conserves.cons {rs : List Ran} {last : Session} (c : Course) (clock : Clock)
    (h : Conserves (s.run c clock).1 rs reports' last) :
    ∃ reports, Conserves s (⟨c, s, (s.run c clock).1⟩ :: rs) reports last := by
  obtain ⟨exit, hexit, -⟩ := run_moves c s clock
  obtain ⟨reports, hrun⟩ := run_tally hexit
  obtain ⟨hpolls, hcut⟩ := cutOff_run c clock s
  generalize hr : (⟨c, s, (s.run c clock).1⟩ : Ran) = r at *
  have hafter : (s.run c clock).1 = r.after := by rw [← hr]
  have htimed : r.after.input.timed = s.input.timed := hafter ▸ timed_run c clock s
  rw [hafter] at h hrun
  have hdeeds : deedsOf (r :: rs) = r.after.deeds ++ deedsOf rs := List.flatMap_cons
  refine ⟨reports ++ reports', ?_, ?_, ?_, List.forall_mem_cons.2 ⟨hcut, fun q hq hq' => ?_⟩⟩
  · rw [List.map_append, ← h.titles, ← hrun.titles]
    exact List.flatMap_cons
  · have := hrun.frames
    have := h.frames
    rw [List.map_append, List.sum_append, hdeeds, List.count_append, hpolls, List.countP_cons]
    simp only [Stage.unshown] at *
    omega
  · have := hrun.operations
    have := h.operations
    rw [List.map_append, List.sum_append, hdeeds, List.countP_append]
    omega
  · obtain ⟨hclocked, hinterrupted⟩ := h.interrupted q hq hq'
    exact ⟨htimed ▸ hclocked, hinterrupted⟩

theorem runs_conserve (s : Session) (courses : List (Course × Clock)) :
    ∃ reports, Conserves s (s.runs courses) reports
      (((s.runs courses).map Ran.after).getLastD s) := by
  induction courses generalizing s with
  | nil => exact ⟨[], conserves_nil s⟩
  | cons next courses ih =>
    obtain ⟨c, clock⟩ := next
    obtain ⟨later, hruns, hlater⟩ := runs_cons s c clock courses
    rw [hruns, List.map_cons, List.getLastD_cons]
    rcases hlater with rfl | ⟨-, rfl⟩
    · exact (conserves_nil _).cons c clock
    · obtain ⟨reports, h⟩ := ih (s.run c clock).1
      exact h.cons c clock

/-- Over all runs of a session, whatever ends them, the numbers of instructions that its
    titles report and the one that is left to report add up to the instructions executed, and
    those of pictures to the polls that do not ask to quit. Only a poll that an interrupt
    cuts off while a timed input is asked for its keys is not counted. -/
theorem reports_conserve (m : Machine) (input : Input) (renderer : Renderer) (buzzer : Buzzer)
    (courses : List (Course × Clock)) :
    let s := start m input renderer buzzer
    let rs := s.runs courses
    let last := (rs.map Ran.after).getLastD s
    Function.Injective Performance.title ∧
      ∃ reports : List Performance, titlesOf rs = reports.map Performance.title ∧
        (reports.map Performance.operations).sum + last.operations =
          (deedsOf rs).countP Deed.returns ∧
        (reports.map Performance.frames).sum + last.frames + rs.countP Ran.cutOff =
          (deedsOf rs).count (.poll false) ∧
        ∀ r ∈ rs, r.cutOff = true →
          input.timed = true ∧ r.after.phase = .ended .interrupted := by
  intro s rs last
  obtain ⟨reports, h⟩ := runs_conserve s courses
  exact ⟨Performance.title_injective, reports, h.titles, h.operations.trans (Nat.zero_add _),
    h.frames.trans (Nat.zero_add _), h.interrupted⟩

end Session

end Chip8
