import Chip8.Proofs.Agreement
import Chip8.Proofs.Session.Refinement

/-!
# Runs by different clocks

What a program computes does not depend on the clock that it runs by. Two runs
of machines that agree interleave their instructions with polls, ticks and
pictures in different ways, but as long as the instructions do not ask for what
the host has done, they are the same ones (`Agree.steps`). Both runs go on as
long as they may, to the limit or to a fault (`Complete`), so neither of them
makes more steps than the other (`run_independent`).
-/

namespace Chip8

/-- An instruction that was executed. -/
def Deed.executed? : Deed → Option Instruction
  | .step (.ok i) => some i
  | _ => none

/-- An exit that neither the input nor the clock nor the renderer brings about. -/
structure Exit.Undisturbed (exit : Exit) : Prop where
  quit : exit ≠ .quit
  interrupted : exit ≠ .interrupted
  stalled : exit ≠ .stalled
  undrawn : ∀ e, exit ≠ .undrawn e

/-- Two runs end alike, both at the limit or both by a fault, with the same
    report but for the timers. -/
inductive Exit.Alike : Exit → Exit → Prop
  | finished : Alike .finished .finished
  | fault {f f' : Fault} (report : f.untimed = f'.untimed) : Alike (.fault f) (.fault f')

theorem Exit.Alike.symm {exit exit' : Exit} (h : exit.Alike exit') : exit'.Alike exit := by
  cases h with
  | finished => exact .finished
  | fault report => exact .fault report.symm

namespace Session

/-- The instructions that a session has executed in its run. -/
def executed (s : Session) : List Instruction :=
  s.deeds.filterMap Deed.executed?

/-! ### The steps of a run -/

/-- The steps of a run that is not disturbed: as many as may be, or a fault
    before that. -/
inductive Complete (limit : Option Int) : Exit → List Instruction →
    List (Except Fault Instruction) → Prop
  | finished {is : List Instruction} {n : Int} (limited : limit = some n)
      (all : (is.length : Int) = max n 0) : Complete limit .finished is (is.map .ok)
  | fault {is : List Instruction} {f : Fault}
      (below : ∀ n, limit = some n → (is.length : Int) < n) :
      Complete limit (.fault f) is (is.map .ok ++ [.error f])

variable {limit : Option Int} {exit exit' : Exit} {is is' : List Instruction}
  {rs rs' : List (Except Fault Instruction)}

theorem map_untimed_ok (is : List Instruction) :
    ((is.map .ok).map Deed.untimed : List (Except Fault Instruction)) = is.map .ok := by
  rw [List.map_map]
  rfl

theorem error_not_mem (is : List Instruction) (f : Fault) : Except.error f ∉ is.map .ok := by
  simp

/-- If one run has the same steps as another as far as it goes, it goes as far. -/
theorem Complete.unique (h : Complete limit exit is rs) (h' : Complete limit exit' is' rs')
    (hpre : rs.map Deed.untimed <+: rs'.map Deed.untimed) :
    is = is' ∧ rs.length = rs'.length ∧ exit.Alike exit' := by
  have hinj : Function.Injective (Except.ok (ε := Fault) (α := Instruction)) :=
    fun _ _ h => Except.ok.inj h
  cases h with
  | finished limited all =>
    rw [map_untimed_ok] at hpre
    cases h' with
    | finished limited' all' =>
      cases limited.symm.trans limited'
      rw [map_untimed_ok] at hpre
      have heq := hpre.eq_of_length (by rw [List.length_map, List.length_map]; omega)
      exact ⟨hinj.list_map heq, congrArg List.length heq, .finished⟩
    | @fault _ f below' =>
      -- The fault would have to be among the instructions.
      have hbelow := below' _ limited
      rw [List.map_append, map_untimed_ok] at hpre
      have hlength := hpre.length_le
      rw [List.length_append, List.length_map, List.length_map] at hlength
      have heq := hpre.eq_of_length_le (by simp; omega)
      exact absurd (heq ▸ List.mem_append_right _ List.mem_cons_self) (error_not_mem is f.untimed)
  | @fault _ f below =>
    rw [List.map_append, map_untimed_ok] at hpre
    have hmem := hpre.subset (List.mem_append_right _ List.mem_cons_self)
    cases h' with
    | finished limited' all' =>
      rw [map_untimed_ok] at hmem
      exact absurd hmem (error_not_mem is' f.untimed)
    | @fault _ f' below' =>
      rw [List.map_append, map_untimed_ok] at hpre
      rcases List.prefix_concat_iff.1 hpre with heq | hpre
      · obtain ⟨his, hf⟩ := List.append_inj' heq rfl
        have hreport : f.untimed = f'.untimed := by simpa [Deed.untimed, Except.mapError] using hf
        obtain rfl := hinj.list_map his
        exact ⟨rfl, by simp, .fault hreport⟩
      · exact absurd (hpre.subset (List.mem_append_right _ List.mem_cons_self))
          (error_not_mem is' f.untimed)

/-! ### The steps of cycles -/

theorem results_switches (on : Option Bool) :
    (Deed.switches on).filterMap Deed.result? = [] := by
  cases on <;> rfl

theorem results_lead (l : Lead) : l.deeds.filterMap Deed.result? = [] := by
  obtain ⟨poll, ticks⟩ := l
  refine List.filterMap_eq_nil_iff.2 fun d hd => ?_
  rcases List.mem_append.1 hd with hd | hd
  · cases poll with
    | none => cases hd
    | some held =>
      simp only [Lead.shown, Deed.takeover, List.cons_append, List.mem_cons, List.mem_append,
        List.mem_map, List.not_mem_nil, or_false] at hd
      obtain rfl | ⟨key, -, rfl⟩ | rfl := hd <;> rfl
  · rw [List.eq_of_mem_replicate hd]
    rfl

theorem results_cycles (cycles : List Cycle) :
    (cycles.flatMap Cycle.deeds).filterMap Deed.result? =
      (cycles.map Cycle.instruction).map .ok := by
  induction cycles with
  | nil => rfl
  | cons b cycles ih =>
    rw [List.flatMap_cons, List.filterMap_append, ih, Cycle.deeds, List.filterMap_append,
      results_lead, List.filterMap_cons, results_switches]
    rfl

/-- The executed instructions are those among the results. -/
theorem filterMap_executed (ds : List Deed) :
    ds.filterMap Deed.executed? = (ds.filterMap Deed.result?).filterMap Except.toOption := by
  rw [List.filterMap_filterMap]
  refine List.filterMap_congr fun d _ => ?_
  cases d with
  | step result => cases result <;> rfl
  | poll | setKey | refresh | tick | switch => rfl

theorem Complete.instructions (h : Complete limit exit is rs) :
    rs.filterMap Except.toOption = is := by
  have hok (is : List Instruction) :
      (is.map Except.ok : List (Except Fault Instruction)).filterMap Except.toOption = is := by
    rw [List.filterMap_map]
    exact List.filterMap_some
  cases h with
  | finished => exact hok is
  | fault =>
    rw [List.filterMap_append, hok]
    exact List.append_nil _

variable {c c' : Course} {s s' : Session} {clock clock' : Clock}

/-- The results of a run are those of its cycles, and of what it leaves
    unfinished. -/
theorem Refines.results {cycles : List Cycle} {last : List Deed} {on : Bool} {after : Session}
    (h : Refines c s exit cycles last on after) :
    after.deeds.filterMap Deed.result? =
      (cycles.map Cycle.instruction).map .ok ++ last.filterMap Deed.result? := by
  have hend : (Deed.refresh :: Deed.silence on).filterMap Deed.result? = [] := by
    cases on <;> rfl
  rw [h.deeds, List.filterMap_append, List.filterMap_append, results_cycles, hend, List.append_nil]

theorem Refines.complete {cycles : List Cycle} {last : List Deed} {on : Bool} {after : Session}
    (h : Refines c s exit cycles last on after) (hlimited : Limited c (.ended exit) after)
    (hown : exit.Undisturbed) :
    Complete c.limit exit (cycles.map Cycle.instruction) (after.deeds.filterMap Deed.result?) := by
  have hcount := h.count
  rw [h.results]
  cases h.unfinished with
  | quit => exact absurd rfl hown.quit
  | interrupted => exact absurd rfl hown.interrupted
  | asking => exact absurd rfl hown.interrupted
  | finished =>
    -- The limit is reached, and not passed.
    obtain ⟨n, hl, hreached⟩ := h.reached rfl
    have hwithin := h.limit n hl
    rw [List.filterMap_nil, List.append_nil]
    exact .finished hl (by rw [List.length_map]; omega)
  | fault l f =>
    have hbelow := hlimited.below .fault
    rw [List.filterMap_append, results_lead]
    refine .fault fun n hl => ?_
    simp only [atLimit, hl, decide_eq_false_iff_not] at hbelow
    rw [List.length_map]
    omega

/-- A run that is not disturbed goes as far as it may, and does so by the steps
    of the plain machine. -/
theorem complete_run (hexit : (s.run c clock).1.phase = .ended exit) (hown : exit.Undisturbed) :
    (s.run c clock).1.cycles = (s.run c clock).1.executed.length ∧
      ∃ rs, Complete c.limit exit (s.run c clock).1.executed rs ∧
        s.machine.Steps c.setup rs (s.run c clock).1.machine := by
  cases clock with
  | nil => exact absurd (Phase.ended.inj hexit).symm hown.interrupted
  | cons first rest =>
    rcases refines_of_run hexit with ⟨e, he, -⟩ | ⟨he, -⟩ | ⟨cycles, last, on, hrefines⟩
    · exact absurd he (hown.undrawn e)
    · exact absurd he hown.stalled
    · have hcomplete := hrefines.complete (run_limited hexit) hown
      have hexecuted : (s.run c (first :: rest)).1.executed = cycles.map Cycle.instruction := by
        rw [executed, filterMap_executed, hcomplete.instructions]
      rw [hexecuted, List.length_map]
      exact ⟨hrefines.count, _, hcomplete, hrefines.machine.steps⟩

/-! ### Two runs -/

/-- Two runs with the same limit, of machines that agree, by any two clocks, at any
    speeds and with any inputs, neither of which is disturbed: if the instructions
    of the first do not ask the host, the second executes the same ones, the
    machines agree afterwards, and both runs end alike. -/
theorem run_independent (hsetup : c.setup.Alike c'.setup) (hlimit : c.limit = c'.limit)
    (hstart : s.machine.Agree s'.machine)
    (hexit : (s.run c clock).1.phase = .ended exit) (hown : exit.Undisturbed)
    (hexit' : (s'.run c' clock').1.phase = .ended exit') (hown' : exit'.Undisturbed)
    (hfree : ∀ i ∈ (s.run c clock).1.executed, ¬i.form.AsksHost) :
    (s'.run c' clock').1.executed = (s.run c clock).1.executed ∧
      (s.run c clock).1.machine.Agree (s'.run c' clock').1.machine ∧
      (s.run c clock).1.cycles = (s'.run c' clock').1.cycles ∧
      exit.Alike exit' ∧
      (exit = .finished → ∀ n, c.limit = some n → (s.run c clock).1.cycles = max n 0) := by
  obtain ⟨hcount, rs, hcomplete, hsteps⟩ := complete_run hexit hown
  obtain ⟨hcount', rs', hcomplete', hsteps'⟩ := complete_run hexit' hown'
  rw [← hlimit] at hcomplete'
  obtain ⟨hpre, hagree⟩ := hstart.steps hsetup hsteps hsteps' fun i hi =>
    hfree i (hcomplete.instructions ▸ List.mem_filterMap.2 ⟨_, hi, rfl⟩)
  obtain ⟨hexecuted, hlength, halike⟩ : (s'.run c' clock').1.executed = (s.run c clock).1.executed ∧
      rs.length = rs'.length ∧ exit.Alike exit' := by
    rcases hpre with hpre | hpre
    · obtain ⟨his, hlength, halike⟩ := hcomplete.unique hcomplete' hpre
      exact ⟨his.symm, hlength, halike⟩
    · obtain ⟨his, hlength, halike⟩ := hcomplete'.unique hcomplete hpre
      exact ⟨his, hlength.symm, halike.symm⟩
  refine ⟨hexecuted, hagree hlength, by rw [hcount, hcount', hexecuted], halike, ?_⟩
  rintro rfl n hl
  cases hcomplete with
  | finished limited all =>
    cases hl.symm.trans limited
    rw [hcount]
    exact all

/-- A machine about to start its sound timer and then to draw a random number. -/
def aboutToBeep : Machine :=
  { Machine.powerOn {} with
    memory := (Memory.blank _).putAll 0x200 [0x60, 0x05, 0xF0, 0x18, 0xC1, 0xFF] }

/-- A session with no keys. -/
def keyless : Session :=
  { start aboutToBeep .none (.plain (.make .null)) ⟨.mute, false⟩ with nextReport := 1000.0 }

/-- The same machine with a key held at the first poll. -/
def keyed : Session :=
  { start aboutToBeep (.scripted ⟨[⟨some [7], false⟩], []⟩) (.plain (.make .null)) ⟨.bell, false⟩
    with nextReport := 1000.0 }

/-- A clock that stands still before the first picture is due. -/
def still : Clock := List.replicate 4 ⟨-1.0, []⟩

/-- A clock that goes on. -/
def going : Clock :=
  [0.0, 0.0, 0.125, 0.125, 0.25, 0.25, 0.375].map fun time => ⟨time, []⟩

/-- Three instructions, one after the other or with some time between them. -/
def threeSteps (interval : Option Float) : Course :=
  ⟨Machine.standardSetup, interval, some 3⟩

/-- At full speed by the first clock the sound goes on; at eight instructions per
    second by the other clock it is over. Both runs execute the same three
    instructions. -/
theorem run_independent_aboutToBeep :
    let first := (keyless.run (threeSteps none) still).1
    let second := (keyed.run (threeSteps (some 0.125)) going).1
    first.executed = [.decode 0x6005, .decode 0xF018, .decode 0xC1FF] ∧
      second.executed = first.executed ∧ first.machine.Agree second.machine ∧
      first.machine.sounding = true ∧ second.machine.sounding = false := by
  have hexit : (keyless.run (threeSteps none) still).1.phase = .ended .finished :=
    phase_of_exit?_eq_some (by decide +kernel)
  have hexit' : (keyed.run (threeSteps (some 0.125)) going).1.phase = .ended .finished :=
    phase_of_exit?_eq_some (by decide +kernel)
  have hexecuted : (keyless.run (threeSteps none) still).1.executed =
      [.decode 0x6005, .decode 0xF018, .decode 0xC1FF] := by
    decide +kernel
  have hfree : ∀ i ∈ (keyless.run (threeSteps none) still).1.executed, ¬i.form.AsksHost := by
    rw [hexecuted]
    decide
  have hown : Exit.Undisturbed .finished := ⟨nofun, nofun, nofun, nofun⟩
  have hsetup : (threeSteps none).setup.Alike (threeSteps (some 0.125)).setup := ⟨rfl, rfl⟩
  have hstart : keyless.machine.Agree keyed.machine := .refl aboutToBeep
  obtain ⟨hsame, hagree, -⟩ :=
    run_independent hsetup rfl hstart hexit hown hexit' hown hfree
  exact ⟨hexecuted, hsame, hagree, by decide +kernel, by decide +kernel⟩

end Session

end Chip8
