import Chip8.Proofs.Anomalies

/-!
# The reports of a whole run

A machine keeps the latest reports only, 256 of them. They are the end of the list of
all reports since the last reset (`history`), which is told by what is due for each
action of the run and does not depend on what was kept. The log has a warning for
every report, also for those that are gone.

* `foldl_latest`: a row that always keeps its latest items keeps the latest of all;
* `diagnostics_actAll`, `warnings_runLog`: the diagnostics after a run and the
  warnings of its log;
* `diagnostics_of_run`: both, from a reset on.
-/

namespace Chip8

section Latest

variable {α : Type} (limit : Nat) (items new : List α)

/-- What was dropped already is not among the latest items. -/
theorem latest_append : latest limit (latest limit items ++ new) = latest limit (items ++ new) := by
  have hle : items.length - limit ≤ items.length := Nat.sub_le _ _
  rw [latest, latest, latest, ← List.drop_append_of_le_length hle, List.drop_drop,
    List.length_drop, List.length_append]
  congr 1
  omega

theorem foldl_latest :
    new.foldl (fun kept item => latest limit (kept ++ [item])) (latest limit items) =
      latest limit (items ++ new) := by
  induction new generalizing items with
  | nil => rw [List.append_nil, List.foldl_nil]
  | cons item new ih =>
    rw [List.foldl_cons, latest_append, ih, List.append_assoc, List.singleton_append]

end Latest

namespace Machine

variable {s : Setup} {m : Machine}

/-- All reports of a run, the earliest one first. -/
def history (s : Setup) (m : Machine) (as : List Action) : List Diagnostic :=
  (m.moments s as).flatMap (dueReports s)

/-- What the actions of a run leave in the log. -/
def runLog (s : Setup) (m : Machine) (as : List Action) : List LogLine :=
  (m.replies s (as.map .act)).flatMap Reply.log

theorem history_cons (a : Action) (as : List Action) :
    m.history s (a :: as) = dueReports s (m, a) ++ (m.act s a).history s as :=
  List.flatMap_cons

theorem runLog_cons (a : Action) (as : List Action) :
    m.runLog s (a :: as) = (m.reply s (.act a)).log ++ (m.act s a).runLog s as := by
  rw [runLog, List.map_cons, replies, List.flatMap_cons, machine_reply]
  rfl

/-- A machine that keeps the latest of some reports keeps the latest of them and of
    those of a run. -/
theorem diagnostics_actAll {past : List Diagnostic}
    (h : m.diagnostics = latest diagnosticLimit past) (as : List Action) :
    (m.actAll s as).diagnostics = latest diagnosticLimit (past ++ m.history s as) := by
  induction as generalizing m past with
  | nil => exact h.trans (congrArg _ (List.append_nil past).symm)
  | cons a as ih =>
    have hnow := (reports_act s m a).diagnostics
    rw [h, foldl_latest] at hnow
    rw [history_cons, ← List.append_assoc]
    exact ih hnow

/-- A run warns of each of its reports. -/
theorem warnings_runLog (as : List Action) :
    warnings (m.runLog s as) = (m.history s as).map Diagnostic.line := by
  induction as generalizing m with
  | nil => rfl
  | cons a as ih =>
    rw [runLog_cons, history_cons, List.map_append, ← ih, ← (reports_act s m a).warnings]
    exact List.filter_append ..

/-- What is odd about a word, case by case. -/
theorem mem_anomalies_iff {w : Word} {a : Anomaly} : a ∈ m.anomalies w ↔
    (Form.ofWord w = .unknown ∧ a = .unknownWord w) ∨
      ∃ count, w.indexBytes? = some count ∧ 0x1000 < m.registers.i.toNat + count ∧
        a = .indexWrapped m.registers.i.toNat count := by
  rw [anomalies, List.mem_append, List.mem_ite_nil_right, List.mem_singleton, List.mem_map]
  refine or_congr_right (exists_congr fun count => ?_)
  rw [Option.mem_toList, Option.filter_eq_some_iff, decide_eq_true_eq, and_assoc,
    eq_comm (b := a)]

/-- A report is about the word that a step found at the program counter and executed. -/
theorem mem_dueReports_iff {a : Action} {d : Diagnostic} :
    d ∈ dueReports s (m, a) ↔
      a = .step ∧ (m.step s).result = .ok (.decode d.opcode) ∧ d.address = m.registers.pc ∧
        d.opcode = m.wordAt m.registers.pc ∧ d.anomaly ∈ m.anomalies d.opcode := by
  cases a with
  | tick => exact iff_of_false List.not_mem_nil (nomatch ·.1)
  | setKey k pressed => exact iff_of_false List.not_mem_nil (nomatch ·.1)
  | step =>
    cases hresult : (m.step s).result with
    | error f =>
      rw [dueReports_of_failed hresult]
      exact iff_of_false List.not_mem_nil (nomatch ·.2.1)
    | ok ins =>
      obtain ⟨w, e, hfetch, rfl, -, -⟩ := exists_effect_of_result hresult
      rw [hfetch.dueReports hresult, List.mem_map]
      constructor
      · rintro ⟨a, ha, rfl⟩
        exact ⟨rfl, rfl, rfl, hfetch.word.symm, ha⟩
      · rintro ⟨-, -, haddress, hopcode, ha⟩
        obtain rfl : d.opcode = w := hopcode.trans hfetch.word
        exact ⟨d.anomaly, ha, by rw [← haddress]⟩

/-- What a machine reports in a run from a reset on. An action makes at most one report.
    It is a step, and the report has the address and the word that it fetched and
    executed: either the word has no form, or it accesses memory through the index
    register past the end. The diagnostics are the latest 256 of all these reports, in
    order, and the log has one warning for each. -/
theorem diagnostics_of_run (s : Setup) (m : Machine) (as : List Action) :
    let start := m.reset s.config
    let reports := start.history s as
    let now := start.actAll s as
    let log := start.runLog s as
    (∀ found a, (found, a) ∈ start.moments s as →
      let due := dueReports s (found, a)
      let i := found.registers.i.toNat
      found.Reports s a due ∧ due.length ≤ 1 ∧ ∀ d, d ∈ due ↔
        a = .step ∧ (found.step s).result = .ok (.decode d.opcode) ∧
          d.address = found.registers.pc ∧ d.opcode = found.wordAt found.registers.pc ∧
          ((Form.ofWord d.opcode = .unknown ∧ d.anomaly = .unknownWord d.opcode) ∨
            ∃ count, d.opcode.indexBytes? = some count ∧ 0x1000 < i + count ∧
              d.anomaly = .indexWrapped i count)) ∧
      now.diagnostics = reports.drop (reports.length - 256) ∧
      now.diagnostics.length = min 256 reports.length ∧
      warnings log = reports.map Diagnostic.line ∧ (warnings log).length = reports.length := by
  intro start reports now log
  have hempty : start.diagnostics = latest diagnosticLimit [] := rfl
  have hnow : now.diagnostics = latest diagnosticLimit reports := diagnostics_actAll hempty as
  have hlog : warnings log = reports.map Diagnostic.line := warnings_runLog as
  refine ⟨fun found a _ => ⟨reports_act s found a, length_dueReports_le _, fun d => ?_⟩, hnow, ?_,
    hlog, ?_⟩
  · rw [mem_dueReports_iff, mem_anomalies_iff]
  · rw [hnow, length_latest]
    rfl
  · rw [hlog, List.length_map]

/-- A program that stores `V0` and `V1` on both sides of the end of memory, and then
    comes to a word of no form. -/
example :
    let start := { powerOn {} with program := [0xAF, 0xFF, 0xF1, 0x55, 0xFF, 0xFF] }.reset {}
    (start.actAll standardSetup [.step, .step, .tick, .step]).diagnostics =
      [⟨0x202, 0xF155, .indexWrapped 0xFFF 2⟩, ⟨0x204, 0xFFFF, .unknownWord 0xFFFF⟩] := by
  decide +kernel

end Machine

end Chip8
