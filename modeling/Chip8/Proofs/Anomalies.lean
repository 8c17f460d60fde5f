import Chip8.Proofs.Execution
import Chip8.Proofs.Replies

/-!
# What a step reports

A word of no form is an anomaly, and so is an access through the index register
that goes past the end of memory. The machine adds a report of it to its
diagnostics and to the log (`Reports`), with the word fetched and its address,
whatever the instruction does to either.

* `Word.indexBytes?`: how many bytes a word accesses through the index register;
* `dueReports`: what an action has to report, told from the machine before it;
* `reports_act`: it is reported, and nothing else;
* `reports_wrap_iff`: when an access is reported to wrap round memory. A sprite of
  no rows accesses nothing, and is reported all the same if the index is past the
  end of memory (`not_wraps_emptySprite`).
-/

namespace Chip8

/-- How many bytes a word accesses from the index register on, if it accesses
    memory through it: as many as the sprite has rows for `Dxyn`, three digits for
    `Fx33`, and the registers up to `Vx` for `Fx55` and `Fx65`. -/
def Word.indexBytes? (w : Word) : Option Nat :=
  if w.family = 0xD then some w.n
  else if w.family = 0xF ∧ w.kk.toNat = 0x33 then some 3
  else if w.family = 0xF ∧ (w.kk.toNat = 0x55 ∨ w.kk.toNat = 0x65) then some (w.x.val + 1)
  else none

/-- The warning about a diagnostic. -/
def Diagnostic.line (d : Diagnostic) : LogLine :=
  Machine.logLine .warning (d.anomaly.message ++ " (opcode 0x" ++ Hex.text 4 d.opcode.toNat ++
    " at address 0x" ++ Hex.text 3 d.address ++ ")")

/-- The warnings of a log. -/
def warnings (log : List LogLine) : List LogLine :=
  log.filter (·.level = .warning)

namespace Machine

variable {s : Setup} {m : Machine} {w : Word} {e : Effect} {f : Fault}

/-- What is odd about a word: that it has no form, and that the bytes it accesses
    through the index register are not all below the end of memory. -/
def anomalies (m : Machine) (w : Word) : List Anomaly :=
  let i := m.registers.i.toNat
  (if Form.ofWord w = .unknown then [.unknownWord w] else []) ++
    (w.indexBytes?.filter (0x1000 < i + ·)).toList.map (.indexWrapped i)

/-- The reports that are due for an action: those of the word that a step executes,
    at the address it was fetched from. -/
def dueReports (s : Setup) : Machine × Action → List Diagnostic
  | (m, .step) =>
    match (m.step s).result with
    | .ok ins => (m.anomalies ins.word).map fun a =>
        ⟨m.registers.pc, m.wordAt m.registers.pc, a⟩
    | .error _ => []
  | _ => []

/-- An action makes some reports: it adds them to the diagnostics one by one, of
    which the latest are kept, and warns of each. -/
structure Reports (s : Setup) (m : Machine) (a : Action) (reports : List Diagnostic) : Prop where
  diagnostics : (m.act s a).diagnostics =
    reports.foldl (fun kept d => latest diagnosticLimit (kept ++ [d])) m.diagnostics
  warnings : warnings (m.reply s (.act a)).log = reports.map Diagnostic.line

/-! ### Executing -/

/-- The words that access memory through the index register, by their forms. -/
theorem indexBytes?_eq : w.indexBytes? =
    match Form.ofWord w with
    | .draw => some w.n
    | .decimal => some 3
    | .store | .load => some (w.x.val + 1)
    | _ => none := by
  unfold Word.indexBytes?
  by_cases hdraw : w.family = 0xD
  · rw [if_pos hdraw, Form.ofWord_eq_draw_iff.2 hdraw]
  by_cases hdecimal : w.family = 0xF ∧ w.kk.toNat = 0x33
  · rw [if_neg hdraw, if_pos hdecimal, Form.ofWord_eq_decimal_iff.2 hdecimal]
  by_cases hstore : w.family = 0xF ∧ w.kk.toNat = 0x55
  · rw [if_neg hdraw, if_neg hdecimal, if_pos ⟨hstore.1, .inl hstore.2⟩,
      Form.ofWord_eq_store_iff.2 hstore]
  by_cases hload : w.family = 0xF ∧ w.kk.toNat = 0x65
  · rw [if_neg hdraw, if_neg hdecimal, if_pos ⟨hload.1, .inr hload.2⟩,
      Form.ofWord_eq_load_iff.2 hload]
  have hneither : ¬(w.family = 0xF ∧ (w.kk.toNat = 0x55 ∨ w.kk.toNat = 0x65)) := by
    rintro ⟨hfamily, hkk | hkk⟩
    · exact hstore ⟨hfamily, hkk⟩
    · exact hload ⟨hfamily, hkk⟩
  rw [if_neg hdraw, if_neg hdecimal, if_neg hneither]
  split
  · exact absurd (Form.ofWord_eq_draw_iff.1 ‹_›) hdraw
  · exact absurd (Form.ofWord_eq_decimal_iff.1 ‹_›) hdecimal
  · exact absurd (Form.ofWord_eq_store_iff.1 ‹_›) hstore
  · exact absurd (Form.ofWord_eq_load_iff.1 ‹_›) hload
  · rfl

/-- No word is odd in two ways. -/
theorem length_anomalies_le : (m.anomalies w).length ≤ 1 := by
  unfold anomalies
  by_cases hform : Form.ofWord w = .unknown
  · simp [hform, indexBytes?_eq]
  · rw [if_neg hform, List.nil_append, List.length_map]
    cases Option.filter _ _ <;> simp

theorem indexAnomaly_toList (count : Nat) :
    (m.indexAnomaly count).toList =
      ((some count).filter (0x1000 < m.registers.i.toNat + ·)).toList.map
        (.indexWrapped m.registers.i.toNat) := by
  rw [indexAnomaly, Option.filter_some]
  simp only [decide_eq_true_eq]
  split <;> rfl

theorem anomaly_of_execute (h : m.execute s (.decode w) = .ok e) :
    e.anomaly.toList = m.anomalies w := by
  simp only [execute, Instruction.decode] at h
  rw [anomalies, indexBytes?_eq]
  cases hform : Form.ofWord w <;> simp only [hform] at h ⊢
  case ret => split at h <;> cases h; rfl
  case call => split at h <;> cases h; rfl
  case draw => cases h; exact indexAnomaly_toList _
  case decimal => cases h; exact indexAnomaly_toList _
  case load => cases h; exact indexAnomaly_toList _
  case store =>
    cases h
    rw [← Registers.length_upTo m.registers]
    exact indexAnomaly_toList _
  all_goals
    cases h
    rfl

/-! ### The log of a step -/

/-- All that is traced of an instruction is for debugging. -/
theorem warnings_trace (ins : Instruction) :
    warnings (if s.debug then m.traceLine ins :: noteLines ins else []) = [] := by
  unfold noteLines
  split
  · split <;> rfl
  · rfl

theorem warnings_commit (e : Effect) (ins : Instruction) {trace : List LogLine}
    (htrace : warnings trace = []) :
    warnings (commit e ins trace).log = e.anomaly.toList.map e.machine.warningLine := by
  rw [warnings] at htrace
  unfold commit
  split
  · rw [warnings, List.filter_append, htrace, ‹e.anomaly = _›]
    rfl
  · rw [warnings, htrace, ‹e.anomaly = _›]
    rfl

theorem warnings_halt (cause : FaultCause) {trace : List LogLine} (htrace : warnings trace = []) :
    warnings (m.halt cause trace).log = [] := by
  rw [warnings] at htrace
  rw [halt, warnings, List.filter_append, htrace]
  rfl

/-- A step that fails warns of nothing. -/
theorem warnings_of_failed (h : (m.step s).result = .error f) : warnings (m.step s).log = [] := by
  cases hf : m.fault with
  | some fault =>
    simp only [step, hf]
    rfl
  | none =>
    cases hw : m.nextWord? with
    | none =>
      simp only [step, hf, hw]
      exact warnings_halt _ rfl
    | some w =>
      cases he : (m.fetched w).execute s (.decode w) with
      | ok e => cases h.symm.trans (step_of_execute hf hw he).2
      | error cause =>
        simp only [step, hf, hw, he]
        exact warnings_halt cause (warnings_trace _)

/-- A step that executes an instruction warns of its anomaly. -/
theorem Fetches.warnings (h : m.Fetches w) (he : (m.fetched w).execute s (.decode w) = .ok e) :
    Chip8.warnings (m.step s).log = e.anomaly.toList.map e.machine.warningLine := by
  have hword := nextWord?_eq_some_iff.2 ⟨h.range, h.word⟩
  simp only [Machine.step, h.running, hword, he]
  exact warnings_commit e _ (warnings_trace _)

/-! ### Reporting -/

theorem dueReports_of_failed (h : (m.step s).result = .error f) :
    dueReports s (m, .step) = [] := by
  simp only [dueReports, h]

theorem Fetches.dueReports (h : m.Fetches w) (hresult : (m.step s).result = .ok (.decode w)) :
    Machine.dueReports s (m, .step) = (m.anomalies w).map (⟨m.registers.pc, w, ·⟩) := by
  simp only [Machine.dueReports, hresult, h.word]
  rfl

theorem length_dueReports_le (moment : Machine × Action) :
    (dueReports s moment).length ≤ 1 := by
  obtain ⟨m, a⟩ := moment
  cases a with
  | step =>
    simp only [dueReports]
    split
    · rw [List.length_map]
      exact length_anomalies_le
    · exact Nat.zero_le 1
  | tick => exact Nat.zero_le 1
  | setKey k pressed => exact Nat.zero_le 1

/-- A step of a machine that fails to execute anything leaves the diagnostics. -/
theorem diagnostics_of_failed (h : (m.step s).result = .error f) :
    (m.step s).machine.diagnostics = m.diagnostics := by
  cases stepCase s m with
  | halted f' fault machine => rw [machine]
  | outside running range machine => rw [machine]
  | refused w c running range word refusal machine => rw [machine]; rfl
  | executed w e running range word effect machine result => exact nomatch h.symm.trans result

/-- A step reports what is odd about the word that it executes. -/
theorem reports_step (s : Setup) (m : Machine) :
    m.Reports s .step (dueReports s (m, .step)) := by
  cases hresult : (m.step s).result with
  | error f =>
    rw [dueReports_of_failed hresult]
    exact ⟨diagnostics_of_failed hresult, warnings_of_failed hresult⟩
  | ok ins =>
    obtain ⟨w, e, hfetch, rfl, heffect, hmachine⟩ := exists_effect_of_result hresult
    -- What the instruction does to memory and registers does not touch the record of it.
    have hopcode : e.machine.opcode = w := (execute_frame heffect).opcode
    have haddress : e.machine.address = m.registers.pc := (execute_frame heffect).address
    have hdiagnostics : e.machine.diagnostics = m.diagnostics := (execute_frame heffect).diagnostics
    have hanomaly : e.anomaly.toList = m.anomalies w := (anomaly_of_execute heffect :)
    rw [hfetch.dueReports hresult, ← hanomaly]
    constructor
    · refine (congrArg Machine.diagnostics hmachine).trans ?_
      simp only [reported, hopcode, haddress, hdiagnostics]
      cases e.anomaly with
      | none => rfl
      | some a => simp only [Option.elim_some, Option.toList_some, List.map_cons, List.map_nil,
          List.foldl_cons, List.foldl_nil]
    · refine (hfetch.warnings heffect).trans ?_
      have hline : e.machine.warningLine = Diagnostic.line ∘ (⟨m.registers.pc, w, ·⟩) := by
        funext a
        rw [warningLine, hopcode, haddress]
        rfl
      rw [hline, List.map_map]

/-- An action reports what is due for it, and nothing else. -/
theorem reports_act (s : Setup) (m : Machine) (a : Action) :
    m.Reports s a (dueReports s (m, a)) := by
  cases a with
  | step => exact reports_step s m
  | tick => exact ⟨rfl, rfl⟩
  | setKey k pressed =>
    refine ⟨by rw [act_setKey]; rfl, ?_⟩
    simp only [reply, answer]
    cases m.setKey k pressed <;> rfl

/-! ### Accesses that wrap round memory -/

/-- An action makes as many reports as it warns of. -/
theorem Reports.length_eq {a : Action} {reports reports' : List Diagnostic}
    (h : m.Reports s a reports) (h' : m.Reports s a reports') : reports.length = reports'.length := by
  have hlines : reports.map Diagnostic.line = reports'.map Diagnostic.line :=
    h.warnings.symm.trans h'.warnings
  simpa only [List.length_map] using congrArg List.length hlines

/-- What is due for a word that accesses memory through the index register. -/
theorem anomalies_of_indexBytes {count : Nat} (hcount : w.indexBytes? = some count) :
    m.anomalies w =
      if 0x1000 < m.registers.i.toNat + count then [.indexWrapped m.registers.i.toNat count]
      else [] := by
  have hform : Form.ofWord w ≠ .unknown := fun hform => by
    rw [indexBytes?_eq, hform] at hcount
    cases hcount
  rw [anomalies, if_neg hform, List.nil_append, hcount, Option.filter_some]
  simp only [decide_eq_true_eq]
  split <;> rfl

theorem Fetches.result_of_indexBytes (h : m.Fetches w) {count : Nat}
    (hcount : w.indexBytes? = some count) : (m.step s).result = .ok (.decode w) := by
  refine h.result (fun hform => ?_) (fun hform => ?_) <;>
  · rw [indexBytes?_eq, hform] at hcount
    cases hcount

theorem Fetches.reports_wrap (h : m.Fetches w) {count : Nat}
    (hcount : w.indexBytes? = some count) :
    m.Reports s .step (if 0x1000 < m.registers.i.toNat + count then
      [⟨m.registers.pc, w, .indexWrapped m.registers.i.toNat count⟩] else []) := by
  have hdue := reports_step s m
  rw [h.dueReports (h.result_of_indexBytes hcount), anomalies_of_indexBytes hcount] at hdue
  split <;> rename_i hpast
  · rwa [if_pos hpast] at hdue
  · rwa [if_neg hpast] at hdue

/-- The last byte accessed is the first one to go past the end of memory; where none is
    accessed, the index does so on its own. -/
theorem past_end_iff {i count : Nat} : 0x1000 < i + count ↔
    (∃ k < count, 0xFFF < i + k) ∨ (count = 0 ∧ 0x1000 < i) := by
  constructor
  · intro hpast
    cases count with
    | zero => exact .inr ⟨rfl, hpast⟩
    | succ k => exact .inl ⟨k, Nat.lt_succ_self k, by omega⟩
  · rintro (⟨k, hk, hpast⟩ | ⟨-, hpast⟩) <;> omega

/-- When an access through the index register is reported to wrap round memory. The
    step executes the instruction, and either reports such an access and nothing else,
    or nothing at all. It does so if one of the bytes accessed has an address past the
    end of memory, before the address wraps round, or if no byte is accessed, by a
    sprite without rows, and the index is further on than the first address past the
    end. But for the latter, the reports tell the truth. -/
theorem reports_wrap_iff (s : Setup) (h : m.Fetches w) {count : Nat}
    (hcount : w.indexBytes? = some count) :
    let i := m.registers.i.toNat
    let report : Diagnostic := ⟨m.registers.pc, w, .indexWrapped i count⟩
    let wraps := ∃ k < count, 0xFFF < i + k
    let hollow := count = 0 ∧ 0x1000 < i
    (m.step s).result = .ok (.decode w) ∧
      (m.Reports s .step [report] ∨ m.Reports s .step []) ∧
      (m.Reports s .step [report] ↔ wraps ∨ hollow) ∧
      ((m.Reports s .step [report] ↔ wraps) ↔ ¬hollow) := by
  intro i report wraps hollow
  have hreports := h.reports_wrap (s := s) hcount
  have hboth : m.Reports s .step [report] ∨ m.Reports s .step [] := by
    split at hreports
    · exact .inl hreports
    · exact .inr hreports
  have hiff : m.Reports s .step [report] ↔ wraps ∨ hollow := by
    rw [← past_end_iff]
    split at hreports <;> rename_i hpast
    · exact iff_of_true hreports hpast
    · exact iff_of_false (fun hreport => absurd (hreport.length_eq hreports) (by simp)) hpast
  refine ⟨h.result_of_indexBytes hcount, hboth, hiff, ?_⟩
  rw [hiff]
  constructor
  · -- A sprite without rows has no byte whose address could be past the end.
    rintro hwraps ⟨hnone, hpast⟩
    obtain ⟨k, hk, -⟩ := hwraps.1 (.inr ⟨hnone, hpast⟩)
    omega
  · exact fun hnot => or_iff_left hnot

/-- A machine about to store `V0` and `V1` on both sides of the end of memory. -/
def aboutToWrap : Machine :=
  { powerOn {} with
    memory := (Memory.blank _).putAll 0x200 [0xF1, 0x55]
    registers := (Registers.blank 0x200).setIndex 0xFFF }

/-- This is reported. -/
theorem reports_wrap_iff_aboutToWrap :
    aboutToWrap.Fetches 0xF155 ∧ Word.indexBytes? 0xF155 = some 2 ∧
      aboutToWrap.Reports standardSetup .step [⟨0x200, 0xF155, .indexWrapped 0xFFF 2⟩] := by
  have hfetch : aboutToWrap.Fetches 0xF155 := ⟨rfl, by decide, by decide +kernel⟩
  have hcount : Word.indexBytes? 0xF155 = some 2 := by decide
  obtain ⟨-, -, hreports, -⟩ := reports_wrap_iff standardSetup hfetch hcount
  exact ⟨hfetch, hcount, hreports.2 (.inl ⟨1, by decide, by decide⟩)⟩

/-- A program that moves the index past the end of memory, and draws a sprite of no
    rows. -/
def emptySprite : List UInt8 := [0x60, 0x02, 0xAF, 0xFF, 0xF0, 0x1E, 0xD1, 0x20]

/-- The machine that is about to draw it. -/
def aboutToDrawNothing : Machine :=
  ({ powerOn {} with program := emptySprite }.reset {}).actAll standardSetup [.step, .step, .step]

/-- An access is reported to wrap round memory, and there is none. -/
theorem not_wraps_emptySprite :
    aboutToDrawNothing.Fetches 0xD120 ∧ Word.indexBytes? 0xD120 = some 0 ∧
      aboutToDrawNothing.Reports standardSetup .step
        [⟨0x206, 0xD120, .indexWrapped 0x1001 0⟩] ∧
      ¬∃ k < 0, 0xFFF < aboutToDrawNothing.registers.i.toNat + k := by
  have hfacts : aboutToDrawNothing.Fetches 0xD120 ∧
      dueReports standardSetup (aboutToDrawNothing, .step) =
        [⟨0x206, 0xD120, .indexWrapped 0x1001 0⟩] := by
    decide +kernel
  obtain ⟨hfetch, hdue⟩ := hfacts
  have hreports := reports_step standardSetup aboutToDrawNothing
  rw [hdue] at hreports
  refine ⟨hfetch, by decide, hreports, ?_⟩
  rintro ⟨k, hk, -⟩
  exact Nat.not_lt_zero k hk

end Machine

end Chip8
