import Chip8.Proofs.Formats
import Chip8.Proofs.Replies

/-!
# Machines that trace

A machine may trace what it executes: before an instruction is executed, its
mnemonic and all registers are written to the log. Here the trace is made from
its formats, which might fail, and then so would the call (`replies?`).

* `step?_eq`: it never does, whatever is decoded and whatever the registers hold;
* `reply_quiet`: a machine that does not trace gives the same reply to a call as
  one that does, less the lines for debugging in its log;
* `replies_debug`: neither therefore makes a difference in a whole run.
-/

namespace Chip8

/-- The reply with the lines of its log that are warnings or errors. -/
def Reply.serious (r : Reply) : Reply :=
  { r with log := r.log.filter (·.atLeast .warning) }

namespace Machine

variable {s : Setup} {m : Machine}

/-! ### Filling the formats -/

/-- The trace of an instruction about to be executed, if the formats of its
    mnemonic and of the registers can be filled. -/
def traceLine? (m : Machine) (ins : Instruction) : Option LogLine := do
  let mnemonic ← ins.describe?
  let dump ← m.registers.dump?
  return logLine .debug ("0x" ++ Hex.text 3 m.address ++ ": 0x" ++ Hex.text 4 ins.word.toNat ++
    " " ++ mnemonic ++ String.ofList (List.replicate (22 - mnemonic.length) ' ') ++ " " ++ dump)

/-- What a machine logs of an instruction for debugging. -/
def trace? (s : Setup) (m : Machine) (ins : Instruction) : Option (List LogLine) :=
  if s.debug then (m.traceLine? ins).map (· :: noteLines ins) else some []

/-- A step, if the trace of its instruction can be made. -/
def step? (s : Setup) (m : Machine) : Option StepResult :=
  match m.fault with
  | some fault => some ⟨m, .error fault, [], []⟩
  | none =>
    match m.nextWord? with
    | none => some (m.halt (.fetchOutside m.registers.pc) [])
    | some w => do
      let ins := Instruction.decode w
      let m := m.fetched w
      let trace ← m.trace? s ins
      match m.execute s ins with
      | .ok e => return commit e ins trace
      | .error cause => return m.halt cause trace

/-- The reply to a call, if all traces in it can be made. -/
def reply? (s : Setup) (m : Machine) : Operation → Option Reply
  | .act .step => (m.step? s).map StepResult.reply
  | op => some (m.reply s op)

/-- The replies to a sequence of calls, if all traces in them can be made. -/
def replies? (s : Setup) (m : Machine) : List Operation → Option (List Reply)
  | [] => some []
  | op :: ops => do
    let r ← m.reply? s op
    return r :: (← r.machine.replies? s ops)

theorem traceLine?_eq (m : Machine) (ins : Instruction) :
    m.traceLine? ins = some (m.traceLine ins) := by
  rw [traceLine?, describe?_eq, dump?_eq]
  rfl

theorem trace?_eq (s : Setup) (m : Machine) (ins : Instruction) :
    m.trace? s ins = some (if s.debug then m.traceLine ins :: noteLines ins else []) := by
  rw [trace?, traceLine?_eq]
  split <;> rfl

/-- The trace of a step can be made. -/
theorem step?_eq (s : Setup) (m : Machine) : m.step? s = some (m.step s) := by
  unfold step? step
  cases m.fault with
  | some fault => rfl
  | none =>
    cases m.nextWord? with
    | none => rfl
    | some w =>
      simp only [trace?_eq]
      cases (m.fetched w).execute s (.decode w) <;> rfl

theorem reply?_eq (s : Setup) (m : Machine) (op : Operation) :
    m.reply? s op = some (m.reply s op) := by
  unfold reply?
  split
  · rw [step?_eq]
    rfl
  · rfl

theorem replies?_eq (s : Setup) (m : Machine) (ops : List Operation) :
    m.replies? s ops = some (m.replies s ops) := by
  induction ops generalizing m with
  | nil => rfl
  | cons op ops ih =>
    simp only [replies?, reply?_eq, ih]
    rfl

/-! ### With and without a trace -/

/-- Executing an instruction does not depend on whether it is traced. -/
theorem execute_debug (b : Bool) (ins : Instruction) :
    m.execute { s with debug := b } ins = m.execute s ins :=
  rfl

/-- All that is traced is for debugging. -/
theorem not_serious_trace (ins : Instruction) :
    (m.traceLine ins :: noteLines ins).filter (·.atLeast .warning) = [] := by
  unfold noteLines
  split <;> rfl

theorem serious_commit {e : Effect} {ins : Instruction} {trace : List LogLine}
    (h : trace.filter (·.atLeast .warning) = []) :
    (commit e ins trace).reply.serious = (commit e ins []).reply := by
  unfold commit
  split
  · simp only [StepResult.reply, Reply.serious, List.filter_append, h]
    rfl
  · simp only [StepResult.reply, Reply.serious, h]

theorem serious_halt {cause : FaultCause} {trace : List LogLine}
    (h : trace.filter (·.atLeast .warning) = []) :
    (m.halt cause trace).reply.serious = (m.halt cause []).reply := by
  simp only [halt, StepResult.reply, Reply.serious, List.filter_append, h]
  rfl

theorem step_quiet (s : Setup) (m : Machine) :
    (m.step { s with debug := false }).reply =
      (m.step { s with debug := true }).reply.serious := by
  unfold step
  cases m.fault with
  | some fault => rfl
  | none =>
    cases m.nextWord? with
    | none => exact (serious_halt rfl).symm
    | some w =>
      simp only [execute_debug, Bool.false_eq_true, if_false, if_true]
      cases (m.fetched w).execute s (.decode w) with
      | ok e => exact (serious_commit (not_serious_trace _)).symm
      | error cause => exact (serious_halt (not_serious_trace _)).symm

/-- Without a trace a call has the same reply, less the lines of the trace. -/
theorem reply_quiet (s : Setup) (m : Machine) (op : Operation) :
    m.reply { s with debug := false } op = (m.reply { s with debug := true } op).serious := by
  cases op with
  | load image =>
    simp only [reply, answer]
    cases m.load s.config image <;> rfl
  | reset => rfl
  | act a =>
    cases a with
    | step => exact step_quiet s m
    | tick => rfl
    | setKey k pressed =>
      simp only [reply, answer]
      cases m.setKey k pressed <;> rfl

theorem replies_quiet (s : Setup) (m : Machine) (ops : List Operation) :
    m.replies { s with debug := false } ops =
      (m.replies { s with debug := true } ops).map Reply.serious := by
  induction ops generalizing m with
  | nil => rfl
  | cons op ops ih =>
    rw [replies, replies, List.map_cons, reply_quiet, ← ih]
    rfl

/-- Tracing changes nothing but the log, and of the log nothing but the lines for
    debugging. Of two machines that are made alike and to which the same calls are
    made, one traces and the other one does not. All traces of the first one can be
    made, so that no call fails because of them, and every call leaves the machines
    the same, with the same result or error and the same commands, and has the same
    warnings and errors in the log, which are all that the second one logs. -/
theorem replies_debug (s : Setup) (ops : List Operation) :
    let loud := { s with debug := true }
    let quiet := { s with debug := false }
    let m := powerOn s.config
    m.replies? loud ops = some (m.replies loud ops) ∧
      m.replies quiet ops = (m.replies loud ops).map Reply.serious := by
  intro loud quiet m
  exact ⟨replies?_eq loud m ops, replies_quiet s m ops⟩

end Machine

end Chip8
