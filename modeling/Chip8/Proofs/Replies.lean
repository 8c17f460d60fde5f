import Chip8.Proofs.Run

/-!
# Replies

What a host sees of a call: the machine that it leaves, the instruction it
executed or why it failed, what the renderer is told, and the lines for the log
(`Reply`). Two machines that give the same replies to the same calls cannot be
told apart by any host (`Machine.replies`).
-/

namespace Chip8

/-- Why a call fails; what it holds tells the message. -/
inductive CallError
  /-- A step finds or makes the machine halted. -/
  | fault (f : Fault)
  /-- A program is refused. -/
  | program (e : ProgramError)
  /-- A key is not on the keypad. -/
  | key (e : KeypadError)
  deriving DecidableEq

/-- What a host sees of a call. -/
structure Reply where
  machine : Machine
  /-- The instruction, if the call was a step. -/
  result : Except CallError (Option Instruction)
  commands : List RenderCommand
  log : List LogLine

/-- The reply to a step. -/
def StepResult.reply (r : StepResult) : Reply where
  machine := r.machine
  result := (r.result.map some).mapError .fault
  commands := r.commands
  log := r.log

namespace Machine

variable {s : Setup} {m : Machine}

/-- The reply to a call that goes through or leaves the machine as it is. -/
def answer {ε : Type} (m : Machine) (called : Except ε Machine) (failure : ε → CallError)
    (commands : List RenderCommand) : Reply :=
  match called with
  | .ok m' => ⟨m', .ok none, commands, []⟩
  | .error e => ⟨m, .error (failure e), [], []⟩

/-- The reply to a call. -/
def reply (s : Setup) (m : Machine) : Operation → Reply
  | .load image => m.answer (m.load s.config image) .program resetCommands
  | .reset => ⟨m.reset s.config, .ok none, resetCommands, []⟩
  | .act .step => (m.step s).reply
  | .act .tick => ⟨m.tick, .ok none, [], []⟩
  | .act (.setKey k pressed) => m.answer (m.setKey k pressed) .key []

/-- The replies to a sequence of calls. -/
def replies (s : Setup) (m : Machine) : List Operation → List Reply
  | [] => []
  | op :: ops => m.reply s op :: (m.reply s op).machine.replies s ops

/-- The reply tells the machine after the call. -/
theorem machine_reply (s : Setup) (m : Machine) (op : Operation) :
    (m.reply s op).machine = m.perform s op := by
  cases op with
  | load image =>
    simp only [reply, answer, perform]
    cases m.load s.config image <;> rfl
  | reset => rfl
  | act a =>
    cases a with
    | step => rfl
    | tick => rfl
    | setKey k pressed =>
      simp only [reply, answer, perform, act]
      cases m.setKey k pressed <;> rfl

end Machine

end Chip8
