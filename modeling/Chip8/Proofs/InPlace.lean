import Chip8.Proofs.Subroutine
import Chip8.Proofs.Guarded.Run

/-!
# Loading and resetting in place

A host keeps one machine and changes it part after part, so that a call that
gives up halfway leaves what it had changed until then. Resets and loads are
told in this way here (`InPlace`), in the order of their assignments; those that
may be refused store the font and the program in memory.

* `InPlace.reset_run`: nothing refuses a reset, and it leaves the machine that
  `Machine.reset` gives, if the stored program fits and the call stack has the
  limit that machines are made with (`Intact`);
* `InPlace.load_run_of_check`, `InPlace.load_run_of_refused`: a load does what
  `Machine.load` says, or gives up before anything has changed;
* `Event`, `occurAll`: histories of a machine, in which whatever is not the
  stored program or the limit of the stack may be overwritten;
* `Intact.occurAll`, `program_occurAll`: every history leaves the machine intact,
  with the program stored that was accepted last.
-/

namespace Chip8

/-- Why a load or a reset gives up. -/
inductive LoadFailure
  | program (e : ProgramError)
  | memory (e : MemoryError)
  deriving DecidableEq, Repr

/-- What changes a machine in place. A failure keeps the changes made before it. -/
abbrev InPlace := EStateM LoadFailure Machine

/-- The parts of a machine that resets rely on: the stored program fits, and the
    call stack has its limit. -/
structure Machine.Intact (c : Config) (m : Machine) : Prop where
  fits : m.Fits c
  limit : m.stack.limit = CallStack.standardLimit

namespace InPlace

variable {c : Config} {m m' : Machine}

theorem run_bind {α β : Type} {x : InPlace α} {a : α} (h : x.run m = .ok a m')
    (f : α → InPlace β) : (x >>= f).run m = (f a).run m' := by
  simp only [EStateM.run] at h
  simp only [EStateM.run, bind, EStateM.bind, h]

/-! ### Memory -/

/-- Stores a block in memory, unless memory refuses it. -/
def writeBlock (address : Int) (block : List UInt8) : InPlace Unit := do
  let m ← get
  match m.memory.writeBlock address block with
  | .ok memory => set { m with memory := memory }
  | .error e => throw (.memory e)

theorem writeBlock_run {start : Nat} {block : List UInt8} (hne : block ≠ [])
    (h : start + block.length ≤ Memory.standardSize) :
    (writeBlock start block).run m =
      .ok () { m with memory := m.memory.putAll start block } := by
  simp only [writeBlock, run_bind (show (get : InPlace Machine).run m = .ok m m from rfl),
    Memory.writeBlock_eq_ok m.memory hne (show 0 ≤ (start : Int) ∧ _ by omega)]
  rfl

/-- Stores the stored program in memory, if there is one. -/
def writeProgram (c : Config) : InPlace Unit := do
  let m ← get
  if m.program = [] then return else writeBlock c.loadOffset m.program

theorem writeProgram_run (h : c.loadOffset + m.program.length ≤ Memory.standardSize) :
    (writeProgram c).run m =
      .ok () { m with memory := m.memory.putAll c.loadOffset m.program } := by
  have hget : (get : InPlace Machine).run m = .ok m m := rfl
  rw [writeProgram, run_bind hget]
  split
  · -- There is nothing to store.
    have hmemory : m.memory.putAll c.loadOffset m.program = m.memory := by
      simp only [*, Memory.putAll]
    rw [hmemory]
    rfl
  · exact writeBlock_run ‹_› h

/-- Fills memory anew. -/
def refill (c : Config) : InPlace Unit := do
  modify fun m => { m with memory := Memory.blank _ }
  writeBlock Font.address Font.glyphs
  writeProgram c

theorem refill_run (h : m.Fits c) :
    (refill c).run m = .ok () { m with memory := Machine.image c.loadOffset m.program } := by
  have hclear : (modify fun m => { m with memory := Memory.blank _ } : InPlace Unit).run m =
      .ok () { m with memory := Memory.blank _ } := rfl
  have hfont : (writeBlock Font.address Font.glyphs).run { m with memory := Memory.blank _ } =
      .ok () { m with memory := (Memory.blank _).putAll Font.address Font.glyphs } :=
    writeBlock_run (by decide) (by decide)
  rw [refill, run_bind hclear, run_bind hfont, writeProgram_run, Machine.image]
  exact h

/-! ### The machine -/

/-- Puts every part but memory back to its start. -/
def restart (c : Config) : InPlace Unit := do
  modify fun m => { m with registers := Registers.blank c.loadOffset }
  modify fun m => { m with stack := m.stack.clear }
  modify fun m => { m with timers := ⟨0, 0⟩ }
  modify fun m => { m with display := m.display.clear.display }
  modify fun m => { m with keypad := m.keypad.forget }
  modify fun m => { m with diagnostics := [] }
  modify fun m => { m with opcode := 0 }
  modify fun m => { m with address := m.registers.pc }
  modify fun m => { m with awaiting := false }
  modify fun m => { m with fault := none }

/-- Resets the machine. -/
def reset (c : Config) : InPlace Unit := do
  refill c
  restart c

/-- Stores a program if it is accepted, and resets the machine. -/
def load (c : Config) (image : Image) : InPlace Unit := do
  match Program.check image c.loadOffset with
  | .ok program =>
    modify fun m => { m with program := program }
    reset c
  | .error e => throw (.program e)

theorem reset_run (h : m.Intact c) : (reset c).run m = .ok () (m.reset c) := by
  have hstack : m.stack.clear = CallStack.empty CallStack.standardLimit :=
    congrArg (CallStack.mk []) h.limit
  rw [reset, run_bind (refill_run h.fits), Machine.reset, ← hstack]
  rfl

/-- An accepted program is stored and the machine reset. -/
theorem load_run_of_check {image : Image} {program : List UInt8} (h : m.Intact c)
    (hcheck : Program.check image c.loadOffset = .ok program) :
    (load c image).run m = .ok () ({ m with program := program }.reset c) := by
  have hstore : (modify fun m => { m with program := program } : InPlace Unit).run m =
      .ok () { m with program := program } := rfl
  rw [load, hcheck]
  exact (run_bind hstore _).trans (reset_run ⟨Machine.length_of_check hcheck, h.limit⟩)

/-- A refusal comes before any change. -/
theorem load_run_of_refused {image : Image} {e : ProgramError}
    (hcheck : Program.check image c.loadOffset = .error e) :
    (load c image).run m = .error (.program e) m := by
  rw [load, hcheck]
  rfl

end InPlace

/-! ### Histories -/

/-- What happens to a machine. -/
inductive Event
  /-- The host makes a call. -/
  | call (op : Operation)
  /-- The machine is overwritten, all but its stored program and the limit of its
      call stack. -/
  | overwrite (other : Machine)

/-- The program that an event stores. -/
def Event.accepted? (c : Config) : Event → Option (List UInt8)
  | call (.load image) => (Program.check image c.loadOffset).toOption
  | _ => none

/-- The program accepted last among events. -/
def lastAccepted (c : Config) (es : List Event) : Option (List UInt8) :=
  (es.filterMap (Event.accepted? c)).getLast?

namespace Machine

variable {s : Setup} {c : Config} {m : Machine}

/-- The machine after an event. -/
def occur (s : Setup) (m : Machine) : Event → Machine
  | .call op => m.perform s op
  | .overwrite other =>
    { other with program := m.program, stack := ⟨other.stack.items, m.stack.limit⟩ }

/-- The machine after a sequence of events. -/
def occurAll (s : Setup) (m : Machine) (es : List Event) : Machine :=
  es.foldl (occur s) m

theorem intact_powerOn (c : Config) : (powerOn c).Intact c :=
  ⟨fits_powerOn c, rfl⟩

/-- No call changes the limit of the stack that machines are made with. -/
theorem limit_perform (h : m.stack.limit = CallStack.standardLimit) (op : Operation) :
    (m.perform s op).stack.limit = CallStack.standardLimit := by
  cases op with
  | load image =>
    simp only [perform]
    split
    · obtain ⟨program, -, rfl⟩ := load_eq_ok_iff.1 ‹_›
      rfl
    · exact h
  | reset => rfl
  | act a =>
    rw [perform, ← h]
    cases stackMove s m a with
    | stays stack => rw [stack]
    | calls address stack => rw [stack]
    | returns action result address rest items pc stack => rw [stack]

theorem Intact.occur (h : m.Intact s.config) (e : Event) : (m.occur s e).Intact s.config := by
  cases e with
  | call op => exact ⟨h.fits.perform op, limit_perform h.limit op⟩
  | overwrite other => exact ⟨h.fits, h.limit⟩

theorem Intact.occurAll (h : m.Intact s.config) (es : List Event) :
    (m.occurAll s es).Intact s.config := by
  induction es generalizing m with
  | nil => exact h
  | cons e es ih => exact ih (h.occur e)

/-- An event leaves the stored program alone, unless it stores one. -/
theorem program_occur (s : Setup) (m : Machine) (e : Event) :
    (m.occur s e).program = (e.accepted? s.config).getD m.program := by
  cases e with
  | overwrite other => rfl
  | call op =>
    cases op with
    | load image =>
      simp only [occur, perform, load, Event.accepted?]
      cases Program.check image s.config.loadOffset <;> rfl
    | reset => rfl
    | act a =>
      cases a with
      | step => exact program_step
      | tick => rfl
      | setKey k pressed => rw [occur, perform, act_setKey]; rfl

/-- The program accepted last is the one that is stored. -/
theorem program_occurAll (s : Setup) (m : Machine) (es : List Event) :
    (m.occurAll s es).program = (lastAccepted s.config es).getD m.program := by
  induction es generalizing m with
  | nil => rfl
  | cons e es ih =>
    have hfirst := program_occur s m e
    have hrest := ih (m.occur s e)
    simp only [lastAccepted] at hrest ⊢
    cases haccepted : e.accepted? s.config with
    | none =>
      rw [List.filterMap_cons_none haccepted]
      rw [haccepted] at hfirst
      exact hrest.trans (by rw [hfirst]; rfl)
    | some program =>
      rw [List.filterMap_cons_some haccepted, List.getLast?_cons]
      rw [haccepted] at hfirst
      rw [hfirst] at hrest
      exact hrest

end Machine

end Chip8
