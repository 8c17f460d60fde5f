import Chip8.Buzzer
import Chip8.Clock
import Chip8.Machine.Step
import Chip8.Renderer

/-!
# Sessions

A session runs a machine in real time. It does so by looking at the clock over
and over, and everything it does follows a look (`Session.observe`):

* the first look of a run sets when the timers tick next, and the title;
* a *cycle* starts with a look. If a second has passed since the last report,
  the title tells how much was done. If the picture is due, the input is polled
  and the keys are taken over, which may take looks of its own, and the picture
  is shown. Then the timers make up for the ticks that are due, one instruction
  is executed, and the buzzer follows the sound timer;
* at a limited speed, looks go by until the next cycle may start.

A run ends (`Exit`) when it has executed as many instructions as it may, when
the input asks to quit, when the machine halts, when a pixel cannot be written,
or when looking at the clock is interrupted. Whichever it is, but for an
interrupt at the first look, the picture is shown once more and the buzzer is
switched off (`Session.finish`).

The session keeps what it did as `events`, the latest first.
-/

namespace Chip8

/-- Why a run ended. -/
inductive Exit
  /-- All instructions asked for are executed. -/
  | finished
  /-- The input asked to quit. -/
  | quit
  /-- The machine halted. -/
  | fault (f : Fault)
  /-- A look at the clock was interrupted. -/
  | interrupted
  /-- The renderer did not write a pixel. -/
  | undrawn (e : RendererError)
  /-- The timers never make up for the ticks that are due. -/
  | stalled
  deriving DecidableEq

/-- Why there is no time for an instruction at a speed. -/
inductive SpeedError
  /-- The speed is no number. -/
  | notANumber
  /-- The speed is beyond all binary fractions. -/
  | tooLarge
  deriving DecidableEq, Repr

/-- What the next look at the clock is for. -/
inductive Phase
  /-- It is the first of the run. -/
  | opening
  /-- It starts a cycle. -/
  | ready
  /-- It is the time of a poll in a cycle that started at `now`. -/
  | polling (now : Float)
  /-- It is the time at which a key is asked for. -/
  | sampling (now : Float) (key : Key)
  /-- It tells whether the next cycle may start. -/
  | waiting (resume : Float)
  /-- There is none. -/
  | ended (exit : Exit)

/-- Something that a session did. -/
inductive SessionEvent
  /-- The renderer carried out a command. -/
  | told (c : RenderCommand)
  /-- The host was called. -/
  | called (c : HostCall)
  /-- The buzzer was switched. -/
  | switched (on : Bool)
  /-- The input was polled. -/
  | polled (quits : Bool)
  /-- A key of the machine was set. -/
  | keySet (key : Key) (pressed : Bool)
  /-- The timers ticked. -/
  | ticked
  /-- An instruction was executed. -/
  | stepped (i : Instruction)
  /-- An instruction was to be executed, but the machine is halted. -/
  | halted (f : Fault)
  /-- A line was written to the log. -/
  | logged (line : LogLine)

/-- What a run goes by: how the machine is set up, the time an instruction is
    to take at least, and how many instructions to execute at most. -/
structure Course where
  setup : Setup
  interval : Option Float
  limit : Option Int

/-- The state of a session. -/
structure Session where
  machine : Machine
  input : Input
  renderer : Renderer
  buzzer : Buzzer
  /-- Whether the session has switched the buzzer on. -/
  buzzing : Bool
  /-- When the timers tick next. -/
  nextTick : Float
  /-- When the picture is due next. -/
  nextFrame : Float
  /-- When the title is due next. -/
  nextReport : Float
  /-- Pictures shown since the last title. -/
  frames : Nat
  /-- Instructions executed since the last title. -/
  operations : Nat
  /-- Instructions executed in this run. -/
  cycles : Nat
  phase : Phase
  events : List SessionEvent

namespace Session

/-- Instructions per second unless a speed is asked for. -/
def standardSpeed : Nat := 700

/-- The time between ticks. -/
def tickInterval : Float := 1.0 / Timers.frequency

/-- The time between pictures. -/
def frameInterval : Float := 1.0 / Display.frequency

/-- The time that an instruction takes at least at a speed; there is none for
    no speed, and for speeds that are not positive. -/
def interval (speed : Value) : Except SpeedError (Option Float) :=
  match speed, speed.number? with
  | .null, _ => .ok none
  | _, none => .error .notANumber
  | _, some (.whole k) =>
    if k ≤ 0 then .ok none
    else if (Float.ofInt k).isInf then .error .tooLarge
    else .ok (some (1.0 / Float.ofInt k))
  | _, some (.real x) => .ok (if x ≤ 0.0 then none else some (1.0 / x))

/-- A session that has not run yet. -/
def start (machine : Machine) (input : Input) (renderer : Renderer) (buzzer : Buzzer) :
    Session where
  machine := machine
  input := input
  renderer := renderer
  buzzer := buzzer
  buzzing := false
  nextTick := 0.0
  nextFrame := 0.0
  nextReport := 0.0
  frames := 0
  operations := 0
  cycles := 0
  phase := .opening
  events := []

/-- The session with one more event. -/
def record (s : Session) (e : SessionEvent) : Session :=
  { s with events := e :: s.events }

/-- The session with more events, in the order in which they came. -/
def recordAll (s : Session) (es : List SessionEvent) : Session :=
  { s with events := es.reverse ++ s.events }

/-! ### Renderer, buzzer and keys -/

/-- Tells the renderer something; a command that it does not carry out leaves
    the session as it is. -/
def tell (s : Session) (c : RenderCommand) : Session × Option RendererError :=
  match s.renderer.handle c with
  | .ok (renderer, calls) =>
    ({ s with renderer := renderer }.recordAll (.told c :: calls.map .called), none)
  | .error e => (s, some e)

/-- Tells the renderer one thing after the other, up to the first that it does
    not carry out; whether it carried out any. -/
def tellAll (s : Session) : List RenderCommand → Session × Bool × Option RendererError
  | [] => (s, false, none)
  | c :: rest =>
    match s.tell c with
    | (after, none) =>
      let (last, _, problem) := after.tellAll rest
      (last, true, problem)
    | (_, some e) => (s, false, some e)

/-- Sets the title to what was done. -/
def report (s : Session) (frames operations : Nat) : Session :=
  (s.tell (.title (Product.name ++ " - " ++ toString frames ++ " FPS, " ++
    toString operations ++ " OPS"))).1

/-- Shows the picture. -/
def refresh (s : Session) : Session :=
  let drawing := s.machine.display.refresh
  ({ s with machine := { s.machine with display := drawing.display } }.tellAll drawing.commands).1

/-- Switches the buzzer. -/
def switch (s : Session) (on : Bool) : Session :=
  let (buzzer, calls) := s.buzzer.switch on
  { s with buzzer := buzzer, buzzing := on }.recordAll (.switched on :: calls.map .called)

/-- Switches the buzzer if it does not go with the sound timer. -/
def syncBuzzer (s : Session) : Session :=
  if s.machine.sounding = s.buzzing then s else s.switch s.machine.sounding

/-- Takes the state of a key over from the input. -/
def takeKey (s : Session) (now : Float) (key : Key) : Session :=
  let pressed := s.input.isHeld now key
  { s with machine := { s.machine with keypad := s.machine.keypad.set key pressed } }.record
    (.keySet key pressed)

/-! ### Cycles -/

/-- Ends the run: the picture is shown once more, and the buzzer falls silent. -/
def finish (s : Session) (exit : Exit) : Session :=
  let shown := s.refresh
  let silent := if shown.buzzing then shown.switch false else shown
  { silent with phase := .ended exit }

/-- Whether the run has executed as many instructions as it may. -/
def atLimit (c : Course) (s : Session) : Bool :=
  match c.limit with
  | none => false
  | some limit => limit ≤ s.cycles

/-- Starts another cycle if there is one to come. -/
def next (c : Course) (s : Session) : Session :=
  if s.atLimit c then s.finish .finished else { s with phase := .ready }

/-- Ticks the timers once. -/
def tick (s : Session) : Session :=
  { s with machine := s.machine.tick, nextTick := s.nextTick + tickInterval }.record .ticked

/-- Ticks the timers until none is due, `fuel` times at most. There is no end to
    it where a tick's interval is lost by rounding. -/
def catchUp (now : Float) : Nat → Session → Option Session
  | 0, _ => none
  | fuel + 1, s =>
    if s.nextTick ≤ now then
      if s.nextTick + tickInterval = s.nextTick then none else catchUp now fuel s.tick
    else some s

/-- More ticks than can be due at different times, of which there are no more
    than words of 64 bits. -/
def tickBound : Nat := UInt64.size + 1

/-- Settles a cycle: the buzzer follows the sound timer, and the instruction is
    counted. -/
def settle (s : Session) : Session :=
  let synced := s.syncBuzzer
  { synced with cycles := synced.cycles + 1, operations := synced.operations + 1 }

/-- Ends the cycle that an instruction was executed in. -/
def complete (c : Course) (now : Float) (s : Session) : Session :=
  match c.interval with
  | none => s.settle.next c
  | some interval => { s.settle with phase := .waiting (now + interval) }

/-- The session with its machine after a step, and the log of it. -/
def take (s : Session) (result : StepResult) : Session :=
  { s with machine := result.machine }.recordAll (result.log.map .logged)

/-- Executes an instruction. Its pixels go to the renderer one by one, and count
    as a change of the picture as soon as one has been written. -/
def execute (c : Course) (now : Float) (s : Session) : Session :=
  let before := s.machine.display
  let result := s.machine.step c.setup
  match result.result with
  | .error f => ((s.take result).record (.halted f)).finish (.fault f)
  | .ok i =>
    match (s.take result).tellAll result.commands with
    | (s, _, none) => (s.record (.stepped i)).complete c now
    | (s, written, some e) =>
      let display := { s.machine.display with changed := before.changed || written }
      { s with machine := { s.machine with display := display } }.finish (.undrawn e)

/-- Ticks the timers and executes an instruction. -/
def advance (c : Course) (now : Float) (s : Session) : Session :=
  match s.catchUp now tickBound with
  | some s => s.execute c now
  | none => { s with phase := .ended .stalled }

/-- Shows the picture that is due at a time, and counts it. -/
def frame (s : Session) (now : Float) : Session :=
  let shown := { s with nextFrame := now + frameInterval }.refresh
  { shown with frames := shown.frames + 1 }

/-- Shows the picture and goes on with the cycle. -/
def showFrame (c : Course) (now : Float) (s : Session) : Session :=
  (s.frame now).advance c now

/-- Takes all keys over at the same time. -/
def takeKeys (s : Session) (now : Float) : Session :=
  (List.finRange 16).foldl (fun s key => s.takeKey now key) s

/-- Polls the input at a time, in a cycle that started at `now`. -/
def poll (c : Course) (now time : Float) (s : Session) : Session :=
  let (input, quits) := s.input.poll time
  let s := { s with input := input }.record (.polled quits)
  if quits then
    (s.record (.logged ⟨.session, .info,
      "Quit requested after " ++ toString s.cycles ++ " instructions"⟩)).finish .quit
  else if s.input.timed then { s with phase := .sampling now 0 }
  else (s.takeKeys time).showFrame c now

/-- Sets the title to what was done since the last time. -/
def sumUp (s : Session) (now : Float) : Session :=
  { s.report s.frames s.operations with
    nextReport := (if now < 0.0 then now.ceil else now.floor) + 1.0
    frames := 0
    operations := 0 }

/-- Starts a cycle. -/
def startCycle (c : Course) (now : Float) (s : Session) : Session :=
  let s := if s.nextReport ≤ now then s.sumUp now else s
  if s.nextFrame ≤ now then
    if s.input.timed then { s with phase := .polling now } else s.poll c now now
  else s.advance c now

/-- What a look at the clock leads to. -/
def observe (c : Course) (s : Session) (r : Reading) : Session :=
  let s := { s with input := r.arrivals.foldl Input.deliver s.input }
  match s.phase with
  | .opening =>
    ({ s with nextTick := r.time + tickInterval, nextFrame := 0.0 }.report 0 0).next c
  | .ready => s.startCycle c r.time
  | .polling now => s.poll c now r.time
  | .sampling now key =>
    let taken := s.takeKey r.time key
    if h : key.val + 1 < 16 then { taken with phase := .sampling now ⟨key.val + 1, h⟩ }
    else taken.showFrame c now
  | .waiting resume => if r.time < resume then s else s.next c
  | .ended _ => s

/-- What an interrupted look at the clock leads to. -/
def interrupt (s : Session) : Session :=
  match s.phase with
  | .opening => { s with phase := .ended .interrupted }
  | .ended _ => s
  | _ => s.finish .interrupted

/-! ### Runs -/

/-- The exit of a run that has ended. -/
def exit? (s : Session) : Option Exit :=
  match s.phase with
  | .ended exit => some exit
  | _ => none

/-- Looks at the clock until the run ends. -/
def drive (c : Course) (s : Session) : Clock → Session × Clock
  | [] => (s.interrupt, [])
  | r :: rest =>
    let after := s.observe c r
    match after.exit? with
    | some _ => (after, rest)
    | none => after.drive c rest

/-- The session at the start of a run, its events forgotten. -/
def begin (s : Session) : Session :=
  { s with phase := .opening, cycles := 0, events := [] }

/-- A run: the session afterwards, and the clock as it was left. -/
def run (c : Course) (s : Session) (clock : Clock) : Session × Clock :=
  s.begin.drive c clock

end Session

end Chip8
