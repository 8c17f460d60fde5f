import Chip8.Folder
import Chip8.Plugins
import Chip8.Session

/-!
# From start to end

The emulator is started with options, reads its configuration and its program
from them, and takes over what it needs of the host. Only then is a session
run, and whatever ends it, the host gets everything back.

* `Startup.prepare`: the part before the host is touched, checking the
  configuration, the program and what the host can do;
* `Startup.connect`: taking the host over, renderer first. A refused keymap
  closes the renderer again;
* `Startup.launch`: a session with the program loaded, or the calls up to the
  failure;
* `Startup.release`: the host given back, buzzer first;
* `Startup.execute`: all of it with a clock.
-/

namespace Chip8

/-- What surrounds the emulator: what the host can do, its terminal, and the
    content of its files. -/
structure Surroundings where
  can : Capabilities
  terminal : Renderer.TerminalHost
  read : String → Except FileError (List UInt8)

/-- Why the emulator does not start. -/
inductive StartFailure
  | config (e : ConfigError)
  /-- No program is named. -/
  | unnamed
  /-- The name of the program is not text. -/
  | notAPath
  | file (e : FileError)
  | program (e : ProgramError)
  | plugins (e : PluginError)
  | renderer (e : RendererError)
  /-- The keymap is not text. -/
  | notAKeymap
  | keymap (e : KeymapError)
  | wave (e : WaveError)
  | speed (e : SpeedError)

/-- The text of a failure that has one. -/
def StartFailure.message? : StartFailure → Option String
  | config e => e.message?
  | program e => some e.message
  | plugins e => e.message?
  | renderer e => e.message?
  | keymap e => e.message?
  | _ => none

/-- What came of it all: why there was no session or how it ended, the calls to
    the host and the log in order, and the clock as it was left. -/
structure Report where
  outcome : Except StartFailure Exit
  calls : List HostCall
  log : List LogLine
  clock : Clock

/-- Options by their names. -/
abbrev Options := List (String × Value)

namespace Options

/-- The value of an option, null if there is none. -/
def value (o : Options) (name : String) : Value := (Config.lookup o name).getD .null

/-- The value of an option, or another one if it does not count as a yes. -/
def valueOr (o : Options) (name : String) (other : Value) : Value :=
  if (o.value name).truthy then o.value name else other

end Options

namespace Startup

/-- What is said first. -/
def banner : String := Product.intro ++ Product.notice

/-- The least level that is written out. -/
def logLevel (o : Options) : Level :=
  if (o.value "debug").truthy then .debug else .warning

/-- What is known before the host is taken over. -/
structure Plan where
  config : Config
  program : List UInt8
  plugins : Plugins

/-- The content of the program file that an option names. -/
def readProgram (w : Surroundings) (o : Options) : Except StartFailure (List UInt8) :=
  match Config.lookup o "filename" with
  | none => .error .unnamed
  | some (.text path) => (w.read path).mapError .file
  | some _ => .error .notAPath

/-- Makes a plan. -/
def prepare (w : Surroundings) (o : Options) : Except StartFailure Plan := do
  let config ← (Config.ofOptions o).mapError StartFailure.config
  let content ← readProgram w o
  let program ← (Program.check (.bytes content) config.loadOffset).mapError StartFailure.program
  let plugins ← (Plugins.select w.can (o.value "renderer") (o.value "mute")).mapError
    StartFailure.plugins
  return ⟨config, program, plugins⟩

/-- The input of a kind that goes with an option's keymap. -/
def startInput (kind : InputKind) (o : Options) : Except StartFailure Input :=
  match o.valueOr "keymap" (.text Keymap.standardText) with
  | .text keymap => (Input.start kind keymap).mapError .keymap
  | _ => .error .notAKeymap

/-- A session, or a failure with the calls made until then. -/
abbrev Attempt := Except (StartFailure × List HostCall) Session

/-- Takes the host over; the machine is just switched on. -/
def connect (w : Surroundings) (o : Options) (p : Plan) : Attempt :=
  let options : Renderer.Options :=
    ⟨o.value "scale", o.value "pygame_palette", o.valueOr "curses_cursor_mode" (.number (.whole 0)),
      w.terminal⟩
  match Renderer.start p.plugins.renderer options with
  | (.error e, calls) => .error (.renderer e, calls)
  | (.ok renderer, calls) =>
    match startInput p.plugins.input o with
    | .error e => .error (e, calls ++ renderer.closeCalls)
    | .ok input =>
      match Buzzer.start p.plugins.buzzer (.real SquareWave.toneFrequency) with
      | (.error e, more) => .error (.wave e, calls ++ more)
      | (.ok buzzer, more) =>
        .ok ((Session.start (Machine.powerOn p.config) input renderer buzzer).recordAll
          ((calls ++ more).map .called))

/-- The calls among events, in order. -/
def calls (events : List SessionEvent) : List HostCall :=
  events.reverse.filterMap fun
    | .called c => some c
    | _ => none

/-- The log lines among events, in order. -/
def log (events : List SessionEvent) : List LogLine :=
  events.reverse.filterMap fun
    | .logged line => some line
    | _ => none

/-- The host given back. -/
def release (s : Session) : Session :=
  { s with input := s.input.close }.recordAll
    ((s.buzzer.closeCalls ++ s.renderer.closeCalls).map .called)

/-- The failure of a session that has taken the host over. -/
def abandon {α : Type} (s : Session) (e : StartFailure) :
    Except (StartFailure × List HostCall) α :=
  .error (e, calls (release s).events)

/-- Tells the renderer of a machine being switched on. A failure keeps the host. -/
def powerOn (s : Session) : Attempt :=
  match s.tellAll Machine.powerOnCommands with
  | (s, _, none) => .ok s
  | (s, _, some e) => .error (.renderer e, calls s.events)

/-- Loads the program. A failure gives the host back. -/
def load (p : Plan) (s : Session) : Attempt :=
  match s.machine.load p.config (.bytes p.program) with
  | .error e => abandon s (.program e)
  | .ok machine =>
    match { s with machine := machine }.tellAll Machine.resetCommands with
    | (s, _, none) => .ok s
    | (s, _, some e) => abandon s (.renderer e)

/-- The speed that an option gives. -/
def speed (o : Options) : Value :=
  match o.value "clock_speed" with
  | .null => .number (.whole Session.standardSpeed)
  | given => given

/-- A session with the program loaded and what it goes by, or a failure. -/
def launch (w : Surroundings) (o : Options) (random : Nat → Int) :
    Except (StartFailure × List HostCall) (Course × Session) := do
  let plan ← (prepare w o).mapError fun e => (e, [])
  let session ← connect w o plan
  let session ← powerOn session
  let session ← load plan session
  match Session.interval (speed o) with
  | .ok interval =>
    return (⟨⟨plan.config, random, (o.value "debug").truthy⟩, interval, none⟩, session)
  | .error e => abandon session (.speed e)

/-- The end of a session that has run: why it ended, and what it did. -/
def report (s : Session) (clock : Clock) : Report :=
  let s := release s
  ⟨.ok (s.exit?.getD .interrupted), calls s.events, log s.events, clock⟩

/-- Starts the emulator and runs it until it ends. -/
def execute (w : Surroundings) (o : Options) (random : Nat → Int) (clock : Clock) : Report :=
  match launch w o random with
  | .error (e, calls) => ⟨.error e, calls, [], clock⟩
  | .ok (course, session) =>
    let (ended, left) := session.drive course clock
    report ended left

end Startup

end Chip8
