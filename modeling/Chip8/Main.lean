import Chip8.CommandLine
import Chip8.Startup

/-!
# The program

Runs the emulator in a terminal: host calls become control sequences on the
standard output, lines typed on the standard input are handed over character by
character, and the log goes to the standard error.
-/

namespace Chip8.Main

/-- The control sequence of a number of codes and a final letter. -/
def control (codes : String) (final : String) : String := "\x1b[" ++ codes ++ final

/-- What a call writes to the terminal. -/
def sequence : HostCall → String
  | .openTerminal => control "?1049" "h"
  | .closeTerminal => control "?1049" "l"
  | .setCursor mode => control "?25" (if mode.truthy then "h" else "l")
  | .clearScreen => control "2" "J"
  | .beep => "\x07"
  | .write row column text reversed =>
    control (toString (row + 1) ++ ";" ++ toString (column + 1)) "H" ++
      control (if reversed then "7" else "0") "m" ++ text ++ control "0" "m"
  | _ => ""

/-- Makes calls. -/
def perform (calls : List HostCall) : IO Unit := do
  unless calls.isEmpty do
    let output ← IO.getStdout
    output.putStr (String.join (calls.map sequence))
    output.flush

/-- Writes log lines of a level and above. -/
def writeLog (least : Level) (lines : List LogLine) : IO Unit :=
  (lines.filter (·.atLeast least)).forM fun line => IO.eprintln line.shown

/-- The time in seconds. -/
def now : IO Float := do
  return Float.ofNat (← IO.monoNanosNow) / 1000000000.0

/-- Collects typed characters until the input ends. -/
partial def listen (typed : IO.Ref (List Int)) : IO Unit := do
  let line ← (← IO.getStdin).getLine
  if line.isEmpty then return
  typed.modify (· ++ line.toList.map fun c => Int.ofNat c.toNat)
  listen typed

/-- Looks at the clock until the session ends. -/
partial def watch (least : Level) (typed : IO.Ref (List Int)) (course : Course) (s : Session) :
    IO Session := do
  let characters ← typed.modifyGet fun waiting => (waiting, [])
  let after := s.observe course ⟨← now, characters.map .typed⟩
  perform (Startup.calls after.events)
  writeLog least (Startup.log after.events)
  let rested := { after with events := [] }
  match rested.exit? with
  | some _ => return rested
  | none => watch least typed course rested

/-- The content of a file. -/
def readFile (path : String) : IO (Except FileError (List UInt8)) := do
  try
    return .ok (← IO.FS.readBinFile path).toList
  catch
    | .inappropriateType .. => return .error .isFolder
    | _ => return .error .notFound

/-- Says why the program ends and gives its exit code. -/
def conclude (message : Option String) : IO UInt32 := do
  IO.eprintln (message.getD "The program cannot be run.")
  return 1

/-- Runs the emulator with options. -/
def run (options : Options) : IO UInt32 := do
  IO.println Startup.banner
  let content ← readFile (((options.value CommandLine.operandName).text?).getD "")
  let seed ← IO.rand 0 1000000000
  let random (k : Nat) : Int := Int.ofNat (randNat (mkStdGen (seed + k)) 0 255).1
  let surroundings : Surroundings := ⟨⟨false, true⟩, ⟨24, 80, false⟩, fun _ => content⟩
  match Startup.launch surroundings options random with
  | .error (e, calls) =>
    perform calls
    conclude e.message?
  | .ok (course, session) =>
    perform (Startup.calls session.events)
    let typed ← IO.mkRef []
    let _ ← IO.asTask (listen typed)
    let ended ← watch (Startup.logLevel options) typed course { session with events := [] }
    perform (Startup.calls (Startup.release ended).events)
    match ended.exit? with
    | some (.fault f) => conclude (some f.message)
    | some (.undrawn e) => conclude e.message?
    | _ => return 0

end Chip8.Main

/-- The command line of the emulator. -/
def main (arguments : List String) : IO UInt32 := do
  match Chip8.CommandLine.options arguments with
  | .ok options => Chip8.Main.run options
  | .error stop =>
    IO.eprintln ("usage: octachip [options] filename\n" ++ stop.message?.getD "")
    return UInt32.ofNat stop.code
