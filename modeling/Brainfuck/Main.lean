import Brainfuck.CommandLine.Response
import Brainfuck.Console.Frame
import Brainfuck.Drive
/-!
# The command

The outer layer: it reads the source file, gives a run the standard streams and the clock for its surroundings, and
feeds keys to the console.  What all of this means is settled in the modules it imports.
-/
namespace Brainfuck.Command

/-- The name under which the command explains itself. -/
def name : String := "brainfuck"

/-- What is found under the name of a file. -/
def entryAt (file : String) : IO (Option Entry) := do
  try
    let bytes ← IO.FS.readBinFile file
    return some (.file bytes.toList)
  catch
    | .noFileOrDirectory .. | .noSuchThing .. => return none
    -- the path goes on below a file
    | .inappropriateType _ 20 _ => return none
    | .inappropriateType .. => return some .directory
    | e => throw e

def report (r : Response) : IO UInt32 := do
  let output ← IO.getStdout
  output.write ⟨r.output.toArray⟩
  output.flush
  IO.eprint r.errors
  return r.exitCode.toUInt32

/-- The next byte of a stream; an error counts as its end. -/
def readByte (input : IO.FS.Stream) : IO (Option UInt8) := do
  try
    return (← input.read 1).toList.head?
  catch _ => return none

/-- Writes a byte at once; gives the cause if that failed. -/
def writeByte (output : IO.FS.Stream) (byte : UInt8) : IO (Option String) := do
  try
    output.write ⟨#[byte]⟩
    output.flush
    return none
  catch e => return some (toString e)

/-- The surroundings of a run that was started at a time.  The clock is read only for a run that has a deadline, and
nobody raises a flag. -/
def surroundings (c : Config) (started : Nat) (input output : IO.FS.Stream) : Surroundings IO where
  cancelled _ := pure false
  elapsed _ := if c.deadline.isSome then return (← IO.monoMsNow) - started else pure 0
  offer := writeByte output
  next := readByte input

/-- Bounds the rounds of a run without a step limit; so many take years. -/
def patience : Nat := 1000000000000000000

def runSource (c : Config) (source : String) : IO UInt32 := do
  let env := surroundings c (← IO.monoMsNow) (← IO.getStdin) (← IO.getStdout)
  match ← driveSource c env patience source with
  | some result => report (.ofResult source [] result)
  | none => throw (IO.userError "the run has not ended")

/-- The key a typed character stands for. -/
def keyOf : Char → Key
  | '\n' => .enter
  | '\t' => .tab
  | '\x1b' => .escape
  | '\x7f' => .backspace
  | c => .char c

/-- The characters of a screen, row by row. -/
def screenText (s : Screen) : String :=
  String.join (s.rows.map (fun row => String.join (row.map Cell.symbol) ++ "\n"))

/-- How many steps a run takes between two frames. -/
def stepsPerFrame : Nat := 10000000

/-- Shows a frame, takes a line of keys, and so on. -/
partial def converse (input output : IO.FS.Stream) (started : Nat) (a : App) : IO Unit := do
  let now ← IO.monoMsNow
  let (a, screen) := ((a.tick (now - started)).advanceRun stepsPerFrame).poll.draw 80 24
  output.putStr (screenText screen)
  output.flush
  if a.quit then return
  let line ← input.getLine
  if line.isEmpty then return
  let now ← IO.monoMsNow
  converse input output (if a.run.isSome then started else now) (line.toList.foldl (fun a c => a.press (keyOf c)) a)

/-- Opens the console on a source text. -/
def openConsole (c : Config) (source : String) : IO UInt32 := do
  let found := (diagnose source).length
  if found ≠ 0 then
    IO.eprintln s!"Warning: {found} bracket error(s); runs will fail until they are fixed."
  converse (← IO.getStdin) (← IO.getStdout) (← IO.monoMsNow) (App.new source c (fun _ => 0))
  return 0

/-- Carries out a command line. -/
def execute (args : List String) : IO UInt32 := do
  match Invocation.parse args with
  | .error e => report (.ofUsageError name e)
  | .ok invocation =>
    match openSource invocation.file (← entryAt invocation.file) with
    | .error response => report response
    | .ok source =>
      match invocation.mode with
      | .check => report (.check source)
      | .dump => report (.dump source)
      | .run => runSource invocation.config source
      | .interactive => openConsole invocation.config source

end Brainfuck.Command

def main (args : List String) : IO UInt32 := Brainfuck.Command.execute args
