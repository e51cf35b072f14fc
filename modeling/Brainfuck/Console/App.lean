import Brainfuck.Console.StatusBar
import Brainfuck.Delivery.BackgroundRun
import Brainfuck.Output.Buffer
/-!
# The console

The console holds a source text and the text its input is read from, runs the one on the other in the background, and
keeps what comes of it.  It is a state machine: keys and the events of the run change it (`App.press`, `App.poll`).
-/
namespace Brainfuck

/-- The panes that can have the focus. -/
inductive Pane where
  | source
  | output
  | input
  deriving DecidableEq, Repr

namespace Pane

def next : Pane → Pane
  | .source => .output
  | .output => .input
  | .input => .source

end Pane

inductive Key where
  | char (c : Char)
  | enter
  | escape
  | backspace
  | tab
  | up
  | down
  | other
  deriving DecidableEq, Repr

namespace Scroll

/-- The greatest scroll offset; drawing clamps it to the last lines, so it follows the output as that grows. -/
def tail : Nat := 18446744073709551615

def up (offset : Nat) : Nat := offset - 1

def down (offset : Nat) : Nat := min (offset + 1) tail

end Scroll

/-- By the `clock` so many steps of a run take so many milliseconds.  What `,` reads is the UTF-8 of `input`, to which
keys go while it is being edited.  `run` is the run in progress. -/
structure App where
  source : String
  config : Config
  clock : Nat → Nat
  output : OutputBuffer
  input : String := ""
  decoding : Decoding := .codePoints
  focus : Pane := .source
  sourceScroll : Nat := 0
  outputScroll : Nat := 0
  editing : Bool := false
  run : Option BackgroundRun := none
  state : RunState := .idle
  status : String := "Ready! Press r to run."
  quit : Bool := false

namespace App

/-- How many bytes of output are kept, roughly. -/
def retainedBytes : Nat := 1024 * 1024

def new (source : String) (config : Config) (clock : Nat → Nat) : App :=
  { source, config, clock, output := .withLimit retainedBytes }

/-- Puts another source text in place of the one there was; a run in progress goes on with the one it was given. -/
def load (source : String) (a : App) : App := { a with source }

/-- The place to mark in the source. -/
def fault? (a : App) : Option Location :=
  match a.state with
  | .failed e => e.location?
  | _ => none

/-! ## Runs -/

/-- Starts a run in place of the one in progress; a source that is only comment changes nothing but the status. -/
def startRun (a : App) : App :=
  if isOnlyComment a.source then { a with status := "Nothing to run" }
  else
    { a with
      output := a.output.clear
      outputScroll := 0
      run := some (.start a.source a.input.toUTF8.toList a.config a.clock)
      state := .running 0
      status := "Running..." }

/-- Asks the run in progress to stop. -/
def cancelRun (a : App) : App :=
  match a.run with
  | none => a
  | some r => { a with run := some r.cancel, status := "Stopping..." }

/-- The status after a run that failed; for an unmatched bracket it counts those of the source as it is now. -/
def failureStatus (source : String) (e : RunError) : String :=
  match e.errorClass with
  | .structural => s!"{e.describe} ({(diagnose source).length} bracket error(s))"
  | _ => e.describe

def finishRun (a : App) : Except RunError Stats → App
  | .ok stats =>
    { a with
      status := s!"Execution completed: {a.output.total} bytes output, {stats.cellsTouched} cells used"
      state := .finished stats }
  | .error e =>
    { a with
      status := failureStatus a.source e
      sourceScroll := match e.location? with
        | some l => l.line - 3
        | none => a.sourceScroll
      state := .failed e }

/-- Takes output of the run in progress, and shows its end. -/
def takeOutput (a : App) (chunk : Array UInt8) : App :=
  { a with output := a.output.extend chunk.toList, outputScroll := Scroll.tail }

/-- Takes one event; a result waits until the whole batch was taken. -/
def takeEvent (acc : App × Option (Except RunError Stats)) : Event → App × Option (Except RunError Stats)
  | .output chunk => (acc.1.takeOutput chunk, acc.2)
  | .finished result => (acc.1, some result)

/-- Takes in a batch of events; `r` is the run in progress after that. -/
def takeBatch (a : App) (events : List Event) (r : BackgroundRun) : App :=
  match events.foldl takeEvent ({ a with run := some r }, none) with
  | (a, some result) => { a with run := none }.finishRun result
  | (a, none) => a

/-- Takes a batch of events of the run in progress, whose worker may go on meanwhile. -/
def poll (a : App) (pauses : List Nat := []) : App :=
  match a.run with
  | none => a
  | some r =>
    match r.drain pauses with
    | (events, r) => a.takeBatch events r

/-- Lets the run in progress go on until it waits for the console, but for at most `fuel` steps. -/
def advanceRun (fuel : Nat) (a : App) : App :=
  match a.run with
  | none => a
  | some r =>
    let a := { a with run := none }
    { a with run := some (r.advance fuel) }

/-- Tells the run in progress, and the status bar, how many milliseconds have passed since it was started. -/
def tick (elapsed : Nat) (a : App) : App :=
  match a.run with
  | none => a
  | some r =>
    { a with
      run := some { r with job := { r.job with clock := fun _ => elapsed } }
      state := .running ((elapsed + 50) / 100) }

/-- Waits for the end of the run: up to `rounds` times it goes on for at most `fuel` steps and its events are taken. -/
def wait (fuel : Nat) : Nat → App → App
  | 0, a => a
  | rounds + 1, a => if a.run.isNone then a else wait fuel rounds (a.advanceRun fuel).poll

/-! ## Keys -/

/-- A key while the input text is being edited. -/
def edit (a : App) : Key → App
  | .enter | .escape => { a with editing := false, status := s!"Input set ({a.input.utf8ByteSize} bytes)" }
  | .backspace => { a with input := String.ofList a.input.toList.dropLast }
  | .char c => { a with input := a.input.push c }
  | _ => a

/-- Moves the offset of the pane that has the focus. -/
def scroll (move : Nat → Nat) (a : App) : App :=
  match a.focus with
  | .source => { a with sourceScroll := move a.sourceScroll }
  | .output => { a with outputScroll := move a.outputScroll }
  | .input => a

/-- Forgets the output, unless a run is in progress. -/
def clearOutput (a : App) : App :=
  match a.run with
  | some _ => a
  | none => { a with output := a.output.clear, outputScroll := 0, status := "Output cleared" }

/-- A key while no text is being edited. -/
def command (a : App) : Key → App
  | .char 'q' | .char 'Q' => { a with quit := true }
  | .char 'r' | .char 'R' => a.startRun
  | .escape => a.cancelRun
  | .char 'i' => { a with editing := true, focus := .input, status := "Editing input" }
  | .char 'u' => { a with decoding := a.decoding.toggle, status := s!"Showing output as {a.decoding.toggle.label}" }
  | .char 'c' => a.clearOutput
  | .tab => { a with focus := a.focus.next }
  | .up => a.scroll Scroll.up
  | .down => a.scroll Scroll.down
  | _ => a

def press (a : App) (k : Key) : App := if a.editing then a.edit k else a.command k

end App

end Brainfuck
