import Brainfuck.CommandLine.Arguments
import Brainfuck.CommandLine.Directory
import Brainfuck.Program.Listing
import Brainfuck.Run
/-!
# What a command answers

A command writes bytes to standard output, text to standard error, and ends with an exit code.  `respond` is the answer
of a whole command line as a function of the directory it runs in, its standard input and the clock; only the console,
which goes on talking, is not answered here.
-/
namespace Brainfuck

structure Response where
  exitCode : UInt8
  output : List UInt8 := []
  errors : String := ""
  deriving DecidableEq, Repr

namespace Response

/-- Bad arguments: the cause, then how to call the program. -/
def ofUsageError (program : String) (e : UsageError) : Response :=
  { exitCode := 1, errors := s!"Error: {e.message}\n\n" ++ usage program }

def fileNotFound (file : String) : Response :=
  { exitCode := 1, errors := s!"Error: File '{file}' not found\n" }

def unreadable (e : ReadFailure) : Response :=
  { exitCode := 1, errors := s!"Error: {e.message}\n" }

/-- Reports every unmatched bracket. -/
def check (source : String) : Response :=
  match diagnose source with
  | [] => { exitCode := 0, errors := "No bracket errors found.\n" }
  | found =>
    { exitCode := 1
      errors := String.join (found.map (fun u => u.render source ++ "\n\n")) ++
        s!"{found.length} error(s) found.\n" }

/-- Lists the instructions, or reports the bracket that has no partner. -/
def dump (source : String) : Response :=
  match Program.parse source with
  | .ok p =>
    { exitCode := 0
      output := p.listing.toUTF8.toList
      errors := s!"{p.size} instructions, {p.jumps.pairs} loop(s).\n" }
  | .error u => { exitCode := 1, errors := u.render source ++ "\n" }

/-- How a run that wrote `output` is reported. -/
def ofResult (source : String) (output : List UInt8) : Except RunError Stats → Response
  | .ok _ => { exitCode := 0, output }
  | .error e => { exitCode := 1, output, errors := "\n" ++ e.render source ++ "\n" }

/-- Runs a source text on an input; `clock` gives the milliseconds that so many steps take. -/
def run (clock : Nat → Nat) (patience : Nat) (config : Config) (source : String) (input : List UInt8) :
    Option Response :=
  let w : Setting (Array UInt8) (List UInt8) :=
    { config, sink := .collecting, source := .bytes, watch := { Watch.idle with elapsed := clock } }
  (runSource w patience source #[] input).map (fun o => ofResult source o.sink.toList o.result)

end Response

/-- The text of the source file, or the answer if there is no such file or it is no text. -/
def openSource (file : String) (found : Option Entry) : Except Response String :=
  match found with
  | none => .error (.fileNotFound file)
  | some entry =>
    match entry.text with
    | .error e => .error (.unreadable e)
    | .ok source => .ok source

/-- The answer of a command line; none for the console and for a run that does not end within `patience` rounds. -/
def respond (program : String) (directory : Directory) (clock : Nat → Nat) (patience : Nat) (args : List String)
    (input : List UInt8) : Option Response :=
  match Invocation.parse args with
  | .error e => some (.ofUsageError program e)
  | .ok invocation =>
    match openSource invocation.file (directory.find? invocation.file) with
    | .error response => some response
    | .ok source =>
      match invocation.mode with
      | .check => some (.check source)
      | .dump => some (.dump source)
      | .run => Response.run clock patience invocation.config source input
      | .interactive => none

end Brainfuck
