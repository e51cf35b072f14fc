import Brainfuck.Config
import Brainfuck.Text.Number
/-!
# Command line arguments

An argument list is read from left to right as a sequence of units: a mode flag, an option with its value, or the name
of the source file, of which there is exactly one.  The argument after an option is its value, whatever it looks like.
For each option, and for the mode, the last unit counts.
-/
namespace Brainfuck

/-- What is to be done with the source file: open the console on it, run it, report its unmatched brackets, or list its
instructions. -/
inductive Mode where
  | interactive
  | run
  | check
  | dump
  deriving DecidableEq, Repr

/-- An argument list that was understood. -/
structure Invocation where
  mode : Mode
  file : String
  config : Config
  deriving DecidableEq, Repr

/-- The options that take a value. -/
inductive ValueOption where
  | maxSteps
  | timeoutMs
  | tapeCells
  | eof
  deriving DecidableEq, Repr

/-- Why an argument list was not understood. -/
inductive UsageError where
  | missingValue (flag : String)
  | notANumber (flag value : String)
  | noCells
  | unknownEof (name : String)
  | unknownOption (flag : String)
  | secondFile
  | noFile
  deriving DecidableEq, Repr

namespace UsageError

def message : UsageError → String
  | .missingValue flag => s!"{flag} expects a value"
  | .notANumber flag value => s!"{flag} expects a number, got '{value}'"
  | .noCells => "--tape-cells must be at least 1"
  | .unknownEof name => s!"unknown --eof behaviour '{name}'"
  | .unknownOption flag => s!"unknown option '{flag}'"
  | .secondFile => "only one input file may be given"
  | .noFile => "no input file provided"

end UsageError

namespace Mode

def ofFlag? : String → Option Mode
  | "--run" | "-r" => some .run
  | "--check" => some .check
  | "--dump" => some .dump
  | _ => none

end Mode

namespace ValueOption

def ofFlag? : String → Option ValueOption
  | "--max-steps" => some .maxSteps
  | "--timeout-ms" => some .timeoutMs
  | "--tape-cells" => some .tapeCells
  | "--eof" => some .eof
  | _ => none

def flag : ValueOption → String
  | .maxSteps => "--max-steps"
  | .timeoutMs => "--timeout-ms"
  | .tapeCells => "--tape-cells"
  | .eof => "--eof"

/-- The number an option is given. -/
def number (o : ValueOption) (value : String) : Except UsageError Nat :=
  match Text.unsigned64? value with
  | some n => .ok n
  | none => .error (.notANumber o.flag value)

/-- The configuration with an option set. -/
def apply (o : ValueOption) (value : String) (c : Config) : Except UsageError Config :=
  match o with
  | .maxSteps => (o.number value).map (fun n => { c with maxSteps := if n = 0 then none else some n })
  | .timeoutMs => (o.number value).map (fun n => { c with deadline := some n })
  | .tapeCells =>
    match o.number value with
    | .error e => .error e
    | .ok n => if n = 0 then .error .noCells else .ok { c with tape := .fixed n }
  | .eof =>
    match EofBehavior.ofName? value with
    | some behaviour => .ok { c with eof := behaviour }
    | none => .error (.unknownEof value)

end ValueOption

namespace Invocation

/-- What the arguments so far have settled. -/
structure Draft where
  mode : Mode := .interactive
  file : Option String := none
  config : Config := {}
  deriving DecidableEq, Repr

/-- Reads the arguments that are left. -/
def parseFrom (d : Draft) : List String → Except UsageError Invocation
  | [] =>
    match d.file with
    | some file => .ok ⟨d.mode, file, d.config⟩
    | none => .error .noFile
  | arg :: rest =>
    match Mode.ofFlag? arg, ValueOption.ofFlag? arg with
    | some mode, _ => parseFrom { d with mode } rest
    | none, some o =>
      match rest with
      | [] => .error (.missingValue arg)
      | value :: rest =>
        match o.apply value d.config with
        | .ok config => parseFrom { d with config } rest
        | .error e => .error e
    | none, none =>
      if arg.toList.head? = some '-' then .error (.unknownOption arg)
      else
        match d.file with
        | some _ => .error .secondFile
        | none => parseFrom { d with file := some arg } rest

/-- Reads an argument list, without the name of the program. -/
def parse (args : List String) : Except UsageError Invocation := parseFrom {} args

end Invocation

/-- How to call the program, whose name is given. -/
def usage (program : String) : String :=
  s!"Usage: {program} [--run|--check|--dump] [options] <file.b>\n" ++
    "\n" ++
    "Modes:\n" ++
    "  (default)          Open the terminal UI\n" ++
    "  --run              Run headless: stdin feeds ',', stdout receives '.'\n" ++
    "  --check            Report every bracket error\n" ++
    "  --dump             Print the parsed instruction listing\n" ++
    "\n" ++
    "Options:\n" ++
    "  --max-steps N      Instruction budget (0 = unlimited)\n" ++
    "  --timeout-ms N     Wall-clock budget in milliseconds\n" ++
    "  --tape-cells N     Use a fixed tape of N cells\n" ++
    "  --eof zero|unchanged|ones\n" ++
    "                     What ',' stores when input runs out\n"

end Brainfuck
