import Brainfuck.Bracket
/-!
# Why a run fails

`RunError` lists the causes.  Those that an instruction caused carry its site; those that a bound of the configuration
or the host caused do not.  The wording is in `RunError.summary`; `describe` adds the location and `render` the line of
source it is about.
-/
namespace Brainfuck

/-- An overflow tells how many cells there are, a deadline its milliseconds, and a cancelled run how many steps it took.
-/
inductive RunError where
  | unmatched (bracket : UnmatchedBracket)
  | underflow (site : Site)
  | overflow (site : Site) (limit : Nat)
  | sink (site : Site) (cause : String)
  | stepLimit (limit : Nat)
  | deadline (limit : Nat)
  | cancelled (steps : Nat)
  deriving DecidableEq, Repr

/-- The kinds of failure a host may want to show in different ways. -/
inductive ErrorClass where
  | structural
  | bounds
  | resource
  | sink
  deriving DecidableEq, Repr

namespace RunError

def errorClass : RunError → ErrorClass
  | .unmatched _ => .structural
  | .underflow _ | .overflow _ _ => .bounds
  | .sink _ _ => .sink
  | .stepLimit _ | .deadline _ | .cancelled _ => .resource

/-- The site of the instruction at fault, if there is one. -/
def site? : RunError → Option Site
  | .unmatched u => some u.site
  | .underflow site | .overflow site _ | .sink site _ => some site
  | .stepLimit _ | .deadline _ | .cancelled _ => none

def location? (e : RunError) : Option Location := e.site?.map Site.location

def index? (e : RunError) : Option Nat := e.site?.map Site.index

/-- The cause in words, without its position. -/
def summary : RunError → String
  | .unmatched u => u.message
  | .underflow _ => "Tape underflow: moved left of cell 0"
  | .overflow _ limit => "Tape overflow: moved right past cell " ++ toString (limit - 1)
  | .sink _ cause => "Output sink failed: " ++ cause
  | .stepLimit limit => s!"Execution stopped: exceeded the step limit of {limit} instructions"
  | .deadline limit => s!"Execution stopped: exceeded the time limit of {limit} ms"
  | .cancelled steps => s!"Execution cancelled after {steps} steps"

/-- The cause and, if there is one, the location of the instruction at fault. -/
def describe (e : RunError) : String :=
  match e.location? with
  | some l => s!"{e.summary} at {l.describe}"
  | none => e.summary

/-- A caret diagnostic if there is an instruction at fault, else the cause alone. -/
def render (e : RunError) (source : String) : String :=
  match e.location? with
  | some l => Diagnostic.render source l e.summary
  | none => e.summary

end RunError

end Brainfuck
