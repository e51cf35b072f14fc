import Brainfuck.Tape
/-!
# Run configurations

What a run is allowed to use: its memory, its number of steps and its time, whether it watches a cancel flag, and what
`,` stores when the input has run out.
-/
namespace Brainfuck

inductive EofBehavior where
  | zero
  | unchanged
  | ones
  deriving DecidableEq, Repr

namespace EofBehavior

def ofName? : String → Option EofBehavior
  | "zero" | "0" => some .zero
  | "unchanged" | "keep" => some .unchanged
  | "ones" | "255" | "-1" => some .ones
  | _ => none

/-- The value `,` stores: the input byte if there is one, else what the behaviour makes of the old value. -/
def resolve (eof : EofBehavior) (old : UInt8) : Option UInt8 → UInt8
  | some byte => byte
  | none =>
    match eof with
    | .zero => 0
    | .unchanged => old
    | .ones => 255

end EofBehavior

/-- The bounds on instructions and on milliseconds are none for no limit.  A run that is not `cancellable` does not look
at its cancel flag. -/
structure Config where
  tape : TapePolicy := .standard
  eof : EofBehavior := .zero
  maxSteps : Option Nat := some 100000000
  deadline : Option Nat := none
  cancellable : Bool := false
  deriving DecidableEq, Repr

namespace Config

/-- The clock is read before every instruction whose number is a multiple of this. -/
def checkInterval : Nat := 4096

end Config

end Brainfuck
