import Brainfuck.Location
import Brainfuck.Text.Lines
/-!
# Caret diagnostics

A diagnostic shows the line of the source that a message is about, and under it a row of dashes that ends in a caret
below the character meant:

    Line 1: ++.,<<>>]
    ----------------^ Error here

    Found a closing ']' without an opening '['
-/
namespace Brainfuck

namespace Diagnostic

/-- What stands before the text of the line. -/
def heading (line : Nat) : String := s!"Line {line}: "

/-- The text of a line counted from 1; line 0 is read as line 1, and a line past the end is empty. -/
def lineText (source : String) (line : Nat) : String :=
  String.ofList ((Text.lines source).getD (line - 1) [])

/-- How many dashes lead up to the caret. -/
def dashes (l : Location) : Nat := (heading l.line).length + (l.column - 1)

def render (source : String) (l : Location) (message : String) : String :=
  heading l.line ++ lineText source l.line ++ "\n" ++
    String.ofList (List.replicate (dashes l) '-') ++ "^ Error here\n\n" ++ message

end Diagnostic

end Brainfuck
