/-!
# Positions in a source text

A character of a source text has an index, counted in characters from 0, and a location: a line and a column, both
counted from 1.  Only `\n` ends a line.  `locate` finds the location of an index by walking the characters before it.
-/
namespace Brainfuck

/-- A line and a column; the first character of a text stands at line 1, column 1. -/
structure Location where
  line : Nat
  column : Nat
  deriving DecidableEq, Repr

namespace Location

def start : Location := ⟨1, 1⟩

/-- The location that follows a character. -/
def after (l : Location) (c : Char) : Location :=
  if c = '\n' then ⟨l.line + 1, 1⟩ else ⟨l.line, l.column + 1⟩

def describe (l : Location) : String := s!"line {l.line}, column {l.column}"

end Location

/-- Where in its source a character stands, by index and by location. -/
structure Site where
  index : Nat
  location : Location
  deriving DecidableEq, Repr

/-- The location of the character at `index`.  An index past the end stands just after the last character. -/
def locate (source : String) (index : Nat) : Location :=
  (source.toList.take index).foldl Location.after .start

end Brainfuck
