import Brainfuck.Location
import Brainfuck.Op
/-!
# Instructions

An instruction is an operation together with the site of the character that spells it.  `instructionsOf` reads them off
a source text in order; comment characters give none, but they count for the index and the location of what follows.
-/
namespace Brainfuck

/-- An operation and where it was written. -/
structure Instruction extends Site where
  op : Op
  deriving DecidableEq, Repr

namespace Instruction

def describe (i : Instruction) : String := s!"'{i.op.toChar}' at {i.location.describe}"

end Instruction

/-- The instructions of a text whose first character has this index and location. -/
def instructionsFrom (index : Nat) (location : Location) : List Char → List Instruction
  | [] => []
  | c :: rest =>
    match Op.ofChar? c with
    | some op => { op, index, location } :: instructionsFrom (index + 1) (location.after c) rest
    | none => instructionsFrom (index + 1) (location.after c) rest

/-- The instructions of a source text, in source order. -/
def instructionsOf (source : String) : List Instruction :=
  instructionsFrom 0 .start source.toList

/-! ## Reading through a text

A `Cursor` is a text partly read.  Reading the instructions takes everything that is left, so a second reading from
the cursor it leaves finds none. -/

/-- The characters still to be read, and where the first of them stands. -/
structure Cursor where
  rest : List Char
  site : Site
  deriving DecidableEq, Repr

namespace Cursor

/-- A text of which nothing was read yet. -/
def start (source : String) : Cursor := ⟨source.toList, 0, .start⟩

/-- The instructions still to be read, and the cursor after the last character. -/
def read (c : Cursor) : List Instruction × Cursor :=
  (instructionsFrom c.site.index c.site.location c.rest,
    ⟨[], c.site.index + c.rest.length, c.rest.foldl Location.after c.site.location⟩)

theorem read_start (source : String) : (start source).read.1 = instructionsOf source := rfl

theorem read_read (c : Cursor) : c.read.2.read.1 = [] := rfl

end Cursor

end Brainfuck
