/-!
# Areas of a screen

An area is a rectangle of cells.  It may reach beyond the screen it is used on; what of it lies on the screen is its
`clip`.  How large an area may be, how a larger one is shrunk, and what its border leaves inside follow the terminal
library ratatui 0.28, with which the console draws.
-/
namespace Brainfuck

/-- A rectangle of cells, by its upper left corner and its size. -/
structure Area where
  x : Nat
  y : Nat
  width : Nat
  height : Nat
  deriving DecidableEq, Repr

namespace Area

/-- The most cells an area may have. -/
def maxCells : Nat := 65535

/-- The area at a corner.  If it would have more than `maxCells` cells, it is shrunk in its proportions to what they
allow.  That is reckoned in double precision, and the fractions are dropped. -/
def ofSize (x y width height : Nat) : Area :=
  if width * height ≤ maxCells then ⟨x, y, width, height⟩
  else
    let ratio := width.toFloat / height.toFloat
    let shrunk := (maxCells.toFloat / ratio).sqrt
    ⟨x, y, (shrunk * ratio).toUInt16.toNat, shrunk.toUInt16.toNat⟩

def isEmpty (a : Area) : Bool := a.width = 0 || a.height = 0

def inner (a : Area) : Area := ⟨a.x + 1, a.y + 1, a.width - 2, a.height - 2⟩

def padLeft (a : Area) : Area := { a with x := a.x + 1, width := a.width - 1 }

/-- One row of an area, counted from 0. -/
def row (a : Area) (index : Nat) : Area := ⟨a.x, a.y + index, a.width, 1⟩

/-- What of an area lies within the first `width` columns and `height` rows. -/
def clip (a : Area) (width height : Nat) : Area :=
  { a with
    width := min (a.x + a.width) width - a.x
    height := min (a.y + a.height) height - a.y }

end Area

end Brainfuck
