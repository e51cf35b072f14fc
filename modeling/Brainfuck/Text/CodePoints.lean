/-!
# Sets of code points

A set of code points is a table of ranges in increasing order, which `contains` searches by halving.
-/
namespace Brainfuck.Text

/-- The ranges, each by its first and its last code point, in increasing order. -/
structure CodePoints where
  ranges : Array (Nat × Nat)
  deriving DecidableEq, Repr

namespace CodePoints

/-- Whether one of the ranges from number `low` on and before number `high` holds `n`; each of the `depth` steps halves
them. -/
def search (ranges : Array (Nat × Nat)) (n : Nat) : (depth low high : Nat) → Bool
  | 0, _, _ => false
  | depth + 1, low, high =>
    if low < high then
      let middle := (low + high) / 2
      match ranges[middle]? with
      | none => false
      | some (first, last) =>
        if n < first then search ranges n depth low middle
        else if last < n then search ranges n depth (middle + 1) high
        else true
    else false

def contains (s : CodePoints) (c : Char) : Bool := search s.ranges c.toNat s.ranges.size 0 s.ranges.size

end CodePoints

end Brainfuck.Text
