/-!
# The lines of a text

A line ends at `\n`, and a `\r` directly before that `\n` belongs to the line's end, not to the line.  A text that ends
with `\n` has no further, empty line after it; a `\r` that no `\n` follows is part of its line.
-/
namespace Brainfuck.Text

/-- A line without the `\r` of its line end; the characters are given last first. -/
def dropReturn : List Char → List Char
  | '\r' :: line => line
  | line => line

/-- The lines of a text, the first of which has already shown `seen` (last character first). -/
def linesFrom (seen : List Char) : List Char → List (List Char)
  | [] => if seen.isEmpty then [] else [seen.reverse]
  | c :: rest =>
    if c = '\n' then (dropReturn seen).reverse :: linesFrom [] rest
    else linesFrom (c :: seen) rest

def lines (text : String) : List (List Char) := linesFrom [] text.toList

end Brainfuck.Text
