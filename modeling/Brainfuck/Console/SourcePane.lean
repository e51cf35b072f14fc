import Brainfuck.Console.Theme
import Brainfuck.Location
import Brainfuck.Program.Listing
import Brainfuck.Screen.Canvas
import Brainfuck.Text.Lines
/-!
# The source pane

Shows the lines of the source from the scroll offset on, each after its number.  Instruction characters have the colour
of their kind, and each is a span of its own; comment characters between them share one.  If the last run failed at a
known place, that character is marked.
-/
namespace Brainfuck.SourcePane

/-- The span of a run of comment characters, given last first; none if the run is empty. -/
def commentSpan (seen : List Char) : List Span :=
  if seen.isEmpty then [] else [⟨seen.reverse, Theme.commentStyle⟩]

/-- Highlights what is left of a line, after a run of comment characters. -/
def highlightFrom (seen : List Char) : List Char → List Span
  | [] => commentSpan seen
  | c :: rest =>
    match Op.ofChar? c with
    | some op => commentSpan seen ++ ⟨[c], Theme.opStyle op⟩ :: highlightFrom [] rest
    | none => highlightFrom (c :: seen) rest

def highlight (line : List Char) : List Span := highlightFrom [] line

/-- A line with the character at a column, counted from 1, marked as the one at fault.  Column 0 is read as column 1;
past the end of the line nothing is marked. -/
def markColumn (line : List Char) (column : Nat) : List Span :=
  match line.drop (column - 1) with
  | [] => highlight line
  | c :: rest => highlight (line.take (column - 1)) ++ ⟨[c], Theme.errorStyle⟩ :: highlight rest

/-- The row of a line of source: its number, counted from 1, and its text. -/
def row (fault? : Option Location) (number : Nat) (line : List Char) : List Span :=
  let gutter := Listing.alignRight 4 (toString number) ++ " "
  match fault?.filter (·.line = number) with
  | some l => .ofString gutter Theme.errorGutter :: markColumn line l.column
  | none => .ofString gutter Theme.commentStyle :: highlight line

/-- How many rows of text an area of this height has room for, counted as at least one. -/
def visibleRows (height : Nat) : Nat := max (height - 2) 1

def clampScroll (lineCount height scroll : Nat) : Nat := min scroll (lineCount - visibleRows height)

/-- The rows on show, from a scroll offset that is already clamped. -/
def rows (source : String) (fault? : Option Location) (height scroll : Nat) : List (List Span) :=
  ((Text.lines source).zipIdx.drop scroll |>.take (visibleRows height)).map
    (fun (line, index) => row fault? (index + 1) line)

/-- Draws the pane; gives back the clamped scroll offset. -/
def draw (s : Screen) (a : Area) (source : String) (fault? : Option Location) (focused : Bool) (scroll : Nat) :
    Screen × Nat :=
  let scroll := clampScroll (Text.lines source).length a.height scroll
  let s := s.box a (Theme.border focused) " Source "
  (s.writeRows a.inner (rows source fault? a.height scroll), scroll)

end Brainfuck.SourcePane
