import Brainfuck.Console.SourcePane
import Brainfuck.Output.Buffer
/-!
# The output pane

Shows the lines of the output from the scroll offset on, and in its title how many bytes there were and how they are
decoded.  Only the lines on show are decoded.
-/
namespace Brainfuck.OutputPane

def title (output : OutputBuffer) (d : Decoding) : String := s!" Output: {output.total} bytes, {d.label} "

/-- Draws a line of output in its row. -/
def drawLine (s : Screen) (row : Area) (line : String) : Screen :=
  (s.paint row { fg := some Theme.fg }).writeLabel row (.ofString line {})

/-- Draws the pane; gives back the scroll offset, clamped if there is anything to show. -/
def draw (s : Screen) (a : Area) (output : OutputBuffer) (d : Decoding) (focused : Bool) (scroll : Nat) :
    Screen × Nat :=
  let box (s : Screen) : Screen := s.box a (Theme.border focused) (title output d)
  if output.lineCount = 0 then
    let s := (box (s.paint a Theme.commentStyle)).paint a.inner Theme.commentStyle
    (s.writeRows a.inner [[.ofString "(no output)" {}]], scroll)
  else
    let scroll := SourcePane.clampScroll output.lineCount a.height scroll
    let text := a.inner.padLeft
    let lines := (output.window scroll (SourcePane.visibleRows a.height) d).take text.height
    (lines.zipIdx.foldl (fun s (line, index) => drawLine s (text.row index) line) (box s), scroll)

end Brainfuck.OutputPane
