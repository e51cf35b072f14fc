import Brainfuck.Console.Theme
import Brainfuck.Screen.Canvas
/-!
# The input pane

Shows the text that `,` will read, and the cursor behind it while it is being edited.
-/
namespace Brainfuck.InputPane

/-- What stands before the text. -/
def caret : String := " > "

def border (focused editing : Bool) : Style :=
  if editing then { fg := some Theme.secondary, bold := true } else Theme.border focused

/-- The text, or a hint if there is none and none is being typed. -/
def body (text : String) (editing : Bool) : Span :=
  if text.isEmpty && !editing then .ofString "(empty, press i to edit)" Theme.commentStyle
  else .ofString text { fg := some Theme.fg }

/-- The number of columns and of rows that a place of the cursor can have. -/
def cursorBound : Nat := 65536

/-- The column behind the text, counted by its characters, but no further right than the inside of the border. -/
def cursorColumn (a : Area) (text : String) : Nat :=
  min (a.x + 1 + caret.length + text.length) (a.x + (a.width - 2)) % cursorBound

/-- The row of the text. -/
def cursorRow (a : Area) : Nat := min (a.y + 1) (cursorBound - 1)

def draw (s : Screen) (a : Area) (text : String) (focused editing : Bool) : Screen :=
  let s := s.box a (border focused editing) " Input "
  let s := s.writeRows a.inner [[.ofString caret { fg := some Theme.primary }, body text editing]]
  if editing then { s with cursor := (cursorColumn a text, cursorRow a) } else s

end Brainfuck.InputPane
