import Brainfuck.Console.Theme
import Brainfuck.Machine
import Brainfuck.Screen.Canvas
/-!
# The status bar

The left half shows how the last run stands and a message, the right half the keys.
-/
namespace Brainfuck

/-- How the last run stands. -/
inductive RunState where
  | idle
  /-- It goes on, for so many tenths of a second. -/
  | running (tenths : Nat)
  | finished (stats : Stats)
  | failed (error : RunError)
  deriving DecidableEq, Repr

namespace StatusBar

def badge : RunState → String × Color
  | .idle => (" READY ", Theme.primary)
  | .running tenths => (" RUNNING " ++ toString (tenths / 10) ++ "." ++ toString (tenths % 10) ++ "s ", Theme.secondary)
  | .finished stats => (s!" DONE {stats.steps} steps ", Theme.success)
  | .failed _ => (" ERROR ", Theme.error)

/-- A colour on the background of the bar. -/
def onBar (fg : Color) : Style := { fg := some fg, bg := some Theme.barBackground }

def messageColor : RunState → Color
  | .failed _ => Theme.error
  | _ => Theme.fg

def left (message : String) (state : RunState) : List Span :=
  let (text, color) := badge state
  [.ofString text { fg := some .black, bg := some color, bold := true },
    .ofString " | " (onBar Theme.comment),
    .ofString (" " ++ message ++ " ") (onBar (messageColor state))]

def keys (editing : Bool) : List (String × String) :=
  if editing then [(" ↵ / esc ", " done ")]
  else
    [(" r ", " run "), (" esc ", " stop "), (" i ", " input "), (" u ", " decoding "), (" c ", " clear "),
      (" ⇥ ", " focus "), (" q ", " quit ")]

def keySpans (key : String × String) : List Span :=
  [.ofString key.1 { fg := some .black, bg := some Theme.comment }, .ofString key.2 (onBar Theme.fg)]

def separator : List Span := [.ofString "│" (onBar Theme.comment), .ofString " " (onBar Theme.fg)]

def right (editing : Bool) : List Span := (List.intersperse separator ((keys editing).map keySpans)).flatten

/-- Draws the bar.  The keys end at the right edge, or start at the left edge of their half if they do not fit. -/
def draw (s : Screen) (a : Area) (message : String) (state : RunState) (editing : Bool) : Screen :=
  let leftWidth := (a.width + 1) / 2
  let leftHalf := { a with width := leftWidth }
  let rightHalf := { a with x := a.x + leftWidth, width := a.width - leftWidth }
  let bar : Style := { bg := some Theme.barBackground }
  let s := (s.paint leftHalf bar).writeRow leftHalf (left message state)
  (s.paint rightHalf bar).writeRowRight rightHalf (right editing)

end StatusBar

end Brainfuck
