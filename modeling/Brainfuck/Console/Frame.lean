import Brainfuck.Console.App
import Brainfuck.Console.InputPane
import Brainfuck.Console.OutputPane
import Brainfuck.Console.SourcePane
/-!
# Frames of the console

A frame shows the source on the left, the output above the input on the right, and the status bar below.  Drawing one
changes nothing about the console but the scroll offsets, which it clamps.
-/
namespace Brainfuck

structure Layout where
  source : Area
  output : Area
  input : Area
  status : Area
  deriving DecidableEq, Repr

namespace Layout

/-- The status bar takes the last row.  Of the rest the source takes 55 percent of the columns, rounded half up; beside
it the input takes three rows and the output what lies above, but at least three rows as long as there are any.  This is
how the solver of ratatui 0.28 settles these wishes when there is not room for all of them. -/
def ofSize (width height : Nat) : Layout :=
  let paneHeight := height - 1
  let sourceWidth := (width * 55 + 50) / 100
  let outputHeight := if paneHeight < 6 then min 3 paneHeight else paneHeight - 3
  { source := ⟨0, 0, sourceWidth, paneHeight⟩
    output := ⟨sourceWidth, 0, width - sourceWidth, outputHeight⟩
    input := ⟨sourceWidth, outputHeight, width - sourceWidth, paneHeight - outputHeight⟩
    status := ⟨0, paneHeight, width, min height 1⟩ }

end Layout

namespace App

def draw (width height : Nat) (a : App) : App × Screen :=
  let s := Screen.blank width height
  let l := Layout.ofSize s.width s.height
  let (s, sourceScroll) := SourcePane.draw s l.source a.source a.fault? (a.focus = .source) a.sourceScroll
  let (s, outputScroll) := OutputPane.draw s l.output a.output a.decoding (a.focus = .output) a.outputScroll
  let s := InputPane.draw s l.input a.input (a.focus = .input) a.editing
  let s := StatusBar.draw s l.status a.status a.state a.editing
  ({ a with sourceScroll, outputScroll }, s)

/-! ## All that can happen -/

/-- What can happen to the console, in any order: a key, another source text, a step of the run in progress, a batch of
its events, before each of which it takes as many steps as `pauses` says, or a frame. -/
inductive Move where
  | press (key : Key)
  | load (source : String)
  | work
  | poll (pauses : List Nat)
  | draw (width height : Nat)
  deriving DecidableEq, Repr

def perform (a : App) : Move → App
  | .press key => a.press key
  | .load source => a.load source
  | .work => a.advanceRun 1
  | .poll pauses => a.poll pauses
  | .draw width height => (a.draw width height).1

end App

end Brainfuck
