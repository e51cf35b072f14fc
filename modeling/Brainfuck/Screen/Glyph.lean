import Brainfuck.Screen.Style
import Brainfuck.Text.Cluster
import Brainfuck.Text.Width
/-!
# Glyphs

What is drawn of a text are its clusters, each with the columns it takes.  A glyph is a cluster with its width and its
style; a newline in the middle of a text is no glyph.
-/
namespace Brainfuck

/-- A cluster, how many columns it takes, and how it looks. -/
structure Glyph where
  symbol : String
  width : Nat
  style : Style
  deriving DecidableEq, Repr

namespace Span

/-- The glyphs of a span.  Each span is cut into clusters on its own. -/
def glyphs (s : Span) : List Glyph :=
  ((Text.clusters s.text).filter (· ≠ "\n")).map (fun symbol => ⟨symbol, Text.Width.columns symbol.toList, s.style⟩)

end Span

namespace Glyph

def ofSpans (spans : List Span) : List Glyph := spans.flatMap Span.glyphs

def totalWidth (glyphs : List Glyph) : Nat := glyphs.foldl (fun n g => n + g.width) 0

/-- The glyphs that fit into the `room` left in a row of `width` columns: up to the first one that does not, and without
those that are wider than the whole row. -/
def fit (width : Nat) : (room : Nat) → List Glyph → List Glyph
  | _, [] => []
  | room, g :: rest =>
    if width < g.width then fit width room rest
    else if room < g.width then []
    else g :: fit width (room - g.width) rest

end Glyph

end Brainfuck
