/-!
# Colours and styles

A style names some of a cell's looks and leaves the others as they are: to apply it is to set what it names.
-/
namespace Brainfuck

inductive Color where
  | rgb (red green blue : UInt8)
  | black
  | white
  deriving DecidableEq, Repr

/-- The looks that a drawing sets; what is none, or not bold, is left as it was. -/
structure Style where
  fg : Option Color := none
  bg : Option Color := none
  bold : Bool := false
  deriving DecidableEq, Repr

namespace Style

/-- Later settings over earlier ones. -/
def onto (s : Style) (below : Style) : Style :=
  ⟨s.fg.or below.fg, s.bg.or below.bg, s.bold || below.bold⟩

end Style

/-- Some text in one style. -/
structure Span where
  text : List Char
  style : Style
  deriving DecidableEq, Repr

namespace Span

def ofString (text : String) (style : Style) : Span := ⟨text.toList, style⟩

end Span

end Brainfuck
