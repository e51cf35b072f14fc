import Brainfuck.Screen.Area
import Brainfuck.Screen.Glyph
/-!
# Screens

A screen is a grid of cells, each with a symbol and a style.  What would be drawn outside the screen is not drawn.

Text is drawn in two ways.  A row (`writeRow`) is cut at the width of its area, leaves out glyphs without a width, and
leaves the cells under a wide glyph as they were.  A label (`writeLabel`) is cut at the edge of the screen too, adds
glyphs without a width to the cell before them, and clears the cells under a wide glyph.  Both, and the boxes, follow
the terminal library ratatui 0.28: a row is what its paragraphs draw, and a label what its lists and titles draw.
-/
namespace Brainfuck

structure Cell where
  symbol : String := " "
  style : Style := {}
  deriving DecidableEq, Repr

structure Screen where
  width : Nat
  height : Nat
  /-- The cells, row by row. -/
  cells : Array Cell
  cursor : Nat × Nat := (0, 0)

namespace Screen

/-- A screen of blank cells.  One of more than `Area.maxCells` cells is shrunk as an area is. -/
def blank (width height : Nat) : Screen :=
  let a := Area.ofSize 0 0 width height
  { width := a.width, height := a.height, cells := Array.replicate (a.width * a.height) {} }

def area (s : Screen) : Area := ⟨0, 0, s.width, s.height⟩

/-- What of an area lies on the screen. -/
def clip (s : Screen) (a : Area) : Area := a.clip s.width s.height

/-- Changes one cell, if there is one at that place. -/
def modify (s : Screen) (x y : Nat) (f : Cell → Cell) : Screen :=
  if x < s.width ∧ y < s.height then { s with cells := s.cells.modify (y * s.width + x) f } else s

def put (s : Screen) (x y : Nat) (symbol : String) (style : Style) : Screen :=
  s.modify x y (fun c => ⟨symbol, style.onto c.style⟩)

/-- Adds to the symbol of a cell. -/
def append (s : Screen) (x y : Nat) (symbol : String) (style : Style) : Screen :=
  s.modify x y (fun c => ⟨c.symbol ++ symbol, style.onto c.style⟩)

def clearCells (s : Screen) (x y count : Nat) : Screen :=
  (List.range count).foldl (fun s dx => s.modify (x + dx) y (fun _ => {})) s

/-- Applies a style to the cells of an area and leaves their symbols. -/
def paint (s : Screen) (a : Area) (style : Style) : Screen :=
  let a := s.clip a
  (List.range a.height).foldl (fun s dy =>
    (List.range a.width).foldl (fun s dx =>
      s.modify (a.x + dx) (a.y + dy) (fun c => { c with style := style.onto c.style })) s) s

/-! ## Rows -/

/-- Draws the glyphs that have a width, from column `x` on. -/
def writeGlyphs (s : Screen) (x y : Nat) : List Glyph → Screen
  | [] => s
  | g :: rest =>
    if g.width = 0 then writeGlyphs s x y rest
    else writeGlyphs (s.put x y g.symbol g.style) (x + g.width) y rest

/-- Draws a row of text at the top of an area. -/
def writeRow (s : Screen) (a : Area) (spans : List Span) : Screen :=
  if a.isEmpty then s else s.writeGlyphs a.x a.y (Glyph.fit a.width a.width (Glyph.ofSpans spans))

/-- Draws a row of text that ends at the right edge of an area. -/
def writeRowRight (s : Screen) (a : Area) (spans : List Span) : Screen :=
  let glyphs := Glyph.fit a.width a.width (Glyph.ofSpans spans)
  if a.isEmpty then s else s.writeGlyphs (a.x + (a.width - Glyph.totalWidth glyphs)) a.y glyphs

def writeRows (s : Screen) (a : Area) (rows : List (List Span)) : Screen :=
  (rows.take a.height).zipIdx.foldl (fun s (spans, dy) => s.writeRow (a.row dy) spans) s

/-! ## Labels -/

/-- Draws what is left of a label that began in column `start`; the next glyph goes to column `x`, and none may reach
beyond column `stop`. -/
def writeLabelFrom (s : Screen) (start stop y x : Nat) (isFirst : Bool) : List Glyph → Screen
  | [] => s
  | g :: rest =>
    if stop < x + g.width then s
    else
      let drawn :=
        if isFirst then s.put x y g.symbol g.style
        else if x = start then s.append x y g.symbol g.style
        else if g.width = 0 then s.append (x - 1) y g.symbol g.style
        else s.put x y g.symbol g.style
      writeLabelFrom (drawn.clearCells (x + 1) y (g.width - 1)) start stop y (x + g.width) false rest

/-- Draws a text at the top of an area.  A text without any width is not drawn. -/
def writeLabel (s : Screen) (a : Area) (text : Span) : Screen :=
  let a := s.clip a
  if a.isEmpty || Text.Width.columns text.text = 0 then s
  else s.writeLabelFrom a.x (a.x + a.width) a.y a.x true text.glyphs

/-! ## Boxes -/

def fillRow (s : Screen) (x y width : Nat) (symbol : String) (style : Style) : Screen :=
  (List.range width).foldl (fun s dx => s.put (x + dx) y symbol style) s

def fillColumn (s : Screen) (x y height : Nat) (symbol : String) (style : Style) : Screen :=
  (List.range height).foldl (fun s dy => s.put x (y + dy) symbol style) s

/-- Draws a border with a title around what of an area lies on the screen.  Where that is one row high or one column
wide, the upper edge covers the lower one and the left edge the right one. -/
def box (s : Screen) (a : Area) (style : Style) (title : String) : Screen :=
  let a := s.clip a
  if a.isEmpty then s
  else
    let right := a.x + a.width - 1
    let bottom := a.y + a.height - 1
    let s := s.fillColumn a.x a.y a.height "│" style
    let s := s.fillColumn right a.y a.height "│" style
    let s := s.fillRow a.x bottom a.width "─" style
    let s := s.fillRow a.x a.y a.width "─" style
    let s := s.put right bottom "┘" style
    let s := s.put right a.y "┐" style
    let s := s.put a.x bottom "└" style
    let s := s.put a.x a.y "┌" style
    s.writeLabel ⟨a.x + 1, a.y, a.width - 2, 1⟩ (.ofString title {})

/-! ## What is seen -/

/-- The cell that is seen at a place: a symbol of two columns or more covers the cell after it. -/
def seenAt (s : Screen) (index : Nat) (cell : Cell) : Cell :=
  match index with
  | 0 => cell
  | before + 1 => if 2 ≤ Text.Width.columns (s.cells.getD before {}).symbol.toList then {} else cell

/-- The cells that are seen, row by row. -/
def rows (s : Screen) : List (List Cell) :=
  let seen := s.cells.mapIdx s.seenAt
  (List.range s.height).map (fun y => (seen.extract (y * s.width) ((y + 1) * s.width)).toList)

end Screen

end Brainfuck
