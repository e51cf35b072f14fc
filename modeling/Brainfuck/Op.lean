/-!
# The eight operations

A program is written with eight characters; every other character of a source text is a comment.  `Op` is the set of
operations, `Op.ofChar?` reads a character and `Op.toChar` writes one, each the inverse of the other
(`Op.ofChar?_eq_some_iff`).
-/
namespace Brainfuck

/-- Moves of the pointer, changes of the current cell, one byte out or in, and the two ends of a loop.  At its opening a
zero cell skips past the closing; at its closing a nonzero cell goes back to the start of the body. -/
inductive Op where
  | right
  | left
  | inc
  | dec
  | output
  | input
  | opening
  | closing
  deriving DecidableEq, Repr

namespace Op

/-- The operation a character stands for; none for a comment character. -/
def ofChar? : Char → Option Op
  | '>' => some .right
  | '<' => some .left
  | '+' => some .inc
  | '-' => some .dec
  | '.' => some .output
  | ',' => some .input
  | '[' => some .opening
  | ']' => some .closing
  | _ => none

def toChar : Op → Char
  | .right => '>'
  | .left => '<'
  | .inc => '+'
  | .dec => '-'
  | .output => '.'
  | .input => ','
  | .opening => '['
  | .closing => ']'

/-- The word a listing uses for the operation. -/
def mnemonic : Op → String
  | .right => "right"
  | .left => "left"
  | .inc => "inc"
  | .dec => "dec"
  | .output => "output"
  | .input => "input"
  | .opening => "jz"
  | .closing => "jnz"

def isBracket : Op → Bool
  | .opening | .closing => true
  | _ => false

theorem ofChar?_toChar (op : Op) : ofChar? op.toChar = some op := by cases op <;> rfl

theorem toChar_of_ofChar? {c : Char} {op : Op} (h : ofChar? c = some op) : op.toChar = c := by
  unfold ofChar? at h
  split at h <;> cases h <;> rfl

/-- Reading and writing a character are inverse to each other. -/
theorem ofChar?_eq_some_iff {c : Char} {op : Op} : ofChar? c = some op ↔ op.toChar = c :=
  ⟨toChar_of_ofChar?, fun h => h ▸ ofChar?_toChar op⟩

end Op

/-- Whether a text has no operation at all, only comment. -/
def isOnlyComment (source : String) : Bool :=
  source.toList.all (fun c => (Op.ofChar? c).isNone)

end Brainfuck
