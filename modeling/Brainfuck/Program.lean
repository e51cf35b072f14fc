import Brainfuck.Jumps
/-!
# Programs

A program is an instruction sequence whose brackets are matched.  The field `resolved` says so: the jump table is the
one `Jumps.build` makes of these very instructions, so a run never meets a bracket without a partner.
-/
namespace Brainfuck

structure Program where
  instructions : Array Instruction
  jumps : Jumps
  resolved : Jumps.build instructions.toList = .ok jumps

namespace Program

/-- The program of an instruction list, or the bracket that has no partner. -/
def ofInstructions (is : List Instruction) : Except UnmatchedBracket Program :=
  match h : Jumps.build is with
  | .ok jumps => .ok ⟨is.toArray, jumps, h⟩
  | .error u => .error u

/-- Reads a source text and matches its brackets. -/
def parse (source : String) : Except UnmatchedBracket Program := ofInstructions (instructionsOf source)

/-- The program that has nothing to do. -/
def empty : Program := ⟨#[], ⟨#[]⟩, rfl⟩

def size (p : Program) : Nat := p.instructions.size

def isEmpty (p : Program) : Bool := p.instructions.isEmpty

end Program

/-- Every unmatched bracket of a source text; none exactly if it is a program. -/
def diagnose (source : String) : List UnmatchedBracket := unmatched (instructionsOf source)

end Brainfuck
