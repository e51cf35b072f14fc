import Brainfuck.Diagnostic
import Brainfuck.Instruction
/-!
# Unmatched brackets

The only way a source text can be malformed is a bracket without a partner.  `unmatched` finds all of them in one pass
with a stack of the `[` that are still open: each `]` closes the innermost, one that finds the stack empty is unmatched,
and so is every `[` left on the stack at the end.
-/
namespace Brainfuck

inductive Bracket where
  | opening
  | closing
  deriving DecidableEq, Repr

/-- A bracket that has no partner. -/
structure UnmatchedBracket where
  bracket : Bracket
  site : Site
  deriving DecidableEq, Repr

namespace UnmatchedBracket

def message (u : UnmatchedBracket) : String :=
  match u.bracket with
  | .opening => "Found an opening '[' without a closing ']'"
  | .closing => "Found a closing ']' without an opening '['"

/-- The message with its location and character index. -/
def describe (u : UnmatchedBracket) : String :=
  s!"{u.message} at {u.site.location.describe} (index {u.site.index})"

def render (u : UnmatchedBracket) (source : String) : String :=
  Diagnostic.render source u.site.location u.message

end UnmatchedBracket

/-- The unmatched brackets of what is left, given the sites of the open `[`, innermost first. -/
def unmatchedFrom (pending : List Site) : List Instruction → List UnmatchedBracket
  | [] => pending.reverse.map (UnmatchedBracket.mk .opening)
  | i :: rest =>
    match i.op with
    | .opening => unmatchedFrom (i.toSite :: pending) rest
    | .closing =>
      match pending with
      | [] => ⟨.closing, i.toSite⟩ :: unmatchedFrom [] rest
      | _ :: outer => unmatchedFrom outer rest
    | _ => unmatchedFrom pending rest

/-- Every bracket without a partner: each such `]` as it is met, then each such `[` in source order. -/
def unmatched (is : List Instruction) : List UnmatchedBracket := unmatchedFrom [] is

end Brainfuck
