import Brainfuck.Bracket
/-!
# The jump table

`Jumps.build` matches the brackets of an instruction list in one pass and records each pair in both directions, so that
a loop's other end is one look-up away.  It stops at the first `]` that has no partner; if only `[` are left over, it
names the earliest of them.
-/
namespace Brainfuck

/-- For each instruction, the index of its partner if it is a matched bracket. -/
structure Jumps where
  targets : Array (Option Nat)
  deriving DecidableEq, Repr

namespace Jumps

/-- The partner of the bracket at instruction `ip`; none for any other instruction and past the end. -/
def target (j : Jumps) (ip : Nat) : Option Nat := j.targets.getD ip none

def pairs (j : Jumps) : Nat := j.targets.countP Option.isSome / 2

/-- Matches what is left, given the open `[` (innermost first) and the table of the instructions before. -/
def buildFrom (pending : List (Nat × Site)) (targets : Array (Option Nat)) :
    List Instruction → Except UnmatchedBracket Jumps
  | [] =>
    match pending.getLast? with
    | none => .ok ⟨targets⟩
    | some (_, site) => .error ⟨.opening, site⟩
  | i :: rest =>
    match i.op with
    | .opening => buildFrom ((targets.size, i.toSite) :: pending) (targets.push none) rest
    | .closing =>
      match pending with
      | [] => .error ⟨.closing, i.toSite⟩
      | (opener, _) :: outer =>
        buildFrom outer ((targets.setIfInBounds opener (some targets.size)).push (some opener)) rest
    | _ => buildFrom pending (targets.push none) rest

/-- The jump table of an instruction list, or the bracket that spoils it. -/
def build (is : List Instruction) : Except UnmatchedBracket Jumps := buildFrom [] #[] is

end Jumps

end Brainfuck
