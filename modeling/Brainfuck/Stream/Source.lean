/-!
# Input sources

An input source answers each `,` with a byte, or with none when it has no byte to give.  It is any state with a rule for
the next answer; an answer of none need not be the last.
-/
namespace Brainfuck

/-- `next` gives the state after a byte was asked for, and the byte if there was one. -/
structure Source (ι : Type) where
  next : ι → ι × Option UInt8

namespace Source

def absent : Source Unit where
  next _ := ((), none)

/-- A list of bytes, given in order; the state is what is left of it. -/
def bytes : Source (List UInt8) where
  next
    | [] => ([], none)
    | byte :: rest => (rest, some byte)

/-- The same source, which also counts the requests. -/
def counted {ι : Type} (source : Source ι) : Source (ι × Nat) where
  next state :=
    match source.next state.1 with
    | (inner, answer) => ((inner, state.2 + 1), answer)

end Source

end Brainfuck
