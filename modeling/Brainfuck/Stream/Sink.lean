/-!
# Sinks

A sink takes the bytes a program emits, one at a time and in order.  It is any state with a rule for taking a byte; the
rule says the new state and, if the byte was refused, why.  A refusal ends the run, but what the sink did before it
stands.
-/
namespace Brainfuck

/-- `offer` gives the state after a byte was offered, and the cause if it was refused. -/
structure Sink (σ : Type) where
  offer : σ → UInt8 → σ × Option String

namespace Sink

def collecting : Sink (Array UInt8) where
  offer bytes byte := (bytes.push byte, none)

/-- Keeps the first `quota` bytes and refuses the next. -/
def limited (quota : Nat) (cause : String) : Sink (Array UInt8) where
  offer bytes byte := if bytes.size < quota then (bytes.push byte, none) else (bytes, some cause)

/-- The same sink, which also counts the bytes it has taken. -/
def counted {σ : Type} (sink : Sink σ) : Sink (σ × Nat) where
  offer state byte :=
    match sink.offer state.1 byte with
    | (inner, none) => ((inner, state.2 + 1), none)
    | (inner, some cause) => ((inner, state.2), some cause)

end Sink

end Brainfuck
