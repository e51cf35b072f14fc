import Brainfuck.Output.Decoding
import Brainfuck.Stream.Sink
/-!
# The output buffer

An output buffer keeps what a program emitted so that its lines can be shown.  The starts of the lines are noted as the
bytes arrive, so a line is decoded only when it is asked for.  With a retention limit the buffer drops its oldest bytes
once it holds more than twice the limit: whole lines, as few as bring it down to the limit, or, if no line starts among
the last `limit` bytes, all but these.

Sizes and limits are numbers of 64 bits, and twice a limit need not be one.  `trim?` reckons as a build of the program
does and says where that fails; `trim` is what it comes to for every limit below 2 ^ 63.
-/
namespace Brainfuck

/-- What becomes of a result that does not fit into 64 bits: a build fails there, or drops the higher bits. -/
inductive Overflow where
  | checked
  | wrapping
  deriving DecidableEq, Repr

namespace Overflow

/-- How many numbers of 64 bits there are. -/
def modulus : Nat := 18446744073709551616

/-- What stands in place of a result that does not fit and has these lower bits. -/
def instead : Overflow → Nat → Option Nat
  | .checked, _ => none
  | .wrapping, low => some low

/-- The product of two numbers of 64 bits. -/
def mul (w : Overflow) (a b : Nat) : Option Nat :=
  if a * b < modulus then some (a * b) else w.instead (a * b % modulus)

/-- The difference of two numbers of 64 bits. -/
def sub (w : Overflow) (a b : Nat) : Option Nat := if b ≤ a then some (a - b) else w.instead (modulus + a - b)

end Overflow

/-- The bytes with the offset at which each line starts.  With a `limit` they are only about the last so many, and
`discarded` counts those that were dropped. -/
structure OutputBuffer where
  bytes : Array UInt8 := #[]
  lineStarts : Array Nat := #[0]
  limit : Option Nat := none
  discarded : Nat := 0
  deriving DecidableEq, Repr

namespace OutputBuffer

def unlimited : OutputBuffer := {}

/-- An empty buffer that keeps about the last `limit` bytes, at least one. -/
def withLimit (limit : Nat) : OutputBuffer := { limit := some (max limit 1) }

/-! ## Adding bytes -/

def append (b : OutputBuffer) (byte : UInt8) : OutputBuffer :=
  match b with
  | ⟨bytes, lineStarts, limit, discarded⟩ =>
    let bytes := bytes.push byte
    ⟨bytes, if byte = 10 then lineStarts.push bytes.size else lineStarts, limit, discarded⟩

/-- Drops the first `cut` bytes; what is left of a line that is cut through becomes the first line. -/
def dropFront (b : OutputBuffer) (cut : Nat) : OutputBuffer :=
  let starts := (b.lineStarts.filter (cut ≤ ·)).map (· - cut)
  { b with
    bytes := b.bytes.extract cut b.bytes.size
    lineStarts := if starts[0]? = some 0 then starts else #[0] ++ starts
    discarded := b.discarded + cut }

/-- Where a buffer is cut that is to lose at least `wanted` bytes: where the first line starts after them, or else right
after them. -/
def cutFrom (b : OutputBuffer) (wanted : Nat) : Nat := (b.lineStarts.find? (wanted ≤ ·)).getD wanted

/-- How many bytes a buffer drops that is to keep `limit`. -/
def cutFor (b : OutputBuffer) (limit : Nat) : Nat := b.cutFrom (b.bytes.size - limit)

/-- Drops the oldest bytes if there are more than twice as many as the limit. -/
def trim (b : OutputBuffer) : OutputBuffer :=
  match b.limit with
  | none => b
  | some limit => if b.bytes.size ≤ limit * 2 then b else b.dropFront (b.cutFor limit)

/-- The same in 64 bits; none if a result does not fit, or if fewer bytes are there than are to be dropped. -/
def trim? (w : Overflow) (b : OutputBuffer) : Option OutputBuffer :=
  match b.limit with
  | none => some b
  | some limit =>
    (w.mul limit 2).bind fun twice =>
      if b.bytes.size ≤ twice then some b
      else
        (w.sub b.bytes.size limit).bind fun wanted =>
          if b.cutFrom wanted ≤ b.bytes.size then some (b.dropFront (b.cutFrom wanted)) else none

/-- Adds a byte, then drops the oldest if there are too many. -/
def push (b : OutputBuffer) (byte : UInt8) : OutputBuffer := (b.append byte).trim

def extend (b : OutputBuffer) (bytes : List UInt8) : OutputBuffer := (bytes.foldl append b).trim

def clear (b : OutputBuffer) : OutputBuffer := { limit := b.limit }

/-! ## Looking at them -/

/-- How many bytes were added since the buffer was last empty, the dropped ones included. -/
def total (b : OutputBuffer) : Nat := b.discarded + b.bytes.size

def isEmpty (b : OutputBuffer) : Bool := b.bytes.isEmpty

def text (b : OutputBuffer) (d : Decoding) : String := d.decode b.bytes.toList

/-- How many lines there are to show; a newline at the end opens no further line. -/
def lineCount (b : OutputBuffer) : Nat :=
  if b.lineStarts.back? = some b.bytes.size then b.lineStarts.size - 1 else b.lineStarts.size

/-- The bytes of a line without its newline. -/
def lineBytes (b : OutputBuffer) (index : Nat) : List UInt8 :=
  let stop := match b.lineStarts[index + 1]? with
    | some next => next - 1
    | none => b.bytes.size
  (b.bytes.extract (b.lineStarts.getD index 0) stop).toList

/-- The text of a line, if there is one of that number. -/
def line? (b : OutputBuffer) (index : Nat) (d : Decoding) : Option String :=
  if index < b.lineCount then some (d.decode (b.lineBytes index)) else none

/-- At most `count` lines, from line `first` on. -/
def window (b : OutputBuffer) (first count : Nat) (d : Decoding) : List String :=
  (List.range' first (min count (b.lineCount - first))).map (fun index => d.decode (b.lineBytes index))

def lines (b : OutputBuffer) (d : Decoding) : List String := b.window 0 b.lineCount d

end OutputBuffer

/-- The sink that fills a buffer; it refuses nothing. -/
def Sink.buffer : Sink OutputBuffer where
  offer b byte := (b.push byte, none)

namespace OutputBuffer

/-! ## All that can be done to a buffer -/

inductive Command where
  | push (byte : UInt8)
  /-- Adds a byte as a sink does. -/
  | emit (byte : UInt8)
  | extend (bytes : List UInt8)
  | clear
  deriving DecidableEq, Repr

/-- The bytes a command adds; none if it forgets those there are. -/
def Command.bytes? : Command → Option (List UInt8)
  | .push byte | .emit byte => some [byte]
  | .extend bytes => some bytes
  | .clear => none

def perform (b : OutputBuffer) : Command → OutputBuffer
  | .push byte => b.push byte
  | .emit byte => (Sink.buffer.offer b byte).1
  | .extend bytes => b.extend bytes
  | .clear => b.clear

/-- The same in 64 bits. -/
def perform? (w : Overflow) (b : OutputBuffer) (c : Command) : Option OutputBuffer :=
  match c.bytes? with
  | some bytes => (bytes.foldl append b).trim? w
  | none => some b.clear

/-- A new buffer, with a limit or without. -/
def fresh : Option Nat → OutputBuffer
  | none => unlimited
  | some limit => withLimit limit

/-- A buffer after some commands. -/
def run (limit : Option Nat) (cs : List Command) : OutputBuffer := cs.foldl perform (fresh limit)

/-- The same in 64 bits. -/
def run? (w : Overflow) (limit : Option Nat) (cs : List Command) : Option OutputBuffer :=
  cs.foldlM (perform? w) (fresh limit)

end OutputBuffer

end Brainfuck
