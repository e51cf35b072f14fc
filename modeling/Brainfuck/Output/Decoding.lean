import Brainfuck.Text.Utf8
/-!
# Showing output as text

A program emits bytes; which text they are is a choice of the one who looks at them.
-/
namespace Brainfuck

/-- How output bytes are shown: each as the character of that code point, or together as UTF-8, of which what is not
becomes U+FFFD. -/
inductive Decoding where
  | codePoints
  | utf8
  deriving DecidableEq, Repr

namespace Decoding

def toggle : Decoding → Decoding
  | .codePoints => .utf8
  | .utf8 => .codePoints

def label : Decoding → String
  | .codePoints => "code points"
  | .utf8 => "utf-8"

def decode (d : Decoding) (bytes : List UInt8) : String :=
  match d with
  | .codePoints => String.ofList (bytes.map (fun b => Char.ofNat b.toNat))
  | .utf8 => Text.Utf8.lossy bytes

end Decoding

end Brainfuck
