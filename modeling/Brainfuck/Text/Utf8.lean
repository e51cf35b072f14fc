/-!
# Reading bytes as UTF-8

`lossy` reads any bytes as UTF-8.  It goes through them one at a time and remembers the character it is in the middle
of: how many bytes that still owes and which values the next may have.  A byte that cannot go on the character, or the
end of the bytes, turns what was read of it into one replacement character; the byte itself then starts anew.  So each
longest piece that could have begun a character, and each byte that could not begin one, becomes one U+FFFD.
-/
namespace Brainfuck.Text.Utf8

/-- What stands for bytes that are no character. -/
def replacement : Char := '\uFFFD'

/-- A character that is not complete: how many bytes it owes, between which values the next of them lies, and the bits
of its code point so far. -/
structure Unfinished where
  owed : Nat
  low : UInt8
  high : UInt8
  value : Nat
  deriving DecidableEq, Repr

/-- What a byte means where a character may begin. -/
inductive Lead where
  | whole (c : Char)
  | unfinished (u : Unfinished)
  | invalid
  deriving DecidableEq, Repr

/-- The first byte of a character.  The ranges for the second byte rule out the longer spellings of a code point, the
surrogates, and what lies past U+10FFFF. -/
def lead (b : UInt8) : Lead :=
  let n := b.toNat
  if n < 0x80 then .whole (Char.ofNat n)
  else if n < 0xC2 then .invalid
  else if n < 0xE0 then .unfinished ⟨1, 0x80, 0xBF, n % 32⟩
  else if n = 0xE0 then .unfinished ⟨2, 0xA0, 0xBF, 0⟩
  else if n = 0xED then .unfinished ⟨2, 0x80, 0x9F, 13⟩
  else if n < 0xF0 then .unfinished ⟨2, 0x80, 0xBF, n % 16⟩
  else if n = 0xF0 then .unfinished ⟨3, 0x90, 0xBF, 0⟩
  else if n < 0xF4 then .unfinished ⟨3, 0x80, 0xBF, n % 8⟩
  else if n = 0xF4 then .unfinished ⟨3, 0x80, 0x8F, 4⟩
  else .invalid

/-- The text read so far, and the character in the middle of which the reading is. -/
structure Reading where
  text : String
  current : Option Unfinished
  deriving DecidableEq, Repr

namespace Reading

def start : Reading := ⟨"", none⟩

/-- Reads a byte where a character may begin. -/
def begin (text : String) (b : UInt8) : Reading :=
  match lead b with
  | .whole c => ⟨text.push c, none⟩
  | .unfinished u => ⟨text, some u⟩
  | .invalid => ⟨text.push replacement, none⟩

def step (r : Reading) (b : UInt8) : Reading :=
  match r.current with
  | none => begin r.text b
  | some u =>
    if u.low ≤ b ∧ b ≤ u.high then
      let value := u.value * 64 + b.toNat % 64
      if u.owed ≤ 1 then ⟨r.text.push (Char.ofNat value), none⟩
      else ⟨r.text, some ⟨u.owed - 1, 0x80, 0xBF, value⟩⟩
    else begin (r.text.push replacement) b

/-- The text when no byte is left. -/
def finish (r : Reading) : String :=
  match r.current with
  | none => r.text
  | some _ => r.text.push replacement

end Reading

/-- The text of any bytes. -/
def lossy (bytes : List UInt8) : String := (bytes.foldl Reading.step .start).finish

end Brainfuck.Text.Utf8
