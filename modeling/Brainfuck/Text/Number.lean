/-!
# Numbers in text

`unsigned64?` reads a number as a command line spells it: decimal digits, at least one, after an optional `+`, of a
value that 64 bits hold.  Nothing else is a number: no blank, no `-`, no grouping.
-/
namespace Brainfuck.Text

/-- The value of decimal digits. -/
def digitsValue (digits : List Char) : Nat := digits.foldl (fun n c => n * 10 + (c.toNat - '0'.toNat)) 0

/-- A number without the `+` it may start with. -/
def dropPlus : List Char → List Char
  | '+' :: digits => digits
  | digits => digits

/-- The least number that needs more than 64 bits. -/
def wordBound : Nat := 18446744073709551616

def unsigned64? (text : String) : Option Nat :=
  let digits := dropPlus text.toList
  if digits ≠ [] ∧ digits.all Char.isDigit = true ∧ digitsValue digits < wordBound then some (digitsValue digits)
  else none

end Brainfuck.Text
