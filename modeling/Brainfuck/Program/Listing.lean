import Brainfuck.Program
/-!
# Program listings

One line for each instruction: its number right-aligned in five columns, its mnemonic padded to six, the partner of a
bracket, and where it was written.
-/
namespace Brainfuck

namespace Listing

/-- Fills with spaces on the left up to a width. -/
def alignRight (width : Nat) (text : String) : String :=
  String.ofList (List.replicate (width - text.length) ' ') ++ text

/-- Fills with spaces on the right up to a width. -/
def alignLeft (width : Nat) (text : String) : String :=
  text ++ String.ofList (List.replicate (width - text.length) ' ')

/-- The arrow to the partner of a bracket; nothing for any other instruction. -/
def arrow (jumps : Jumps) (ip : Nat) (op : Op) : String :=
  match op.isBracket, jumps.target ip with
  | true, some target => s!" -> {target}"
  | _, _ => ""

def line (jumps : Jumps) (ip : Nat) (i : Instruction) : String :=
  alignRight 5 (toString ip) ++ ": " ++ alignLeft 6 i.op.mnemonic ++ arrow jumps ip i.op ++
    s!"  ; {i.location.line}:{i.location.column}\n"

end Listing

/-- The listing of a whole program. -/
def Program.listing (p : Program) : String :=
  String.join (p.instructions.toList.zipIdx.map (fun (i, ip) => Listing.line p.jumps ip i))

end Brainfuck
