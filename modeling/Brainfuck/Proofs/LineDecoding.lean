import Brainfuck.Proofs.LineIndex
import Brainfuck.Proofs.Lossy
/-!
# Decoding line by line

A buffer splits its bytes into lines before it decodes them.  Nothing is lost by that: a newline byte is a newline under
both decodings, whatever stands before it (`Decoding.decode_newline`), so the lines, put together again, are the text of
all the bytes (`OutputBuffer.run_lines_eq_text`).
-/
namespace Brainfuck

namespace Decoding

theorem decode_nil (d : Decoding) : d.decode [] = "" := by
  cases d <;> rfl

theorem decode_newline (d : Decoding) (xs ys : List UInt8) :
    d.decode (xs ++ 10 :: ys) = d.decode xs ++ "\n" ++ d.decode ys := by
  cases d with
  | codePoints =>
    rw [← String.toList_inj]
    simp [decode]
  | utf8 => exact Text.Utf8.lossy_newline xs ys

end Decoding

namespace OutputBuffer

/-! ## The lines, one after the other -/

theorem linesOf_nil : linesOf [] = [] := rfl

theorem linesOf_of_not_mem {line : List UInt8} (hne : line ≠ []) (h : 10 ∉ line) : linesOf line = [line] := by
  simp [linesOf, List.splitOn_eq_singleton h, hne]

theorem linesOf_line {line : List UInt8} (h : 10 ∉ line) (rest : List UInt8) :
    linesOf (line ++ 10 :: rest) = line :: linesOf rest := by
  have hne : rest.splitOn 10 ≠ [] := List.splitOn_ne_nil _ _
  unfold linesOf
  rw [List.splitOn_append_cons_self_of_not_mem h]
  simp only [List.getLast?_cons_of_ne_nil hne, List.dropLast_cons_of_ne_nil hne]
  split <;> rfl

theorem linesOf_ne_nil {bytes : List UInt8} (h : bytes ≠ []) : linesOf bytes ≠ [] := by
  by_cases hmem : 10 ∈ bytes
  · obtain ⟨line, rest, rfl, hline⟩ := List.eq_append_cons_of_mem hmem
    rw [linesOf_line hline]
    exact List.cons_ne_nil _ _
  · rw [linesOf_of_not_mem h hmem]
    exact List.cons_ne_nil _ _

/-! ## Putting them together -/

/-- The newline at the very end, which ends the last line and so belongs to none. -/
def lastNewline (bytes : List UInt8) : String := if bytes.getLast? = some 10 then "\n" else ""

theorem lastNewline_line (line : List UInt8) {rest : List UInt8} (h : rest ≠ []) :
    lastNewline (line ++ 10 :: rest) = lastNewline rest := by
  unfold lastNewline
  rw [List.getLast?_append_of_ne_nil _ (List.cons_ne_nil _ _), List.getLast?_cons_of_ne_nil h]

/-- **The decoded lines, joined by newlines, are the decoded bytes.** -/
theorem join_linesOf (d : Decoding) (bytes : List UInt8) :
    "\n".intercalate ((linesOf bytes).map d.decode) ++ lastNewline bytes = d.decode bytes := by
  by_cases hmem : 10 ∈ bytes
  · obtain ⟨line, rest, hbytes, hline⟩ := List.eq_append_cons_of_mem hmem
    rw [hbytes, linesOf_line hline, d.decode_newline, List.map_cons]
    by_cases hrest : rest = []
    · subst hrest
      simp [linesOf_nil, lastNewline, d.decode_nil]
    · have ih := join_linesOf d rest
      have hne : (linesOf rest).map d.decode ≠ [] := by simpa using linesOf_ne_nil hrest
      rw [lastNewline_line line hrest, String.intercalate_cons_of_ne_nil hne, String.append_assoc, ih]
  · by_cases hne : bytes = []
    · subst hne
      rw [linesOf_nil, d.decode_nil]
      rfl
    · have hlast : lastNewline bytes = "" := if_neg (fun h => hmem (List.mem_of_getLast? h))
      rw [linesOf_of_not_mem hne hmem, hlast]
      simp
termination_by bytes.length
decreasing_by
  rw [hbytes, List.length_append, List.length_cons]
  omega

/-- **Decoding line by line is decoding the whole.**  After any commands and under both decodings, the lines joined by
newlines, with one more if the bytes end in one, are the text of the bytes that are kept.  As UTF-8 that text is the one
in which each longest piece that begins no character to its end, or else each byte, has become one U+FFFD. -/
theorem run_lines_eq_text (limit : Option Nat) (cs : List Command) :
    let b := run limit cs
    (∀ d, "\n".intercalate (b.lines d) ++ (if b.bytes.back? = some 10 then "\n" else "") = b.text d) ∧
      ∀ text, Text.Utf8.Reads b.bytes.toList text ↔ text = (b.text .utf8).toList := by
  intro b
  refine ⟨fun d => ?_, fun text => Text.Utf8.reads_iff⟩
  rw [lines_eq (indexed_run limit cs), ← Array.getLast?_toList]
  exact join_linesOf d b.bytes.toList

end OutputBuffer

end Brainfuck
