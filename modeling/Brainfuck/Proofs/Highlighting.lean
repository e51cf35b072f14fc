import Mathlib.Data.List.Chain
import Brainfuck.Proofs.Marking
/-!
# Highlighting shows the line as it is

A highlighted line is cut into instruction characters and runs of comment between them.  `Highlights` says what such
a cut may look like, and `highlight` gives the only one (`Highlights.unique`).  A line with a mark is cut once more, at
the character under the mark, whose place is counted in characters.  Cutting its bytes there gives the same pieces
(`markSlices_eq`), however many bytes the characters take.
-/
namespace Brainfuck.SourcePane

/-! ## What a highlighted line looks like -/

/-- The span of an instruction character, in the style of its operation. -/
def opSpan (op : Op) : Span := ⟨[op.toChar], Theme.opStyle op⟩

/-- A run of comment characters, at least one, in the comment style. -/
structure ShowsComment (s : Span) : Prop where
  style : s.style = Theme.commentStyle
  nonempty : s.text ≠ []
  comment : ∀ c ∈ s.text, Op.ofChar? c = none

/-- The spans show the line, each an instruction character or a run of comment, and no run stands next to another. -/
structure Highlights (line : List Char) (spans : List Span) : Prop where
  text : spans.flatMap Span.text = line
  kind : ∀ s ∈ spans, (∃ op, s = opSpan op) ∨ ShowsComment s
  maximal : spans.IsChain (fun s t => ¬ (ShowsComment s ∧ ShowsComment t))

theorem not_showsComment_opSpan (op : Op) : ¬ ShowsComment (opSpan op) := by
  intro h
  have := h.comment op.toChar (List.mem_singleton.2 rfl)
  rw [Op.ofChar?_toChar] at this
  cases this

theorem ShowsComment.commentSpan_eq {s : Span} (h : ShowsComment s) : commentSpan s.text.reverse = [s] := by
  obtain ⟨text, style⟩ := s
  obtain rfl : style = Theme.commentStyle := h.style
  simp [commentSpan, h.nonempty]

namespace Highlights

variable {line : List Char} {spans : List Span}

theorem nil : Highlights [] [] := ⟨rfl, List.forall_mem_nil _, .nil⟩

theorem tail {s : Span} (h : Highlights line (s :: spans)) : Highlights (spans.flatMap Span.text) spans :=
  ⟨rfl, fun t ht => h.kind t (List.mem_cons_of_mem s ht), h.maximal.tail⟩

theorem cons_op (op : Op) (h : Highlights line spans) : Highlights (op.toChar :: line) (opSpan op :: spans) where
  text := by rw [List.flatMap_cons, h.text]; rfl
  kind s hs := by
    rcases List.mem_cons.1 hs with rfl | hs
    · exact .inl ⟨op, rfl⟩
    · exact h.kind s hs
  maximal := List.isChain_cons.2 ⟨fun _ _ hboth => not_showsComment_opSpan op hboth.1, h.maximal⟩

theorem cons_comment {s : Span} (hs : ShowsComment s) (h : Highlights line spans)
    (hhead : ∀ t ∈ spans.head?, ¬ ShowsComment t) : Highlights (s.text ++ line) (s :: spans) where
  text := by rw [List.flatMap_cons, h.text]
  kind t ht := by
    rcases List.mem_cons.1 ht with rfl | ht
    · exact .inr hs
    · exact h.kind t ht
  maximal := List.isChain_cons.2 ⟨fun t ht hboth => hhead t ht hboth.2, h.maximal⟩

theorem commentSpan_append {seen : List Char} (hseen : ∀ c ∈ seen, Op.ofChar? c = none) (h : Highlights line spans)
    (hhead : ∀ t ∈ spans.head?, ¬ ShowsComment t) : Highlights (seen.reverse ++ line) (commentSpan seen ++ spans) := by
  cases seen with
  | nil => exact h
  | cons c seen =>
    refine cons_comment (s := ⟨(c :: seen).reverse, Theme.commentStyle⟩) ⟨rfl, by simp, fun d hd => ?_⟩ h hhead
    exact hseen d (List.mem_reverse.1 hd)

end Highlights

/-! ## Highlighting gives it -/

theorem highlightFrom_op (seen : List Char) (op : Op) (rest : List Char) :
    highlightFrom seen (op.toChar :: rest) = commentSpan seen ++ opSpan op :: highlight rest := by
  simp [highlightFrom, Op.ofChar?_toChar, opSpan, highlight]

theorem highlightFrom_comment (rest : List Char) : ∀ (run seen : List Char), (∀ c ∈ run, Op.ofChar? c = none) →
    highlightFrom seen (run ++ rest) = highlightFrom (run.reverse ++ seen) rest
  | [], _, _ => rfl
  | c :: run, seen, h => by
    have hc : Op.ofChar? c = none := h c List.mem_cons_self
    simp only [List.cons_append, highlightFrom, hc]
    rw [highlightFrom_comment rest run (c :: seen) (fun d hd => h d (List.mem_cons_of_mem c hd))]
    simp

/-- A line, of which the comment `seen` stands before the characters that are left. -/
theorem highlights_highlightFrom : ∀ (cs seen : List Char), (∀ c ∈ seen, Op.ofChar? c = none) →
    Highlights (seen.reverse ++ cs) (highlightFrom seen cs)
  | [], seen, hseen => by
    have := Highlights.nil.commentSpan_append hseen (fun _ h => nomatch h)
    simpa [highlightFrom] using this
  | c :: cs, seen, hseen => by
    cases hop : Op.ofChar? c with
    | none =>
      have ih := highlights_highlightFrom cs (c :: seen) (List.forall_mem_cons.2 ⟨hop, hseen⟩)
      simpa [highlightFrom, hop] using ih
    | some op =>
      obtain rfl : op.toChar = c := Op.toChar_of_ofChar? hop
      have ih := highlights_highlightFrom cs [] (List.forall_mem_nil _)
      rw [highlightFrom_op]
      refine (ih.cons_op op).commentSpan_append hseen (fun t ht => ?_)
      obtain rfl : opSpan op = t := Option.some.inj ht
      exact not_showsComment_opSpan op

theorem highlights_highlight (line : List Char) : Highlights line (highlight line) :=
  highlights_highlightFrom line [] (List.forall_mem_nil _)

/-- **There is one way to highlight a line.** -/
theorem Highlights.unique : ∀ {spans : List Span} {line : List Char}, Highlights line spans → spans = highlight line
  | [], line, h => by
    obtain rfl : [] = line := h.text
    rfl
  | s :: spans, line, h => by
    rw [← h.text, List.flatMap_cons]
    rcases h.kind s List.mem_cons_self with ⟨op, rfl⟩ | hs
    · have ih := Highlights.unique h.tail
      show _ = highlightFrom [] (op.toChar :: spans.flatMap Span.text)
      rw [highlightFrom_op, ← ih]
      rfl
    · rw [highlight, highlightFrom_comment _ _ _ hs.comment, List.append_nil]
      cases spans with
      | nil => exact hs.commentSpan_eq.symm
      | cons t spans =>
        -- what follows a run of comment is an instruction character, at which the run ends
        have hnext := (List.isChain_cons.1 h.maximal).1 t rfl
        rcases h.kind t (List.mem_cons_of_mem s List.mem_cons_self) with ⟨op, rfl⟩ | ht
        · have ih := Highlights.unique h.tail.tail
          show _ = highlightFrom _ (op.toChar :: spans.flatMap Span.text)
          rw [highlightFrom_op, hs.commentSpan_eq, ← ih]
          rfl
        · exact absurd ⟨hs, ht⟩ hnext

/-! ## The marked character -/

theorem markColumn_of_length_lt {line : List Char} {column : Nat} (h : line.length < max column 1) :
    markColumn line column = highlight line := by
  rw [markColumn, List.drop_eq_nil_of_le (by omega)]

/-- A column in the line has a character, which the mark takes out. -/
theorem exists_markColumn_eq {line : List Char} {column : Nat} (h : max column 1 ≤ line.length) :
    ∃ before c after, line = before ++ c :: after ∧ before.length + 1 = max column 1 ∧
      markColumn line column = highlight before ++ mark c :: highlight after := by
  cases hdrop : line.drop (column - 1) with
  | nil =>
    have := List.drop_eq_nil_iff.1 hdrop
    omega
  | cons c after =>
    refine ⟨line.take (column - 1), c, after, ?_, ?_, ?_⟩
    · rw [← hdrop, List.take_append_drop]
    · rw [List.length_take]
      omega
    · rw [markColumn, hdrop]
      rfl

theorem filter_error_highlight (line : List Char) :
    (highlight line).filter (fun s => s.style = Theme.errorStyle) = [] := by
  refine List.filter_eq_nil_iff.2 (fun s hs herror => ?_)
  have hbg := bg_of_mem_highlightFrom hs
  rw [of_decide_eq_true herror] at hbg
  cases hbg

theorem filter_error_marked (before after : List Char) (c : Char) :
    (highlight before ++ mark c :: highlight after).filter (fun s => s.style = Theme.errorStyle) = [mark c] := by
  rw [List.filter_append, filter_error_highlight, List.filter_cons, filter_error_highlight]
  simp [mark]

theorem text_markColumn (line : List Char) (column : Nat) : (markColumn line column).flatMap Span.text = line := by
  rcases Nat.lt_or_ge line.length (max column 1) with hlt | hle
  · rw [markColumn_of_length_lt hlt, text_highlight]
  · obtain ⟨before, c, after, hline, -, hmark⟩ := exists_markColumn_eq hle
    rw [hmark, hline]
    simp [text_highlight, mark]

/-! ## Cutting the bytes of a line -/

/-- The UTF-8 bytes of a line. -/
def bytes (line : List Char) : List UInt8 := line.flatMap String.utf8EncodeChar

/-- The offset of the first byte of each character, if the first of them has the offset `start`. -/
def offsetsFrom (start : Nat) : List Char → List (Nat × Char)
  | [] => []
  | c :: rest => (start, c) :: offsetsFrom (start + c.utf8Size) rest

/-- The text of the bytes of a line from `start` on and before `stop`; none if the line has no such bytes, or if they
spell no text. -/
def slice? (line : List Char) (start stop : Nat) : Option (List Char) :=
  if start ≤ stop ∧ stop ≤ (bytes line).length then
    (((bytes line).drop start).take (stop - start)).toByteArray.utf8Decode?.map Array.toList
  else none

/-- A line marked at a column by cutting its bytes before and after the character there; none if a cut goes through a
character. -/
def markSlices (line : List Char) (column : Nat) : Option (List Span) :=
  match (offsetsFrom 0 line)[column - 1]? with
  | none => some (highlight line)
  | some (start, c) => do
    let stop := start + c.utf8Size
    let before ← slice? line 0 start
    let marked ← slice? line start stop
    let after ← slice? line stop (bytes line).length
    return highlight before ++ ⟨marked, Theme.errorStyle⟩ :: highlight after

theorem bytes_append (left right : List Char) : bytes (left ++ right) = bytes left ++ bytes right := List.flatMap_append

theorem length_bytes_cons (c : Char) (line : List Char) :
    (bytes (c :: line)).length = c.utf8Size + (bytes line).length := by
  rw [bytes, List.flatMap_cons, List.length_append, String.length_utf8EncodeChar]
  rfl

theorem length_offsetsFrom : ∀ (line : List Char) (start : Nat), (offsetsFrom start line).length = line.length
  | [], _ => rfl
  | c :: line, start => by rw [offsetsFrom, List.length_cons, length_offsetsFrom line, List.length_cons]

theorem getElem?_offsetsFrom (c : Char) (after : List Char) : ∀ (before : List Char) (start : Nat),
    (offsetsFrom start (before ++ c :: after))[before.length]? = some (start + (bytes before).length, c)
  | [], _ => rfl
  | b :: before, start => by
    rw [List.cons_append, offsetsFrom, List.length_cons, List.getElem?_cons_succ, getElem?_offsetsFrom c after before,
      length_bytes_cons, Nat.add_assoc]

/-- Bytes cut where characters begin are those of the characters between. -/
theorem slice?_of_append {line : List Char} {start stop : Nat} (before piece after : List Char)
    (hline : line = before ++ (piece ++ after)) (hstart : start = (bytes before).length)
    (hstop : stop = start + (bytes piece).length) : slice? line start stop = some piece := by
  subst hline hstop hstart
  have hcut : ((bytes (before ++ (piece ++ after))).drop (bytes before).length).take
      ((bytes before).length + (bytes piece).length - (bytes before).length) = bytes piece := by
    rw [bytes_append, bytes_append, List.drop_left, Nat.add_sub_cancel_left, List.take_left]
  have hdecode : (bytes piece).toByteArray.utf8Decode? = some piece.toArray := List.utf8Decode?_utf8Encode
  rw [slice?, if_pos, hcut, hdecode]
  · simp
  · rw [bytes_append, bytes_append, List.length_append, List.length_append]
    omega

/-- **Marking by bytes is marking by characters**: no cut goes through a character. -/
theorem markSlices_eq (line : List Char) (column : Nat) : markSlices line column = some (markColumn line column) := by
  rcases Nat.lt_or_ge line.length (max column 1) with hlt | hle
  · have hnone : (offsetsFrom 0 line)[column - 1]? = none := by
      rw [List.getElem?_eq_none_iff, length_offsetsFrom]
      omega
    rw [markSlices, hnone, markColumn_of_length_lt hlt]
  · obtain ⟨before, c, after, hline, hlength, hmark⟩ := exists_markColumn_eq hle
    have hoffset : (offsetsFrom 0 line)[column - 1]? = some ((bytes before).length, c) := by
      rw [hline, show column - 1 = before.length by omega, getElem?_offsetsFrom, Nat.zero_add]
    have hc : (bytes [c]).length = c.utf8Size := length_bytes_cons c []
    have hstop : (bytes (before ++ [c])).length = (bytes before).length + c.utf8Size := by
      rw [bytes_append, List.length_append, hc]
    have hleft : slice? line 0 (bytes before).length = some before :=
      slice?_of_append [] before (c :: after) hline rfl (Nat.zero_add _).symm
    have hmarked : slice? line (bytes before).length ((bytes before).length + c.utf8Size) = some [c] :=
      slice?_of_append before [c] after hline rfl (by rw [hc])
    have hright : slice? line ((bytes before).length + c.utf8Size) (bytes line).length = some after :=
      slice?_of_append (before ++ [c]) after [] (by simp [hline]) hstop.symm
        (by rw [← hstop, ← List.length_append, ← bytes_append, hline]; simp)
    rw [markSlices, hoffset, hmark]
    simp [hleft, hmarked, hright, mark]

/-- **Highlighting neither loses nor invents text.**  A highlighted line shows the line, cut into instruction characters
in the styles of their operations and the longest runs of comment between them, and nothing else is such a cut.  With a
mark it still shows the line.  A column in the line, where column 0 is taken for the first, has its character in the
error style, as the only span that has it, between the highlighted text before and after; any other column leaves
the line highlighted as it was.  Cutting the bytes of the line at the mark gives the same spans. -/
theorem highlighting_keeps_text (line : List Char) :
    (∀ spans, Highlights line spans ↔ spans = highlight line) ∧
    ∀ column,
      (markColumn line column).flatMap Span.text = line ∧
      (max column 1 ≤ line.length → ∃ before c after, line = before ++ c :: after ∧ before.length + 1 = max column 1 ∧
        markColumn line column = highlight before ++ ⟨[c], Theme.errorStyle⟩ :: highlight after ∧
        (markColumn line column).filter (fun s => s.style = Theme.errorStyle) = [⟨[c], Theme.errorStyle⟩]) ∧
      (line.length < max column 1 → markColumn line column = highlight line) ∧
      markSlices line column = some (markColumn line column) := by
  refine ⟨fun spans => ⟨fun h => h.unique, fun heq => heq ▸ highlights_highlight line⟩, fun column => ⟨?_, ?_, ?_, ?_⟩⟩
  · exact text_markColumn line column
  · intro hle
    obtain ⟨before, c, after, hline, hlength, hmark⟩ := exists_markColumn_eq hle
    refine ⟨before, c, after, hline, hlength, hmark, ?_⟩
    rw [hmark]
    exact filter_error_marked before after c
  · exact markColumn_of_length_lt
  · exact markSlices_eq line column

/-- The `<` of a line marked between comment characters of two and of three bytes, and a column past its end. -/
theorem highlighting_keeps_text_between_comments :
    let line := "é€<b".toList
    max 3 1 ≤ line.length ∧ line.length < max 5 1 ∧ Highlights line (highlight line) ∧
      (∃ before c after, line = before ++ c :: after ∧ before.length = 2 ∧
        (markColumn line 3).filter (fun s => s.style = Theme.errorStyle) = [⟨[c], Theme.errorStyle⟩]) ∧
      markSlices line 3 =
        some [⟨['é', '€'], Theme.commentStyle⟩, ⟨['<'], Theme.errorStyle⟩, ⟨['b'], Theme.commentStyle⟩] ∧
      markColumn line 5 = highlight line := by
  intro line
  have hin : max 3 1 ≤ line.length := by decide
  have hpast : line.length < max 5 1 := by decide
  obtain ⟨hhighlights, hmark⟩ := highlighting_keeps_text line
  obtain ⟨before, c, after, hline, hlength, -, hsingle⟩ := (hmark 3).2.1 hin
  refine ⟨hin, hpast, (hhighlights _).2 rfl, ⟨before, c, after, hline, Nat.succ.inj hlength, hsingle⟩, ?_, ?_⟩
  · rw [(hmark 3).2.2.2]
    decide
  · exact (hmark 5).2.2.1 hpast

end Brainfuck.SourcePane
