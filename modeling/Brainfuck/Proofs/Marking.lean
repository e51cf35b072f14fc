import Brainfuck.Console.Frame
import Brainfuck.Proofs.Caret
/-!
# The fault in view

A run that failed at an instruction scrolls the source so that two lines above the fault are in view, as far as there
are any; drawing then clamps the offset to the lines there are.  With three rows of text or more the line at fault is
in view after that (`SourcePane.clampScroll_window`), its number stands out, and so does the one character meant
(`App.failed_run_marks_fault`).  The line and the column were counted while the text was read, and the rows are lines
of `Text.lines`; that both mean the same character is `exists_line_of_mem_instructionsOf`.
-/
namespace Brainfuck

namespace SourcePane

/-! ## Highlighted text -/

theorem text_commentSpan (seen : List Char) : (commentSpan seen).flatMap Span.text = seen.reverse := by
  unfold commentSpan
  cases seen <;> simp

theorem text_highlightFrom : ∀ (cs seen : List Char),
    (highlightFrom seen cs).flatMap Span.text = seen.reverse ++ cs
  | [], seen => by simp [highlightFrom, text_commentSpan]
  | c :: cs, seen => by
    simp only [highlightFrom]
    split
    · simp [text_commentSpan, text_highlightFrom cs []]
    · simp [text_highlightFrom cs (c :: seen)]

theorem text_highlight (line : List Char) : (highlight line).flatMap Span.text = line := text_highlightFrom line []

theorem bg_opStyle (op : Op) : (Theme.opStyle op).bg = none := by cases op <;> rfl

theorem bg_of_mem_commentSpan {seen : List Char} {s : Span} (h : s ∈ commentSpan seen) : s.style.bg = none := by
  unfold commentSpan at h
  split at h
  · cases h
  · rw [List.mem_singleton.1 h]
    rfl

theorem bg_of_mem_highlightFrom {s : Span} : ∀ {cs seen : List Char}, s ∈ highlightFrom seen cs → s.style.bg = none
  | [], seen, h => bg_of_mem_commentSpan h
  | c :: cs, seen, h => by
    simp only [highlightFrom] at h
    split at h
    · rcases List.mem_append.1 h with h | h
      · exact bg_of_mem_commentSpan h
      · rcases List.mem_cons.1 h with rfl | h
        · exact bg_opStyle _
        · exact bg_of_mem_highlightFrom h
    · exact bg_of_mem_highlightFrom h

/-! ## Marked spans -/

/-- Whether a span is drawn on the background that marks a fault. -/
def isMark (s : Span) : Bool := decide (s.style.bg = some Theme.error)

/-- The span of the character at fault. -/
def mark (c : Char) : Span := ⟨[c], Theme.errorStyle⟩

theorem filter_isMark_highlight (line : List Char) : (highlight line).filter isMark = [] := by
  refine List.filter_eq_nil_iff.2 (fun s hs => ?_)
  simp [isMark, bg_of_mem_highlightFrom hs]

theorem markColumn_append (inLine more : List Char) (c : Char) :
    markColumn (inLine ++ c :: more) (inLine.length + 1) = highlight inLine ++ mark c :: highlight more := by
  simp [markColumn, mark]

/-! ## Rows -/

/-- What stands before the text of a line. -/
def gutter (number : Nat) (style : Style) : Span := .ofString (Listing.alignRight 4 (toString number) ++ " ") style

theorem row_of_ne {l : Location} {number : Nat} (h : l.line ≠ number) (line : List Char) :
    row (some l) number line = gutter number Theme.commentStyle :: highlight line := by
  simp [row, gutter, Option.filter, h]

theorem row_self (l : Location) (line : List Char) :
    row (some l) l.line line = gutter l.line Theme.errorGutter :: markColumn line l.column := by
  simp [row, gutter, Option.filter]

variable (source : String) (fault? : Option Location) (height top : Nat)

theorem getElem?_rows (k : Nat) : (rows source fault? height top)[k]? =
    if k < visibleRows height then (Text.lines source)[top + k]?.map (row fault? (top + k + 1)) else none := by
  unfold rows
  rw [List.getElem?_map, List.getElem?_take]
  split
  · rw [List.getElem?_drop, List.getElem?_zipIdx, Option.map_map]
    simp [Function.comp_def]
  · rfl

theorem length_rows : (rows source fault? height top).length =
    min (visibleRows height) ((Text.lines source).length - top) := by
  simp [rows]

/-! ## The offset -/

theorem clampScroll_clampScroll (count scroll : Nat) :
    clampScroll count height (clampScroll count height scroll) = clampScroll count height scroll := by
  unfold clampScroll
  omega

/-- From the clamped offset on there are as many rows as fit, or all there are. -/
theorem length_rows_clampScroll (scroll : Nat) :
    (rows source fault? height (clampScroll (Text.lines source).length height scroll)).length =
      min (visibleRows height) (Text.lines source).length := by
  rw [length_rows]
  unfold clampScroll
  omega

/-- **A line that the offset was set for is in view**, the two lines above it included or not. -/
theorem clampScroll_window (count line : Nat) (hpos : 0 < line) (hle : line ≤ count) (hh : 5 ≤ height) :
    let top := clampScroll count height (line - 3)
    top < line ∧ line ≤ top + visibleRows height := by
  unfold clampScroll visibleRows
  omega

/-! ## One mark -/

/-- The rows show the lines of a source after the first `top`, and of all their spans one is marked: the character `c`,
in the row of line `l.line` and at column `l.column` of that line, whose number alone stands out. -/
structure Marks (source : String) (l : Location) (c : Char) (top : Nat) (shown : List (List Span)) : Prop where
  /-- The row of the line at fault. -/
  row_at : ∃ k line left right, top + k + 1 = l.line ∧ (Text.lines source)[top + k]? = some line ∧
    shown[k]? = some (gutter l.line Theme.errorGutter :: (left ++ mark c :: right)) ∧
    left.flatMap Span.text ++ c :: right.flatMap Span.text = line ∧ (left.flatMap Span.text).length + 1 = l.column
  /-- The other rows. -/
  other : ∀ k r, shown[k]? = some r → top + k + 1 ≠ l.line → ∃ line, (Text.lines source)[top + k]? = some line ∧
    ∃ spans, r = gutter (top + k + 1) Theme.commentStyle :: spans ∧ spans.flatMap Span.text = line
  single : shown.flatten.filter isMark = [mark c]

theorem filter_isMark_flatten {shown : List (List Span)} {k : Nat} {r : List Span} (hk : shown[k]? = some r)
    (hother : ∀ j r', shown[j]? = some r' → j ≠ k → r'.filter isMark = []) :
    shown.flatten.filter isMark = r.filter isMark := by
  have hnone : ∀ part : List (List Span), (∀ r' ∈ part, r'.filter isMark = []) → part.flatten.filter isMark = [] := by
    intro part hpart
    rw [List.filter_flatten, List.flatten_eq_nil_iff]
    rintro _ hr
    obtain ⟨r', hr', rfl⟩ := List.mem_map.1 hr
    exact hpart r' hr'
  obtain ⟨hlt, rfl⟩ := List.getElem?_eq_some_iff.1 hk
  have hbefore : ∀ r' ∈ shown.take k, r'.filter isMark = [] := by
    intro r' hr'
    obtain ⟨j, hj⟩ := List.mem_iff_getElem?.1 hr'
    rw [List.getElem?_take] at hj
    split at hj
    · rename_i hjk
      exact hother j r' hj (by omega)
    · cases hj
  have hafter : ∀ r' ∈ shown.drop (k + 1), r'.filter isMark = [] := by
    intro r' hr'
    obtain ⟨j, hj⟩ := List.mem_iff_getElem?.1 hr'
    rw [List.getElem?_drop] at hj
    exact hother _ r' hj (by omega)
  calc shown.flatten.filter isMark
      = (shown.take k ++ shown[k] :: shown.drop (k + 1)).flatten.filter isMark := by simp
    _ = shown[k].filter isMark := by
      rw [List.flatten_append, List.flatten_cons, List.filter_append, List.filter_append, hnone _ hbefore,
        hnone _ hafter, List.nil_append, List.append_nil]

/-- **Rows in which the line of a fault is in view mark the character at fault, and nothing else.** -/
theorem marks_rows {source : String} {l : Location} {c : Char} {inLine more : List Char} {height top : Nat}
    (hline : (Text.lines source)[l.line - 1]? = some (inLine ++ c :: more)) (hcolumn : l.column = inLine.length + 1)
    (htop : top < l.line) (hview : l.line ≤ top + visibleRows height) :
    Marks source l c top (rows source (some l) height top) := by
  have hat : top + (l.line - 1 - top) = l.line - 1 := by omega
  have hnumber : top + (l.line - 1 - top) + 1 = l.line := by omega
  have hrow : (rows source (some l) height top)[l.line - 1 - top]? =
      some (gutter l.line Theme.errorGutter :: (highlight inLine ++ mark c :: highlight more)) := by
    rw [getElem?_rows, if_pos (by omega), hat, hline, ← markColumn_append, ← hcolumn, ← row_self]
    simp only [Option.map_some]
    rw [Nat.sub_add_cancel (by omega)]
  have hother : ∀ k r, (rows source (some l) height top)[k]? = some r → top + k + 1 ≠ l.line →
      ∃ line, (Text.lines source)[top + k]? = some line ∧
        r = gutter (top + k + 1) Theme.commentStyle :: highlight line := by
    intro k r hk hne
    rw [getElem?_rows] at hk
    split at hk
    · obtain ⟨line, hl, rfl⟩ := Option.map_eq_some_iff.1 hk
      exact ⟨line, hl, row_of_ne (Ne.symm hne) line⟩
    · cases hk
  refine ⟨⟨_, inLine ++ c :: more, _, _, hnumber, ?_, hrow, ?_, ?_⟩, ?_, ?_⟩
  · rw [hat, hline]
  · simp [text_highlight]
  · rw [text_highlight, hcolumn]
  · intro k r hk hne
    obtain ⟨line, hl, rfl⟩ := hother k r hk hne
    exact ⟨line, hl, highlight line, rfl, text_highlight line⟩
  · rw [filter_isMark_flatten hrow]
    · simp only [List.filter_cons, List.filter_append, filter_isMark_highlight]
      simp [isMark, gutter, mark, Span.ofString, Theme.errorGutter, Theme.errorStyle]
    · intro j r hj hne
      obtain ⟨line, -, rfl⟩ := hother j r hj (by omega)
      simp only [List.filter_cons, filter_isMark_highlight]
      simp [isMark, gutter, Span.ofString, Theme.commentStyle]

end SourcePane

namespace App

theorem sourceScroll_finishRun (a : App) {e : RunError} {l : Location} (hl : e.location? = some l) :
    (a.finishRun (.error e)).sourceScroll = l.line - 3 := by
  simp [finishRun, hl]

open SourcePane in
/-- **A run that fails at an instruction brings it into view and marks it.**  Wherever the source was scrolled before,
the pane, drawn with three rows of text or more, shows the line of the fault; the character at fault is the one span of
all rows on the error background, and its line number is the only one that stands out.  As many rows are shown as fit,
or as the source has lines, and drawing again changes neither the offset nor the rows. -/
theorem failed_run_marks_fault {σ ι : Type} (w : Setting σ ι) (patience : Nat) (sink : σ) (input : ι) (a : App)
    {o : Outcome σ ι} {e : RunError} {l : Location} (ho : runSource w patience a.source sink input = some o)
    (he : o.result = .error e) (hl : e.location? = some l) (area : Area) (hh : 5 ≤ area.height) :
    let b := a.finishRun (.error e)
    let top := clampScroll (Text.lines a.source).length area.height b.sourceScroll
    let shown := rows a.source b.fault? area.height top
    (∀ (s : Screen) (focused : Bool),
      let frame := (s.box area (Theme.border focused) " Source ").writeRows area.inner shown
      SourcePane.draw s area b.source b.fault? focused b.sourceScroll = (frame, top) ∧
        SourcePane.draw s area b.source b.fault? focused top = (frame, top)) ∧
    shown.length = min (max (area.height - 2) 1) (Text.lines a.source).length ∧
    ∃ index op, e.index? = some index ∧ e.culprit? = some op ∧ a.source.toList[index]? = some op.toChar ∧
      l = locate a.source index ∧ Marks a.source l op.toChar top shown := by
  intro b top shown
  have hagain : clampScroll (Text.lines a.source).length area.height top = top := clampScroll_clampScroll ..
  refine ⟨fun s focused => ⟨rfl, ?_⟩, length_rows_clampScroll .., ?_⟩
  · show SourcePane.draw s area a.source b.fault? focused top = _
    unfold SourcePane.draw
    rw [hagain]
  · obtain ⟨site, hsite, rfl⟩ := Option.map_eq_some_iff.1 hl
    rw [runSource_eq] at ho
    obtain ⟨i, hi, rfl, hop⟩ := blames_of_runInstructions ho he site hsite
    obtain ⟨before, inLine, more, after, hs, -, hindex, hloc, hline⟩ := exists_line_of_mem_instructionsOf hi
    have hnumber : i.location.line = before.count '\n' + 1 := by rw [hloc]
    have hat : (Text.lines a.source)[i.location.line - 1]? = some (inLine ++ i.op.toChar :: more) := by
      rw [hnumber, Nat.add_sub_cancel, hline]
    obtain ⟨hlt, -⟩ := List.getElem?_eq_some_iff.1 hline
    have htop : top = clampScroll (Text.lines a.source).length area.height (i.location.line - 3) :=
      congrArg (clampScroll _ _) (sourceScroll_finishRun a hl)
    have hwindow := clampScroll_window area.height (Text.lines a.source).length i.location.line (by omega) (by omega) hh
    rw [← htop] at hwindow
    refine ⟨i.index, i.op, by rw [RunError.index?, hsite]; rfl, hop, ?_, location_eq_locate hi, ?_⟩
    · rw [hs, hindex]
      simp
    · have hfault : b.fault? = some i.location := hl
      simp only [shown, hfault]
      exact marks_rows hat (by rw [hloc]) hwindow.1 hwindow.2

open SourcePane in
/-- A fault on the sixth of seven lines, after a line that ends in `\r\n` and in a console scrolled far too far. -/
theorem failed_run_marks_fault_sixth_line :
    let w : Setting (Array UInt8) Unit := ⟨{ tape := .fixed 1, maxSteps := some 9 }, .collecting, .absent, .idle⟩
    let source := "é\n\n\n\n.\r\n+ <\n\n"
    let a : App := { App.new source {} (fun _ => 0) with sourceScroll := 99 }
    let e : RunError := .underflow ⟨10, 6, 3⟩
    let b := a.finishRun (.error e)
    let shown := rows source b.fault? 5 3
    (∃ o, runSource w 0 source #[] () = some o ∧ o.result = .error e) ∧
      clampScroll (Text.lines source).length 5 b.sourceScroll = 3 ∧ shown.length = 3 ∧
      Marks source ⟨6, 3⟩ '<' 3 shown := by
  intro w source a e b shown
  have hscroll : clampScroll (Text.lines source).length 5 b.sourceScroll = 3 := by decide +kernel
  have hrun : (runSource w 0 source #[] ()).map (·.result) = some (.error e) := by decide +kernel
  obtain ⟨o, ho, he⟩ := Option.map_eq_some_iff.1 hrun
  obtain ⟨-, -, index, op, -, hop, -, -, hmarks⟩ :=
    failed_run_marks_fault w 0 #[] () a ho he rfl ⟨0, 0, 40, 5⟩ (Nat.le_refl 5)
  refine ⟨⟨o, ho, he⟩, hscroll, ?_, ?_⟩
  · decide +kernel
  · cases hop
    have hm : Marks source ⟨6, 3⟩ '<' (clampScroll (Text.lines source).length 5 b.sourceScroll)
        (rows source b.fault? 5 (clampScroll (Text.lines source).length 5 b.sourceScroll)) := hmarks
    rwa [hscroll] at hm

end App

end Brainfuck
