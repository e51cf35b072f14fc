import Mathlib.Data.List.Basic
import Brainfuck.Proofs.Blame
/-!
# The caret stands under the character meant

Instructions are counted by line and column while the text is read, where only `\n` ends a line; a diagnostic quotes a
line as `Text.lines` gives it, without the `\r` of its line end.  The two agree on every character that is neither
(`Text.exists_line`), and all that errors are about is.  So the character at which a caret points is the one whose index
the error carries (`diagnostics_point_at_culprit`).
-/
namespace Brainfuck

/-! ## Lines and columns -/

namespace Text

theorem mem_of_mem_dropReturn {x : Char} {line : List Char} (h : x ∈ dropReturn line) : x ∈ line := by
  unfold dropReturn at h
  split at h
  · exact List.mem_cons_of_mem _ h
  · exact h

theorem not_mem_of_mem_linesFrom : ∀ (cs seen : List Char), '\n' ∉ seen → ∀ line ∈ linesFrom seen cs, '\n' ∉ line
  | [], seen, hseen, line, h => by
    simp only [linesFrom] at h
    split at h
    · cases h
    · rw [List.mem_singleton] at h
      simpa [h] using hseen
  | c :: cs, seen, hseen, line, h => by
    simp only [linesFrom] at h
    split at h
    · rcases List.mem_cons.1 h with rfl | h
      · exact fun hmem => hseen (mem_of_mem_dropReturn (List.mem_reverse.1 hmem))
      · exact not_mem_of_mem_linesFrom cs [] List.not_mem_nil line h
    · rename_i hc
      exact not_mem_of_mem_linesFrom cs (c :: seen) (by simp [hseen, Ne.symm hc]) line h

theorem not_mem_of_mem_lines {text : String} {line : List Char} (h : line ∈ lines text) : '\n' ∉ line :=
  not_mem_of_mem_linesFrom text.toList [] List.not_mem_nil line h

/-- The end of a line takes away its last character at most, and none but `\r`. -/
theorem dropReturn_kept {c : Char} (hr : c ≠ '\r') (seen mid : List Char) :
    ∃ more, (dropReturn (mid.reverse ++ c :: seen)).reverse = seen.reverse ++ c :: more ∧ more <+: mid := by
  rcases List.eq_nil_or_concat mid with rfl | ⟨mid, y, rfl⟩
  · refine ⟨[], ?_, List.nil_prefix⟩
    unfold dropReturn
    split
    · rename_i heq
      exact absurd (List.cons.inj heq).1 hr
    · simp
  · rw [List.concat_eq_append, List.reverse_append, List.reverse_singleton, List.singleton_append, List.cons_append]
    unfold dropReturn
    split
    · rename_i heq
      obtain ⟨-, rfl⟩ := List.cons.inj heq
      exact ⟨mid, by simp, List.prefix_append mid [y]⟩
    · exact ⟨mid ++ [y], by simp, List.prefix_rfl⟩

/-- A line that has shown a character other than `\r` keeps it, and all that came before it. -/
theorem linesFrom_kept {c : Char} (hr : c ≠ '\r') (seen : List Char) : ∀ (post mid : List Char),
    ∃ more rest, linesFrom (mid.reverse ++ c :: seen) post = (seen.reverse ++ c :: more) :: rest ∧
      more <+: mid ++ post
  | [], mid => ⟨mid, [], by simp [linesFrom]⟩
  | x :: post, mid => by
    by_cases hx : x = '\n'
    · obtain ⟨more, hline, hmore⟩ := dropReturn_kept hr seen mid
      refine ⟨more, linesFrom [] post, ?_, hmore.trans (List.prefix_append mid (x :: post))⟩
      rw [linesFrom, if_pos hx, hline]
    · obtain ⟨more, rest, hlines, hmore⟩ := linesFrom_kept hr seen post (mid ++ [x])
      refine ⟨more, rest, ?_, by simpa using hmore⟩
      rw [← hlines, linesFrom, if_neg hx]
      simp

/-- **The column counted while reading is the place in the line quoted.**  A character stands after `pre`, of which
`before` are the lines before its own; its line has already shown `seen`. -/
theorem exists_line {c : Char} (hr : c ≠ '\r') (hn : c ≠ '\n') (post : List Char) :
    ∀ (pre seen : List Char) (n : Nat), '\n' ∉ seen → ∃ before inLine more,
      seen.reverse ++ pre = before ++ inLine ∧ (before = [] ∨ before.getLast? = some '\n') ∧
      pre.foldl Location.after ⟨n, seen.length + 1⟩ = ⟨n + before.count '\n', inLine.length + 1⟩ ∧
      (linesFrom seen (pre ++ c :: post))[before.count '\n']? = some (inLine ++ c :: more) ∧ more <+: post
  | [], seen, n, _ => by
    obtain ⟨more, rest, hlines, hmore⟩ := linesFrom_kept hr seen post []
    refine ⟨[], seen.reverse, more, by simp, .inl rfl, by simp, ?_, hmore⟩
    simp only [List.reverse_nil, List.nil_append] at hlines
    simp [linesFrom, hn, hlines]
  | x :: pre, seen, n, hseen => by
    by_cases hx : x = '\n'
    · subst hx
      -- a new line begins, and `seen` is all of the line that ends here
      obtain ⟨before, inLine, more, hpre, hlast, hloc, hline, hmore⟩ :=
        exists_line hr hn post pre [] (n + 1) List.not_mem_nil
      have hcount : (seen.reverse ++ '\n' :: before).count '\n' = before.count '\n' + 1 := by
        simp [List.count_eq_zero.2 hseen]
      refine ⟨seen.reverse ++ '\n' :: before, inLine, more, ?_, .inr ?_, ?_, ?_, hmore⟩
      · simpa using hpre
      · rcases hlast with rfl | hlast
        · simp
        · simp [List.getLast?_append, List.getLast?_cons, hlast]
      · rw [hcount, List.foldl_cons]
        simp only [Location.after, if_true]
        simpa [Nat.add_comm, Nat.add_left_comm] using hloc
      · rw [hcount, List.cons_append]
        simp only [linesFrom, if_true]
        exact hline
    · obtain ⟨before, inLine, more, hpre, hlast, hloc, hline, hmore⟩ :=
        exists_line hr hn post pre (x :: seen) n (by simp [hseen, Ne.symm hx])
      refine ⟨before, inLine, more, by simpa using hpre, hlast, ?_, ?_, hmore⟩
      · rw [List.foldl_cons, ← hloc]
        simp [Location.after, hx]
      · rw [← hline, List.cons_append]
        simp [linesFrom, hx]

end Text

/-! ## The sites of instructions -/

/-- An instruction stands where its character does. -/
theorem exists_of_mem_instructionsFrom {i : Instruction} : ∀ {cs : List Char} {index : Nat} {location : Location},
    i ∈ instructionsFrom index location cs → ∃ pre post, cs = pre ++ i.op.toChar :: post ∧
      i.index = index + pre.length ∧ i.location = pre.foldl Location.after location
  | [], _, _, h => by cases h
  | c :: cs, index, location, h => by
    have hlater : i ∈ instructionsFrom (index + 1) (location.after c) cs → ∃ pre post,
        c :: cs = pre ++ i.op.toChar :: post ∧ i.index = index + pre.length ∧
          i.location = pre.foldl Location.after location := by
      intro h
      obtain ⟨pre, post, rfl, hi, hl⟩ := exists_of_mem_instructionsFrom h
      exact ⟨c :: pre, post, rfl, by rw [hi, List.length_cons]; omega, hl⟩
    simp only [instructionsFrom] at h
    split at h
    · rename_i op hop
      rcases List.mem_cons.1 h with rfl | h
      · exact ⟨[], cs, by rw [Op.toChar_of_ofChar? hop]; rfl, rfl, rfl⟩
      · exact hlater h
    · exact hlater h

theorem exists_of_mem_instructionsOf {source : String} {i : Instruction} (h : i ∈ instructionsOf source) :
    ∃ pre post, source.toList = pre ++ i.op.toChar :: post ∧ i.index = pre.length ∧
      i.location = pre.foldl Location.after .start := by
  obtain ⟨pre, post, hs, hi, hl⟩ := exists_of_mem_instructionsFrom h
  exact ⟨pre, post, hs, by rw [hi, Nat.zero_add], hl⟩

theorem location_eq_locate {source : String} {i : Instruction} (h : i ∈ instructionsOf source) :
    i.location = locate source i.index := by
  obtain ⟨pre, post, hs, hi, hl⟩ := exists_of_mem_instructionsOf h
  rw [hl, locate, hs, hi, List.take_left]

/-- The instruction that a character at this index of a text spells, if it is an instruction character. -/
def instructionAt? (source : String) (c : Char) (index : Nat) : Option Instruction :=
  (Op.ofChar? c).map (fun op => ⟨⟨index, locate source index⟩, op⟩)

/-- The instructions that some characters of a text spell, the first of which has this index. -/
def instructionsAt (source : String) (index : Nat) (cs : List Char) : List Instruction :=
  (cs.zipIdx index).filterMap (fun (c, k) => instructionAt? source c k)

theorem instructionsFrom_locate (source : String) : ∀ {cs : List Char} {index : Nat},
    source.toList.drop index = cs →
      instructionsFrom index (locate source index) cs = instructionsAt source index cs
  | [], _, _ => rfl
  | c :: cs, index, h => by
    have hget : source.toList[index]? = some c := by rw [← List.head?_drop, h]; rfl
    have hafter : locate source (index + 1) = (locate source index).after c := by
      rw [locate, List.take_add_one, hget, List.foldl_append]
      rfl
    have hdrop : source.toList.drop (index + 1) = cs := by rw [← List.drop_drop, h]; rfl
    have ih := instructionsFrom_locate source hdrop
    rw [hafter, instructionsAt] at ih
    simp only [instructionsFrom, instructionsAt, List.zipIdx_cons, ih]
    cases hop : Op.ofChar? c <;> simp [instructionAt?, hop]

/-- **The instructions of a text, character by character.** -/
theorem instructionsOf_eq (source : String) : instructionsOf source = instructionsAt source 0 source.toList :=
  instructionsFrom_locate source rfl

theorem instructionsAt_append (source : String) (index : Nat) (cs ds : List Char) :
    instructionsAt source index (cs ++ ds) =
      instructionsAt source index cs ++ instructionsAt source (index + cs.length) ds := by
  simp only [instructionsAt, List.zipIdx_append, List.filterMap_append]

theorem Op.toChar_ne_return (op : Op) : op.toChar ≠ '\r' := by cases op <;> decide

theorem Op.toChar_ne_newline (op : Op) : op.toChar ≠ '\n' := by cases op <;> decide

/-- The line of an instruction, as it is quoted, has the instruction's character at its column. -/
theorem exists_line_of_mem_instructionsOf {source : String} {i : Instruction} (h : i ∈ instructionsOf source) :
    ∃ before inLine more after, source.toList = before ++ (inLine ++ i.op.toChar :: more) ++ after ∧
      (before = [] ∨ before.getLast? = some '\n') ∧ i.index = before.length + inLine.length ∧
      i.location = ⟨before.count '\n' + 1, inLine.length + 1⟩ ∧
      (Text.lines source)[before.count '\n']? = some (inLine ++ i.op.toChar :: more) := by
  obtain ⟨pre, post, hs, hi, hl⟩ := exists_of_mem_instructionsOf h
  obtain ⟨before, inLine, more, hpre, hstart, hloc, hline, ⟨after, rfl⟩⟩ :=
    Text.exists_line i.op.toChar_ne_return i.op.toChar_ne_newline post pre [] 1 List.not_mem_nil
  rw [List.reverse_nil, List.nil_append] at hpre
  refine ⟨before, inLine, more, after, by simp [hs, hpre], hstart, ?_, ?_, ?_⟩
  · rw [hi, hpre, List.length_append]
  · rw [hl, Location.start, Nat.add_comm (before.count '\n')]
    exact hloc
  · rw [Text.lines, hs]
    exact hline

/-! ## The text of a diagnostic -/

namespace Diagnostic

/-- The diagnostic `text` points at the character `c` that `source` has at `index`.  Its first line quotes the line of
the source that begins after `before`, and its second line has as many dashes as there are characters in the first
before that very character. -/
structure PointsAt (source : String) (index : Nat) (c : Char) (text : String) : Prop where
  char_at : source.toList[index]? = some c
  caret : ∃ (before line after first second : List Char) (rest : List (List Char)),
    source.toList = before ++ line ++ after ∧ (before = [] ∨ before.getLast? = some '\n') ∧
    (locate source index).line = before.count '\n' + 1 ∧ (Text.lines source)[before.count '\n']? = some line ∧
    text.toList.splitOn '\n' = first :: second :: rest ∧
    first = ("Line " ++ toString (locate source index).line ++ ": ").toList ++ line ∧
    first[second.count '-']? = some c ∧
    before.length + second.count '-' = index + ("Line " ++ toString (locate source index).line ++ ": ").length

theorem heading_eq (n : Nat) : heading n = "Line " ++ toString n ++ ": " := rfl

theorem newline_not_mem_heading (n : Nat) : '\n' ∉ (heading n).toList := by
  have hdigits : '\n' ∉ Nat.toDigits 10 n := fun hmem =>
    absurd (Nat.isDigit_of_mem_toDigits (by decide) (by decide) hmem) (by decide)
  simp [heading_eq, String.toList_append, hdigits]

theorem splitOn_render {source : String} {l : Location} {line : List Char} {n : Nat} (hl : l.line = n + 1)
    (h : (Text.lines source)[n]? = some line) (message : String) :
    (render source l message).toList.splitOn '\n' = ((heading l.line).toList ++ line) ::
      (List.replicate (dashes l) '-' ++ "^ Error here".toList) :: ('\n' :: message.toList).splitOn '\n' := by
  have hline : (lineText source l.line).toList = line := by
    simp [lineText, hl, List.getD_eq_getElem?_getD, h]
  have htext : (render source l message).toList = ((heading l.line).toList ++ line) ++ '\n' ::
      ((List.replicate (dashes l) '-' ++ "^ Error here".toList) ++ '\n' :: '\n' :: message.toList) := by
    simp [render, String.toList_append, hline]
  have hfirst : '\n' ∉ (heading l.line).toList ++ line := by
    rw [List.mem_append]
    exact fun h' => h'.elim (newline_not_mem_heading _) (Text.not_mem_of_mem_lines (List.mem_of_getElem? h))
  have hsecond : '\n' ∉ List.replicate (dashes l) '-' ++ "^ Error here".toList := by
    simp [List.mem_replicate]
  rw [htext, List.splitOn_append_cons_self_of_not_mem hfirst, List.splitOn_append_cons_self_of_not_mem hsecond]

/-- **A diagnostic about an instruction points at its character.** -/
theorem pointsAt_render {source : String} {i : Instruction} (h : i ∈ instructionsOf source) (message : String) :
    PointsAt source i.index i.op.toChar (render source i.location message) := by
  obtain ⟨before, inLine, more, after, hs, hstart, hi, hloc, hlines⟩ := exists_line_of_mem_instructionsOf h
  have hlocate : locate source i.index = i.location := (location_eq_locate h).symm
  have hdashes : (List.replicate (dashes i.location) '-' ++ "^ Error here".toList).count '-' =
      (heading i.location.line).length + inLine.length := by
    simp [List.count_append, dashes, hloc]
  refine ⟨?_, before, inLine ++ i.op.toChar :: more, after, _, _, _, hs, hstart, ?_, hlines,
    splitOn_render (by rw [hloc]) hlines message, ?_, ?_, ?_⟩
  · simp [hs, hi]
  · rw [hlocate, hloc]
  · rw [hlocate]
    rfl
  · rw [hdashes, ← List.append_assoc, ← String.length_toList, ← List.length_append]
    simp
  · rw [hdashes, hlocate, hi]
    rw [heading_eq]
    omega

end Diagnostic

open Diagnostic in
/-- **Every located error points at the character that caused it.**  The brackets that a text is refused for or that are
listed stand where they say, and so does what a run fails at, whatever its setting, sink and input. -/
theorem diagnostics_point_at_culprit (source : String) :
    (∀ u, Program.parse source = .error u ∨ u ∈ diagnose source →
      u.site.location = locate source u.site.index ∧
        PointsAt source u.site.index u.bracket.toOp.toChar (u.render source)) ∧
    ∀ {σ ι : Type} (w : Setting σ ι) (patience : Nat) (sink : σ) (input : ι) (o : Outcome σ ι) (e : RunError)
      (index : Nat), runSource w patience source sink input = some o → o.result = .error e → e.index? = some index →
        e.location? = some (locate source index) ∧
          ∃ op, e.culprit? = some op ∧ PointsAt source index op.toChar (e.render source) := by
  constructor
  · intro u hu
    have hmem : u ∈ diagnose source := hu.elim (fun h => List.mem_of_head? (Program.parse_eq_error_iff.1 h)) id
    obtain ⟨i, hi, hs, ho⟩ := exists_of_mem_unmatched hmem
    rw [UnmatchedBracket.render, ← hs, ← ho]
    exact ⟨location_eq_locate hi, pointsAt_render hi u.message⟩
  · intro σ ι w patience sink input o e index ho he hindex
    obtain ⟨site, hsite, rfl⟩ := Option.map_eq_some_iff.1 hindex
    rw [runSource_eq] at ho
    obtain ⟨i, hi, rfl, hop⟩ := blames_of_runInstructions ho he site hsite
    have hloc : e.location? = some i.location := by rw [RunError.location?, hsite]; rfl
    refine ⟨hloc.trans (congrArg some (location_eq_locate hi)), i.op, hop, ?_⟩
    rw [RunError.render, hloc]
    exact pointsAt_render hi e.summary

open Diagnostic in
/-- A refused text and a run that fails, each on the second line, after a `\r` that the quoted line does not show. -/
theorem diagnostics_point_at_culprit_second_line :
    let w : Setting (Array UInt8) Unit := ⟨{ tape := .fixed 1, maxSteps := some 9 }, .collecting, .absent, .idle⟩
    (∃ u, Program.parse "é\r\n+ ]" = .error u ∧ u.site = ⟨5, 2, 3⟩ ∧
      PointsAt "é\r\n+ ]" 5 ']' (u.render "é\r\n+ ]")) ∧
    ∃ o, runSource w 0 "+.\r\n <" #[] () = some o ∧ o.result = .error (.underflow ⟨5, 2, 2⟩) ∧
      PointsAt "+.\r\n <" 5 '<' ((RunError.underflow ⟨5, 2, 2⟩).render "+.\r\n <") := by
  intro w
  refine ⟨⟨⟨.closing, 5, 2, 3⟩, rfl, rfl, ?_⟩, ⟨_, rfl, rfl, ?_⟩⟩
  · exact ((diagnostics_point_at_culprit "é\r\n+ ]").1 ⟨.closing, 5, 2, 3⟩ (.inl rfl)).2
  · obtain ⟨-, op, hop, hpoints⟩ := (diagnostics_point_at_culprit "+.\r\n <").2 w 0 #[] () _ _ 5 rfl rfl rfl
    cases hop
    exact hpoints

end Brainfuck
