import Brainfuck.Proofs.Retention
/-!
# When a buffer shows nothing

A buffer shows no line exactly if it holds no byte.  That is so before anything was added, but not only then.  A trim
cuts at the first line that starts among the last `limit` bytes, and the place after a newline at the very end counts as
the start of a line.  So bytes that end in a finished line at least as long as the limit are dropped altogether once
they are more than twice the limit (`OutputBuffer.Overruns`), and after any commands this is the one way in which all
that was added is lost (`OutputBuffer.run_shows_nothing_iff`).  While every line is shorter than the limit, it does not
happen.
-/
namespace Brainfuck

namespace OutputBuffer

variable {b : OutputBuffer} {all : List UInt8} {limit : Nat}

/-! ## Lines at the end -/

/-- A line of the end of some bytes is the end of a line of theirs. -/
theorem LineAt.append_left {held before line after : List UInt8} (h : LineAt held before line after)
    (front : List UInt8) :
    ∃ before' line', LineAt (front ++ held) before' line' after ∧ line.length ≤ line'.length := by
  obtain ⟨before', start, hstart⟩ := exists_lastLine (front ++ before)
  refine ⟨before', start ++ line, ⟨?_, hstart.opened, ?_, h.closed⟩, by simp⟩
  · have hsplit := hstart.split
    rw [List.append_nil] at hsplit
    rw [h.split, ← List.append_assoc, hsplit]
    simp
  · simp [hstart.unbroken, h.unbroken]

/-- Bytes of which a trim to `limit` leaves nothing. -/
structure Overruns (limit : Nat) (held : List UInt8) : Prop where
  long : limit * 2 < held.length
  /-- The last line is finished, and no shorter than the limit. -/
  last : ∃ before line, LineAt held before line [10] ∧ limit ≤ line.length

/-- After the line that is too long, the only start among the last `limit` bytes is the one at the end. -/
theorem Overruns.eq_length (h : Overruns limit all) {start : Nat} (hs : start ∈ startsOf all)
    (hle : all.length - limit ≤ start) : start = all.length := by
  have hlong := h.long
  obtain ⟨before, line, hline, hlimit⟩ := h.last
  have hlen : all.length = before.length + line.length + 1 := by
    rw [hline.split]
    simp
    omega
  rcases List.mem_cons.1 hs with rfl | hs
  · omega
  · obtain ⟨i, hi, rfl⟩ := mem_breaks.1 hs
    have hlt := (List.getElem?_eq_some_iff.1 hi).1
    by_cases hin : i < before.length + line.length
    · -- the newline would stand inside the line
      rw [hline.split, List.getElem?_append_right (by omega), List.getElem?_append_left (by omega)] at hi
      exact absurd (List.mem_of_getElem? hi) hline.unbroken
    · omega

theorem Overruns.length_mem (h : Overruns limit all) : all.length ∈ startsOf all := by
  obtain ⟨before, line, hline, -⟩ := h.last
  refine List.mem_cons_of_mem _ (mem_breaks.2 ⟨before.length + line.length, ?_, ?_⟩)
  · rw [hline.split]
    simp
  · rw [hline.split]
    simp
    omega

/-- Bytes that end in a newline overrun the limit if no line starts among the last of them. -/
theorem overruns_of_getLast? (hlong : limit * 2 < all.length) (hlast : all.getLast? = some 10)
    (hstarts : ∀ start ∈ startsOf all, all.length - limit ≤ start → all.length ≤ start) : Overruns limit all := by
  obtain ⟨front, rfl⟩ := List.getLast?_eq_some_iff.1 hlast
  obtain ⟨before, line, hline⟩ := exists_lastLine front
  have hfront : front = before ++ line := by simpa using hline.split
  have hlen : (front ++ [10]).length = before.length + line.length + 1 := by
    simp [hfront]
    omega
  refine ⟨hlong, before, line, ⟨by simp [hfront], hline.opened, hline.unbroken, .inr rfl⟩, ?_⟩
  by_contra hshort
  -- a shorter line would start late enough to be where the bytes are cut
  have hne : before ≠ [] := by
    rintro rfl
    rw [List.length_nil] at hlen
    omega
  have hpos : 0 < before.length := List.length_pos_iff.2 hne
  have hopen : (front ++ [10])[before.length - 1]? = some 10 := by
    rw [hfront, List.append_assoc, List.getElem?_append_left (by omega), ← List.getLast?_eq_getElem?]
    exact hline.opened.resolve_left hne
  have hstart : before.length ∈ startsOf (front ++ [10]) :=
    List.mem_cons_of_mem _ (mem_breaks.2 ⟨before.length - 1, hopen, by omega⟩)
  have := hstarts _ hstart (by omega)
  omega

/-! ## What a trim leaves -/

theorem cutFor_le_of_mem (h : b.Indexed) (limit : Nat) {start : Nat} (hs : start ∈ b.lineStarts.toList)
    (hle : b.bytes.size - limit ≤ start) : b.cutFor limit ≤ start := by
  have hsorted : b.lineStarts.toList.Pairwise (· < ·) := by
    rw [h]
    exact pairwise_startsOf _
  cases hf : b.lineStarts.toList.find? (b.bytes.size - limit ≤ ·) with
  | none => exact absurd (decide_eq_true hle) (List.find?_eq_none.1 hf start hs)
  | some first =>
    obtain ⟨-, before, after, hsplit, hbefore⟩ := List.find?_eq_some_iff_append.1 hf
    rw [cutFor, cutFrom_eq, hf, Option.getD_some]
    rw [hsplit] at hs hsorted
    rcases List.mem_append.1 hs with hs | hs
    · have := hbefore start hs
      simp at this
      omega
    · rcases List.mem_cons.1 hs with rfl | hs
      · exact Nat.le_refl _
      · exact Nat.le_of_lt (List.rel_of_pairwise_cons (List.pairwise_append.1 hsorted).2.1 hs)

theorem cutFor_eq_size_iff (h : b.Indexed) (hpos : 0 < limit) (hlong : limit * 2 < b.bytes.size) :
    b.cutFor limit = b.bytes.size ↔ Overruns limit b.bytes.toList := by
  constructor
  · intro hcut
    refine overruns_of_getLast? (by simpa using hlong) ?_ (fun start hs hle => ?_)
    · rcases cutFor_cases b limit with ⟨hmem, -⟩ | ⟨heq, -⟩
      · rw [hcut, h] at hmem
        rcases List.mem_cons.1 hmem with hzero | hmem
        · omega
        · obtain ⟨i, hi, hsize⟩ := mem_breaks.1 hmem
          rw [List.getLast?_eq_getElem?, Array.length_toList, hsize, Nat.add_sub_cancel]
          exact hi
      · omega
    · rw [← h] at hs
      have hle' := cutFor_le_of_mem h limit hs (by simpa using hle)
      rw [hcut] at hle'
      simpa using hle'
  · intro hover
    have hend : b.bytes.size ∈ b.lineStarts.toList := by
      rw [h]
      simpa using hover.length_mem
    rcases cutFor_cases b limit with ⟨hmem, hle⟩ | ⟨-, hnone⟩
    · rw [h] at hmem
      simpa using hover.eq_length hmem (by simpa using hle)
    · have := hnone _ hend
      omega

/-- **A trim leaves nothing of nothing, and of what overruns the limit.** -/
theorem toList_trim_eq_nil_iff (h : b.Indexed) (hpos : ∀ limit, b.limit = some limit → 0 < limit) :
    b.trim.bytes.toList = [] ↔
      b.bytes.toList = [] ∨ ∃ limit, b.limit = some limit ∧ Overruns limit b.bytes.toList := by
  unfold trim
  split
  · rename_i hl
    simp [hl]
  · rename_i limit hl
    have hle := cutFor_le h limit
    split
    · rename_i hshort
      have hno : ¬ Overruns limit b.bytes.toList := fun hover => absurd hover.long (by simpa using hshort)
      simp [hl, hno]
    · rename_i hlong
      have hne : b.bytes.toList ≠ [] := by
        intro hnil
        have := congrArg List.length hnil
        simp at this
        simp [this] at hlong
      rw [toList_dropFront, List.drop_eq_nil_iff, Array.length_toList, hl]
      simp only [hne, false_or, Option.some_inj, exists_eq_left']
      rw [← cutFor_eq_size_iff h (hpos limit hl) (by omega)]
      omega

theorem toList_appendAll : ∀ (bytes : List UInt8) (b : OutputBuffer),
    (bytes.foldl append b).bytes.toList = b.bytes.toList ++ bytes
  | [], b => (List.append_nil _).symm
  | byte :: bytes, b => by
    rw [List.foldl_cons, toList_appendAll bytes (b.append byte)]
    show (b.bytes.push byte).toList ++ bytes = _
    simp

theorem Keeps.toList_appendAll_trim_eq_nil_iff (h : b.Keeps all) (bytes : List UInt8) :
    (bytes.foldl OutputBuffer.append b).trim.bytes.toList = [] ↔ b.bytes.toList ++ bytes = [] ∨
      ∃ limit, b.limit = some limit ∧ Overruns limit (b.bytes.toList ++ bytes) := by
  have hk := h.appendAll bytes
  rw [toList_trim_eq_nil_iff hk.indexed hk.limit_pos, toList_appendAll, limit_appendAll]

theorem Keeps.toList_perform_eq_nil_iff (h : b.Keeps all) (c : Command) :
    (b.perform c).bytes.toList = [] ↔ record b.bytes.toList c = [] ∨
      ∃ limit, b.limit = some limit ∧ Overruns limit (record b.bytes.toList c) := by
  cases c with
  | push byte => exact h.toList_appendAll_trim_eq_nil_iff [byte]
  | emit byte => exact h.toList_appendAll_trim_eq_nil_iff [byte]
  | extend bytes => exact h.toList_appendAll_trim_eq_nil_iff bytes
  | clear => exact iff_of_true rfl (.inl rfl)

/-! ## Runs -/

/-- The last command that added anything made the buffer drop all it had. -/
def Swallows (limit : Option Nat) (cs : List Command) : Prop :=
  ∃ n before c after, limit = some n ∧ cs = before ++ c :: after ∧ (∀ d ∈ after, d = .extend []) ∧
    Overruns (max n 1) (record (run limit before).bytes.toList c)

theorem run_concat (limit : Option Nat) (cs : List Command) (c : Command) :
    run limit (cs ++ [c]) = (run limit cs).perform c := by
  rw [run, List.foldl_append]
  rfl

theorem added_concat (cs : List Command) (c : Command) : added (cs ++ [c]) = record (added cs) c := by
  rw [added, List.foldl_append]
  rfl

theorem swallows_concat_iff (limit : Option Nat) (cs : List Command) (c : Command) :
    Swallows limit (cs ++ [c]) ↔
      (∃ n, limit = some n ∧ Overruns (max n 1) (record (run limit cs).bytes.toList c)) ∨
        (c = .extend [] ∧ Swallows limit cs) := by
  constructor
  · rintro ⟨n, before, d, after, hl, hsplit, hafter, hover⟩
    rcases List.eq_nil_or_concat after with rfl | ⟨front, last, rfl⟩
    · obtain ⟨rfl, hd⟩ := List.append_inj' hsplit rfl
      cases hd
      exact .inl ⟨n, hl, hover⟩
    · rw [List.concat_eq_append, ← List.cons_append, ← List.append_assoc] at hsplit
      obtain ⟨rfl, hd⟩ := List.append_inj' hsplit rfl
      cases hd
      refine .inr ⟨hafter _ (by simp), n, before, d, front, hl, rfl, fun e he => hafter e (by simp [he]), hover⟩
  · rintro (⟨n, hl, hover⟩ | ⟨rfl, n, before, d, after, hl, rfl, hafter, hover⟩)
    · exact ⟨n, cs, c, [], hl, rfl, by simp, hover⟩
    · refine ⟨n, before, d, after ++ [.extend []], hl, by simp, fun e he => ?_, hover⟩
      rcases List.mem_append.1 he with he | he
      · exact hafter e he
      · exact List.mem_singleton.1 he

/-- What a buffer holds is too little to be lost before more is added. -/
theorem not_overruns_run (n : Nat) (cs : List Command) :
    ¬ Overruns (max n 1) (run (some n) cs).bytes.toList := by
  intro hover
  have hle := size_run_le n cs
  have hlong := hover.long
  rw [Array.length_toList] at hlong
  omega

theorem toList_run_concat_eq_nil_iff (limit : Option Nat) (cs : List Command) (c : Command) :
    (run limit (cs ++ [c])).bytes.toList = [] ↔ record (run limit cs).bytes.toList c = [] ∨
      ∃ n, limit = some n ∧ Overruns (max n 1) (record (run limit cs).bytes.toList c) := by
  rw [run_concat, (keeps_run limit cs).toList_perform_eq_nil_iff, limit_run]
  cases limit <;> simp

/-- **Nothing is left** of nothing, and of what was lost in one command. -/
theorem toList_run_eq_nil_iff (limit : Option Nat) (cs : List Command) :
    (run limit cs).bytes.toList = [] ↔ added cs = [] ∨ Swallows limit cs := by
  induction cs using List.reverseRecOn with
  | nil => exact iff_of_true (by cases limit <;> rfl) (.inl rfl)
  | append_singleton cs c ih =>
    rw [toList_run_concat_eq_nil_iff, added_concat, swallows_concat_iff]
    cases c with
    | push byte => simp [record]
    | emit byte => simp [record]
    | clear => simp [record]
    | extend bytes =>
      cases bytes with
      | cons byte bytes => simp [record]
      | nil =>
        have hno : ¬ ∃ n, limit = some n ∧ Overruns (max n 1) (run limit cs).bytes.toList := by
          rintro ⟨n, rfl, hover⟩
          exact not_overruns_run n cs hover
        simp [record, hno, ih]

theorem added_append_extend_nil (before : List Command) : ∀ (after : List Command),
    (∀ d ∈ after, d = .extend []) → after.foldl record (added before) = added before
  | [], _ => rfl
  | d :: after, h => by
    obtain rfl := h d List.mem_cons_self
    rw [List.foldl_cons, record, List.append_nil]
    exact added_append_extend_nil before after (fun e he => h e (List.mem_cons_of_mem _ he))

/-- What a buffer held when it lost all of it is the end of what was added. -/
theorem record_suffix (h : b.Keeps all) (c : Command) : record b.bytes.toList c <:+ record all c := by
  cases c with
  | push byte => exact List.suffix_append_self_iff.2 h.suffix
  | emit byte => exact List.suffix_append_self_iff.2 h.suffix
  | extend bytes => exact List.suffix_append_self_iff.2 h.suffix
  | clear => exact List.suffix_refl _

theorem Swallows.exists_lineAt {limit : Option Nat} {cs : List Command} (h : Swallows limit cs) :
    ∃ n before line, limit = some n ∧ LineAt (added cs) before line [10] ∧ max n 1 ≤ line.length := by
  obtain ⟨n, before, c, after, hl, rfl, hafter, hover⟩ := h
  obtain ⟨start, line, hline, hlong⟩ := hover.last
  have hadded : added (before ++ c :: after) = record (added before) c := by
    rw [List.append_cons, added, List.foldl_append, ← added_concat]
    exact added_append_extend_nil _ after hafter
  obtain ⟨front, hfront⟩ := record_suffix (keeps_run limit before) c
  obtain ⟨start', line', hline', hle⟩ := hline.append_left front
  rw [hadded, ← hfront]
  exact ⟨n, start', line', hl, hline', Nat.le_trans hlong hle⟩

/-! ## What is shown -/

theorem lineCount_eq_zero_iff (h : b.Indexed) : b.lineCount = 0 ↔ b.bytes.toList = [] := by
  have hsize : b.lineStarts.size = (breaks b.bytes.toList).length + 1 := by
    rw [← Array.length_toList, h]
    rfl
  constructor
  · intro hzero
    unfold lineCount at hzero
    split at hzero
    · rename_i hback
      have hnil : breaks b.bytes.toList = [] := List.length_eq_zero_iff.1 (by omega)
      rw [← Array.getLast?_toList, h, startsOf, hnil] at hback
      rw [← List.length_eq_zero_iff, Array.length_toList]
      exact (Option.some.inj hback).symm
    · omega
  · intro hnil
    rw [lineCount_eq h, hnil]
    rfl

/-- **When a buffer shows nothing.**  After any commands there is no line to show exactly if no byte is held; and that
is so if nothing was added, and else exactly if the last bytes that were added made the buffer drop everything.  Then
what was added ends in a finished line that is no shorter than the limit. -/
theorem run_shows_nothing_iff (limit : Option Nat) (cs : List Command) :
    let b := run limit cs
    (b.lineCount = 0 ↔ b.isEmpty) ∧ (b.lineCount = 0 ↔ b.total = 0 ∨ Swallows limit cs) ∧
      (Swallows limit cs → b.total ≠ 0 ∧
        ∃ n before line, limit = some n ∧ LineAt (added cs) before line [10] ∧ max n 1 ≤ line.length) := by
  intro b
  have h : b.Keeps (added cs) := keeps_run limit cs
  have hcount := lineCount_eq_zero_iff h.indexed
  have htotal : b.total = 0 ↔ added cs = [] := by rw [h.total_eq, List.length_eq_zero_iff]
  refine ⟨?_, ?_, fun hs => ⟨?_, hs.exists_lineAt⟩⟩
  · rw [hcount]
    simp [isEmpty]
  · rw [hcount, htotal]
    exact toList_run_eq_nil_iff limit cs
  · obtain ⟨n, before, line, -, hline, -⟩ := hs.exists_lineAt
    rw [Ne, htotal, hline.split]
    simp

/-- Eight bytes and a newline, where four are to be kept. -/
theorem run_shows_nothing_iff_long_line :
    let cs : List Command := [.extend [120, 120, 120, 120, 120, 120, 120, 120, 10]]
    Swallows (some 4) cs ∧ (run (some 4) cs).lineCount = 0 ∧ (run (some 4) cs).total ≠ 0 := by
  intro cs
  have hline : LineAt [120, 120, 120, 120, 120, 120, 120, 120, 10] [] [120, 120, 120, 120, 120, 120, 120, 120] [10] :=
    ⟨rfl, .inl rfl, by decide, .inr rfl⟩
  have hs : Swallows (some 4) cs := ⟨4, [], _, [], rfl, rfl, by simp, by decide, _, _, hline, by decide⟩
  obtain ⟨-, hcount, hlost⟩ := run_shows_nothing_iff (some 4) cs
  exact ⟨hs, hcount.2 (.inr hs), (hlost hs).1⟩

/-- So a buffer may show nothing although something was added. -/
theorem not_shows_nothing_iff_nothing_added :
    ¬ ∀ (limit : Option Nat) (cs : List Command), (run limit cs).lineCount = 0 ↔ (run limit cs).total = 0 := by
  intro h
  have hzero := (h (some 4) [.extend [120, 120, 120, 120, 120, 120, 120, 120, 10]]).1 (by decide +kernel)
  exact absurd hzero (by decide +kernel)

end OutputBuffer

end Brainfuck
