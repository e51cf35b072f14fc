import Mathlib.Data.List.DropRight
import Brainfuck.Proofs.Comments
/-!
# Every instruction once, and where it stands

A location is kept up to date character by character while a text is read, and `locate` walks there again from the
start.  Both count the same thing: the line ends read so far, and the characters read since the last of them
(`Location.foldl_after`).  A location moves on with every character (`Location.before_after`), so no two places of a
text share one.  The instructions of a text are then its instruction characters, each once, in the order of the text and
at its place (`Cursor.read_finds_each_once`).
-/
namespace Brainfuck

/-! ## Counting -/

namespace Location

/-- Where the character after `read` stands, if `read` is all there is before it. -/
def counted (read : List Char) : Location :=
  ⟨1 + read.count '\n', 1 + (read.rtakeWhile (fun c => c ≠ '\n')).length⟩

theorem after_counted (read : List Char) (c : Char) : (counted read).after c = counted (read ++ [c]) := by
  unfold after counted
  by_cases hc : c = '\n'
  · -- the line that `c` ends is over, and nothing was read of the next
    subst hc
    rw [if_pos rfl, List.rtakeWhile_concat_neg _ _ _ (by simp), List.count_append]
    simp [Nat.add_assoc]
  · rw [if_neg hc, List.rtakeWhile_concat_pos _ _ _ (by simpa using hc), List.count_append]
    simp [hc, Nat.add_assoc]

/-- **Going on character by character is counting them all at once.** -/
theorem foldl_after : ∀ (cs read : List Char), cs.foldl after (counted read) = counted (read ++ cs)
  | [], read => by rw [List.append_nil, List.foldl_nil]
  | c :: cs, read => by
    rw [List.foldl_cons, after_counted, foldl_after cs (read ++ [c]), List.append_assoc, List.singleton_append]

/-! ## Moving on -/

/-- On an earlier line, or further left on the same one. -/
def Before (l m : Location) : Prop := l.line < m.line ∨ l.line = m.line ∧ l.column < m.column

theorem Before.trans {l m n : Location} (h : l.Before m) (h' : m.Before n) : l.Before n := by
  unfold Before at *
  omega

theorem not_before_self (l : Location) : ¬ l.Before l := by
  unfold Before
  omega

theorem before_after (l : Location) (c : Char) : l.Before (l.after c) := by
  unfold after
  split
  · exact .inl (Nat.lt_succ_self _)
  · exact .inr ⟨rfl, Nat.lt_succ_self _⟩

theorem before_foldl_after (c : Char) : ∀ (cs : List Char) (l : Location), l.Before ((c :: cs).foldl after l)
  | [], l => before_after l c
  | d :: cs, l => (before_after l c).trans (before_foldl_after d cs (l.after c))

end Location

/-! ## The places of a text -/

section Places

variable (source : String)

theorem locate_eq_counted (k : Nat) : locate source k = Location.counted (source.toList.take k) :=
  Location.foldl_after (source.toList.take k) []

theorem locate_of_length_le {k : Nat} (h : source.length ≤ k) : locate source k = locate source source.length := by
  rw [← String.length_toList] at h ⊢
  rw [locate, locate, List.take_of_length_le h, List.take_length]

variable {source}

/-- **A later place has a later location**, up to the place just after the last character. -/
theorem locate_before {j k : Nat} (hjk : j < k) (hk : k ≤ source.length) :
    (locate source j).Before (locate source k) := by
  rw [← String.length_toList] at hk
  have hsplit : source.toList.take k = source.toList.take j ++ (source.toList.drop j).take (k - j) := by
    rw [← List.take_add, Nat.add_sub_cancel' (Nat.le_of_lt hjk)]
  -- at least one character stands between the two places
  cases hmid : (source.toList.drop j).take (k - j) with
  | nil =>
    have := congrArg List.length hmid
    rw [List.length_take, List.length_drop, List.length_nil] at this
    omega
  | cons c cs =>
    rw [locate, locate, hsplit, hmid, List.foldl_append]
    exact Location.before_foldl_after c cs _

theorem eq_of_locate_eq {j k : Nat} (hj : j ≤ source.length) (hk : k ≤ source.length)
    (h : locate source j = locate source k) : j = k := by
  rcases Nat.lt_trichotomy j k with hlt | heq | hlt
  · exact absurd (h ▸ locate_before hlt hk) (Location.not_before_self _)
  · exact heq
  · exact absurd (h ▸ locate_before hlt hj) (Location.not_before_self _)

end Places

/-! ## The instructions of a text -/

/-- Whether a text has one of the eight instruction characters at this index. -/
def hasInstructionAt (source : String) (k : Nat) : Bool :=
  source.toList[k]?.any (fun c => c ∈ ['>', '<', '+', '-', '.', ',', '[', ']'])

theorem isSome_ofChar? (c : Char) : (Op.ofChar? c).isSome = decide (c ∈ ['>', '<', '+', '-', '.', ',', '[', ']']) := by
  by_cases hc : c ∈ ['>', '<', '+', '-', '.', ',', '[', ']']
  · rw [decide_eq_true hc]
    simp only [List.mem_cons, List.not_mem_nil, or_false] at hc
    rcases hc with rfl | rfl | rfl | rfl | rfl | rfl | rfl | rfl <;> rfl
  · rw [decide_eq_false hc, ofChar?_eq_none hc]
    rfl

theorem map_index_instructionAt? {source : String} {c : Char} {k : Nat} (h : source.toList[k]? = some c) :
    (instructionAt? source c k).map (fun i => i.index) = Option.guard (hasInstructionAt source) k := by
  have hk : hasInstructionAt source k = (Op.ofChar? c).isSome := by
    rw [hasInstructionAt, h, Option.any_some, isSome_ofChar?]
  cases hop : Op.ofChar? c <;> simp [instructionAt?, Option.guard, hk, hop]

/-- **There is one instruction for each instruction character**, in the order of the text. -/
theorem map_index_instructionsOf (source : String) :
    (instructionsOf source).map (fun i => i.index) = (List.range source.length).filter (hasInstructionAt source) :=
  calc (instructionsOf source).map (fun i => i.index)
      = source.toList.zipIdx.filterMap (fun x => (instructionAt? source x.1 x.2).map (fun i => i.index)) := by
        rw [instructionsOf_eq, instructionsAt, List.map_filterMap]
    _ = source.toList.zipIdx.filterMap (fun x => Option.guard (hasInstructionAt source) x.2) :=
        List.filterMap_congr (fun x hx => map_index_instructionAt? (List.mk_mem_zipIdx_iff_getElem?.1 hx))
    _ = (source.toList.zipIdx.map Prod.snd).filterMap (Option.guard (hasInstructionAt source)) := by
        rw [List.filterMap_map]
        rfl
    _ = (List.range source.length).filter (hasInstructionAt source) := by
        rw [List.zipIdx_map_snd, List.filterMap_eq_filter, List.range_eq_range', String.length_toList]

/-- The list has an instruction for each instruction character of the text and no other, in the order of the text, each
with its own operation and place. -/
structure Finds (source : String) (is : List Instruction) : Prop where
  indices : is.map (fun i => i.index) = (List.range source.length).filter (hasInstructionAt source)
  char_at : ∀ i ∈ is, source.toList[i.index]? = some i.op.toChar
  located : ∀ i ∈ is, i.location = locate source i.index

namespace Finds

variable {source : String} {is js : List Instruction}

/-- An index tells the whole instruction. -/
theorem eq_of_index_eq (h : Finds source is) (h' : Finds source js) {i j : Instruction} (hi : i ∈ is) (hj : j ∈ js)
    (hindex : i.index = j.index) : i = j := by
  obtain ⟨⟨index, location⟩, op⟩ := i
  obtain ⟨⟨index', location'⟩, op'⟩ := j
  obtain rfl : index = index' := hindex
  have hloc : location = location' := (h.located _ hi).trans (h'.located _ hj).symm
  have hchar : op.toChar = op'.toChar := Option.some.inj ((h.char_at _ hi).symm.trans (h'.char_at _ hj))
  have hop : op = op' := Option.some.inj (by rw [← Op.ofChar?_toChar op, hchar, Op.ofChar?_toChar])
  rw [hloc, hop]

/-- **No other list has the instructions of a text.** -/
theorem unique (h : Finds source is) (h' : Finds source js) : is = js := by
  refine List.ext_getElem? (fun n => ?_)
  have hn : is[n]?.map (fun i => i.index) = js[n]?.map (fun i => i.index) := by
    rw [← List.getElem?_map, ← List.getElem?_map, h.indices, h'.indices]
  cases hi : is[n]? with
  | none =>
    rw [hi] at hn
    exact (Option.map_eq_none_iff.1 hn.symm).symm
  | some i =>
    rw [hi] at hn
    obtain ⟨j, hj, hindex⟩ := Option.map_eq_some_iff.1 hn.symm
    rw [hj, h.eq_of_index_eq h' (List.mem_of_getElem? hi) (List.mem_of_getElem? hj) hindex.symm]

end Finds

section Found

variable {source : String} {i j : Instruction}

theorem char_at_index (hi : i ∈ instructionsOf source) : source.toList[i.index]? = some i.op.toChar := by
  obtain ⟨pre, post, hs, hindex, -⟩ := exists_of_mem_instructionsOf hi
  rw [hs, hindex]
  simp

theorem index_lt_length (hi : i ∈ instructionsOf source) : i.index < source.length := by
  obtain ⟨hlt, -⟩ := List.getElem?_eq_some_iff.1 (char_at_index hi)
  rwa [String.length_toList] at hlt

theorem pairwise_location (source : String) :
    (instructionsOf source).Pairwise (fun i j => i.location.Before j.location) := by
  refine (pairwise_instructionsFrom source.toList 0 .start).imp_of_mem (fun {i j} hi hj hlt => ?_)
  rw [location_eq_locate hi, location_eq_locate hj]
  exact locate_before hlt (Nat.le_of_lt (index_lt_length hj))

theorem index_eq_of_location_eq (hi : i ∈ instructionsOf source) (hj : j ∈ instructionsOf source)
    (h : i.location = j.location) : i.index = j.index := by
  rw [location_eq_locate hi, location_eq_locate hj] at h
  exact eq_of_locate_eq (Nat.le_of_lt (index_lt_length hi)) (Nat.le_of_lt (index_lt_length hj)) h

end Found

/-- **Reading a text finds every instruction once, at its true place.**  What is found is one instruction for each of
the instruction characters, in their order, with the index of the character and the location that `locate` gives it, and
this is the only such list.  A location counts lines and columns from 1: the line ends before it, and the characters
since the last of them.  Indices and locations increase along the list, and a location belongs to one index only; past
the end every index has the location of the end. -/
theorem Cursor.read_finds_each_once (source : String) :
    (∀ is, Finds source is ↔ is = (Cursor.start source).read.1) ∧
    (∀ k, locate source k = ⟨1 + (source.toList.take k).count '\n',
      1 + ((source.toList.take k).rtakeWhile (fun c => c ≠ '\n')).length⟩) ∧
    (Cursor.start source).read.1.Pairwise (fun i j => i.index < j.index ∧ i.location.Before j.location) ∧
    (∀ i ∈ (Cursor.start source).read.1, ∀ j ∈ (Cursor.start source).read.1,
      i.location = j.location → i.index = j.index) ∧
    (∀ j k, j < k → k ≤ source.length → (locate source j).Before (locate source k)) ∧
    ∀ k, source.length ≤ k → locate source k = locate source source.length := by
  rw [Cursor.read_start]
  have h : Finds source (instructionsOf source) :=
    ⟨map_index_instructionsOf source, fun _ => char_at_index, fun _ => location_eq_locate⟩
  refine ⟨fun is => ⟨fun h' => h'.unique h, fun heq => heq ▸ h⟩, locate_eq_counted source, ?_, ?_, ?_, ?_⟩
  · exact (pairwise_instructionsFrom source.toList 0 .start).and (pairwise_location source)
  · exact fun i hi j hj => index_eq_of_location_eq hi hj
  · exact fun j k => locate_before
  · exact fun k => locate_of_length_le source

/-- Two instructions, the second on the third line, among characters of several bytes and line ends of both kinds. -/
theorem Cursor.read_finds_each_once_third_line :
    let source := "é€+\r\n\n ]é"
    let is : List Instruction := [⟨⟨2, 1, 3⟩, .inc⟩, ⟨⟨7, 3, 2⟩, .closing⟩]
    is = (Cursor.start source).read.1 ∧ Finds source is ∧ (locate source 2).Before (locate source 7) ∧
      locate source 99 = locate source source.length ∧ locate source 99 = ⟨3, 4⟩ := by
  intro source is
  have hread : is = (Cursor.start source).read.1 := by decide +kernel
  obtain ⟨hfinds, -, -, -, hbefore, hend⟩ := read_finds_each_once source
  refine ⟨hread, (hfinds is).2 hread, ?_, ?_, ?_⟩
  · exact hbefore 2 7 (by decide) (by decide +kernel)
  · exact hend 99 (by decide +kernel)
  · decide +kernel

end Brainfuck
