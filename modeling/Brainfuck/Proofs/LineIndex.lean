import Mathlib.Data.List.Basic
import Brainfuck.Output.Buffer
/-!
# The line index

Lines start at offset 0 and after each newline (`OutputBuffer.startsOf`).  A buffer notes this as the bytes arrive and
shifts its notes when it drops bytes, and the notes are right after every command (`OutputBuffer.indexed_run`).  So the
lines it shows are the pieces between the newlines, without the empty piece after a newline at the end
(`OutputBuffer.linesOf`), and it finds each of them without leaving its bounds (`OutputBuffer.Indexed.showsLines`).
-/
namespace Brainfuck

namespace OutputBuffer

/-! ## Where lines start -/

/-- The offset after each newline. -/
def breaks (bytes : List UInt8) : List Nat := (bytes.idxsOf 10).map (· + 1)

/-- The offset of the first byte of each line. -/
def startsOf (bytes : List UInt8) : List Nat := 0 :: breaks bytes

theorem breaks_append (xs ys : List UInt8) : breaks (xs ++ ys) = breaks xs ++ (breaks ys).map (· + xs.length) := by
  have hshift : (ys.idxsOf 10 xs.length).map (· + 1) = ((ys.idxsOf 10).map (· + 1)).map (· + xs.length) := by
    rw [List.idxsOf_start, List.map_map, List.map_map]
    exact List.map_congr_left (fun i _ => Nat.add_right_comm i xs.length 1)
  rw [breaks, List.idxsOf_append, Nat.zero_add, List.map_append, hshift]
  rfl

theorem mem_breaks {bytes : List UInt8} {n : Nat} : n ∈ breaks bytes ↔ ∃ i, bytes[i]? = some 10 ∧ n = i + 1 := by
  rw [breaks, List.mem_map]
  constructor
  · rintro ⟨i, hi, rfl⟩
    obtain ⟨hlt, heq⟩ := List.mem_idxsOf_iff_exists_getElem_pos.1 hi
    refine ⟨i, ?_, rfl⟩
    rw [List.getElem?_eq_getElem hlt]
    exact congrArg some (beq_iff_eq.1 heq)
  · rintro ⟨i, hi, rfl⟩
    obtain ⟨hlt, heq⟩ := List.getElem?_eq_some_iff.1 hi
    exact ⟨i, List.mem_idxsOf_iff_exists_getElem_pos.2 ⟨hlt, beq_iff_eq.2 heq⟩, rfl⟩

theorem le_length_of_mem_startsOf {bytes : List UInt8} {n : Nat} (h : n ∈ startsOf bytes) : n ≤ bytes.length := by
  rcases List.mem_cons.1 h with rfl | h
  · exact Nat.zero_le _
  · obtain ⟨i, hi, rfl⟩ := mem_breaks.1 h
    exact (List.getElem?_eq_some_iff.1 hi).1

theorem pos_of_mem_breaks {bytes : List UInt8} {n : Nat} (h : n ∈ breaks bytes) : 0 < n := by
  obtain ⟨i, -, rfl⟩ := mem_breaks.1 h
  exact Nat.succ_pos i

theorem breaks_singleton (byte : UInt8) : breaks [byte] = if byte = 10 then [1] else [] := by
  by_cases h : byte = 10
  · subst h
    rfl
  · simp [breaks, h]

/-- No line starts at the end of the bytes but one that a newline opens. -/
theorem filter_startsOf (bytes : List UInt8) :
    (startsOf bytes).filter (bytes.length ≤ ·) = [] ∨
      (startsOf bytes).filter (bytes.length ≤ ·) = [bytes.length] := by
  rcases List.eq_nil_or_concat bytes with rfl | ⟨front, byte, rfl⟩
  · exact .inr rfl
  · have hfront : (startsOf front).filter ((front ++ [byte]).length ≤ ·) = [] := by
      refine List.filter_eq_nil_iff.2 (fun n hn => ?_)
      have hle := le_length_of_mem_startsOf hn
      simp only [List.length_append, List.length_singleton, decide_eq_true_eq]
      omega
    have hsplit : startsOf (front ++ [byte]) = startsOf front ++ (breaks [byte]).map (· + front.length) := by
      rw [startsOf, breaks_append]
      rfl
    rw [List.concat_eq_append, hsplit, List.filter_append, hfront, breaks_singleton]
    by_cases h : byte = 10
    · right
      simp [h, Nat.add_comm]
    · left
      simp [h]

/-! ## The index is right -/

/-- The index notes where the lines of the bytes start. -/
def Indexed (b : OutputBuffer) : Prop := b.lineStarts.toList = startsOf b.bytes.toList

theorem indexed_fresh (limit : Option Nat) : (fresh limit).Indexed := by
  cases limit <;> rfl

theorem Indexed.append {b : OutputBuffer} (h : b.Indexed) (byte : UInt8) : (b.append byte).Indexed := by
  have hstarts : startsOf (b.bytes.push byte).toList =
      b.lineStarts.toList ++ (breaks [byte]).map (· + b.bytes.size) := by
    rw [Array.toList_push, startsOf, breaks_append, h]
    rfl
  show Array.toList (if byte = 10 then b.lineStarts.push (b.bytes.push byte).size else b.lineStarts) =
    startsOf (b.bytes.push byte).toList
  rw [hstarts, breaks_singleton]
  by_cases hb : byte = 10
  · simp [hb, Nat.add_comm]
  · simp [hb]

theorem toList_dropFront (b : OutputBuffer) (cut : Nat) : (b.dropFront cut).bytes.toList = b.bytes.toList.drop cut := by
  simp [dropFront, List.take_of_length_le]

theorem Indexed.dropFront {b : OutputBuffer} (h : b.Indexed) {cut : Nat} (hc : cut ≤ b.bytes.size) :
    (b.dropFront cut).Indexed := by
  have hlen : (b.bytes.toList.take cut).length = cut := List.length_take_of_le hc
  have hbreaks := breaks_append (b.bytes.toList.take cut) (b.bytes.toList.drop cut)
  rw [List.take_append_drop, hlen] at hbreaks
  have hkept : (((breaks (b.bytes.toList.drop cut)).map (· + cut)).filter (cut ≤ ·)).map (· - cut) =
      breaks (b.bytes.toList.drop cut) := by
    rw [List.filter_eq_self.2 (by simp), List.map_map]
    exact (List.map_congr_left (by simp)).trans (List.map_id _)
  have hstarts : ((b.lineStarts.filter (cut ≤ ·)).map (· - cut)).toList =
      ((startsOf (b.bytes.toList.take cut)).filter (cut ≤ ·)).map (· - cut) ++ breaks (b.bytes.toList.drop cut) := by
    rw [Array.toList_map, Array.toList_filter, h, startsOf, hbreaks, ← List.cons_append, List.filter_append,
      List.map_append, hkept]
    rfl
  have hfirst := filter_startsOf (b.bytes.toList.take cut)
  rw [hlen] at hfirst
  rw [Indexed, toList_dropFront, startsOf]
  show Array.toList (if ((b.lineStarts.filter (cut ≤ ·)).map (· - cut))[0]? = some 0 then _ else _) = _
  rw [← Array.getElem?_toList, hstarts]
  rcases hfirst with hfirst | hfirst
  · rw [hfirst, if_neg, Array.toList_append, hstarts, hfirst]
    · rfl
    · intro hzero
      have hmem : 0 ∈ breaks (b.bytes.toList.drop cut) := List.mem_of_getElem? hzero
      exact absurd (pos_of_mem_breaks hmem) (Nat.lt_irrefl 0)
  · rw [hfirst, if_pos, hstarts, hfirst]
    · simp
    · simp

theorem cutFrom_eq (b : OutputBuffer) (wanted : Nat) :
    b.cutFrom wanted = (b.lineStarts.toList.find? (wanted ≤ ·)).getD wanted := by
  rw [Array.find?_toList]
  rfl

/-- Where a buffer is cut: where a line starts, or, if none starts late enough, just where it is wanted. -/
theorem cutFrom_cases (b : OutputBuffer) (wanted : Nat) :
    (b.cutFrom wanted ∈ b.lineStarts.toList ∧ wanted ≤ b.cutFrom wanted) ∨
      (b.cutFrom wanted = wanted ∧ ∀ start ∈ b.lineStarts.toList, start < wanted) := by
  have hcut := b.cutFrom_eq wanted
  cases hf : b.lineStarts.toList.find? (wanted ≤ ·) with
  | none =>
    rw [hf] at hcut
    refine .inr ⟨hcut, fun start hmem => Nat.lt_of_not_le (fun hle => ?_)⟩
    exact List.find?_eq_none.1 hf start hmem (decide_eq_true hle)
  | some start =>
    rw [hf] at hcut
    have hle := List.find?_some hf
    rw [hcut]
    exact .inl ⟨List.mem_of_find?_eq_some hf, of_decide_eq_true hle⟩

theorem Indexed.le_size {b : OutputBuffer} (h : b.Indexed) {start : Nat} (hs : start ∈ b.lineStarts.toList) :
    start ≤ b.bytes.size := by
  rw [h] at hs
  exact le_length_of_mem_startsOf hs

theorem cutFrom_le {b : OutputBuffer} (h : b.Indexed) {wanted : Nat} (hw : wanted ≤ b.bytes.size) :
    b.cutFrom wanted ≤ b.bytes.size := by
  rcases b.cutFrom_cases wanted with ⟨hmem, -⟩ | ⟨heq, -⟩
  · exact h.le_size hmem
  · rw [heq]
    exact hw

theorem cutFor_cases (b : OutputBuffer) (limit : Nat) :
    (b.cutFor limit ∈ b.lineStarts.toList ∧ b.bytes.size - limit ≤ b.cutFor limit) ∨
      (b.cutFor limit = b.bytes.size - limit ∧ ∀ start ∈ b.lineStarts.toList, start < b.bytes.size - limit) :=
  b.cutFrom_cases (b.bytes.size - limit)

theorem cutFor_le {b : OutputBuffer} (h : b.Indexed) (limit : Nat) : b.cutFor limit ≤ b.bytes.size :=
  cutFrom_le h (Nat.sub_le _ _)

theorem Indexed.trim {b : OutputBuffer} (h : b.Indexed) : b.trim.Indexed := by
  unfold OutputBuffer.trim
  split
  · exact h
  · split
    · exact h
    · exact h.dropFront (cutFor_le h _)

theorem Indexed.appendAll : ∀ (bytes : List UInt8) {b : OutputBuffer}, b.Indexed →
    (bytes.foldl OutputBuffer.append b).Indexed
  | [], _, h => h
  | byte :: bytes, _, h => Indexed.appendAll bytes (h.append byte)

theorem Indexed.perform {b : OutputBuffer} (h : b.Indexed) (c : Command) : (b.perform c).Indexed := by
  cases c with
  | push byte => exact (h.append byte).trim
  | emit byte => exact (h.append byte).trim
  | extend bytes => exact (Indexed.appendAll bytes h).trim
  | clear => rfl

theorem indexed_run (limit : Option Nat) (cs : List Command) : (run limit cs).Indexed :=
  List.foldlRecOn cs perform (indexed_fresh limit) (fun _ h c _ => h.perform c)

/-! ## The lines of some bytes -/

/-- The lines that bytes show: the pieces between the newlines, but for an empty one at the end. -/
def linesOf (bytes : List UInt8) : List (List UInt8) :=
  let pieces := bytes.splitOn 10
  if pieces.getLast? = some [] then pieces.dropLast else pieces

/-- The bytes from a start to before the newline that precedes the next start, or to the end. -/
def slice (bytes : List UInt8) (start : Nat) (next : Option Nat) : List UInt8 :=
  bytes.extract start ((next.map (· - 1)).getD bytes.length)

theorem startsOf_of_not_mem {bytes : List UInt8} (h : 10 ∉ bytes) : startsOf bytes = [0] := by
  have hnone : bytes.idxsOf 10 = [] := List.idxsOf_eq_nil_iff.2 (fun y hy => beq_false_of_ne (by rintro rfl; exact h hy))
  rw [startsOf, breaks, hnone, List.map_nil]

theorem startsOf_line {line : List UInt8} (h : 10 ∉ line) (rest : List UInt8) :
    startsOf (line ++ 10 :: rest) = 0 :: (startsOf rest).map (· + (line.length + 1)) := by
  have hline : breaks line = [] := (List.cons.inj (startsOf_of_not_mem h)).2
  have hrest : breaks (10 :: rest) = 1 :: (breaks rest).map (· + 1) := breaks_append [10] rest
  rw [startsOf, breaks_append, hline, hrest, List.nil_append, List.map_cons, List.map_map, startsOf, List.map_cons]
  simp only [Function.comp_def, Nat.add_comm, Nat.add_left_comm]

theorem slice_line (line rest : List UInt8) (start : Nat) {next : Option Nat} (h : ∀ n ∈ next, 0 < n) :
    slice (line ++ 10 :: rest) (start + (line.length + 1)) (next.map (· + (line.length + 1))) =
      slice rest start next := by
  have hdrop : (line ++ 10 :: rest).drop (start + (line.length + 1)) = rest.drop start := by
    rw [List.drop_append, List.drop_of_length_le (by omega), List.nil_append]
    rw [show start + (line.length + 1) - line.length = start + 1 by omega, List.drop_succ_cons]
  rw [slice, slice, List.extract_eq_take_drop, List.extract_eq_take_drop, hdrop]
  congr 1
  cases next with
  | none =>
    simp only [Option.map_none, Option.getD_none, List.length_append, List.length_cons]
    omega
  | some n =>
    have hn := h n rfl
    simp only [Option.map_some, Option.getD_some]
    omega

/-- **The starts cut the bytes into the pieces between the newlines.** -/
theorem getElem?_splitOn (bytes : List UInt8) (i : Nat) :
    (bytes.splitOn 10)[i]? = (startsOf bytes)[i]?.map (fun start => slice bytes start (startsOf bytes)[i + 1]?) := by
  by_cases hmem : 10 ∈ bytes
  · obtain ⟨line, rest, hbytes, hline⟩ := List.eq_append_cons_of_mem hmem
    have hstarts := startsOf_line hline rest
    rw [hbytes, List.splitOn_append_cons_self_of_not_mem hline, hstarts]
    cases i with
    | zero =>
      have hnext : ((startsOf rest).map (· + (line.length + 1)))[0]? = some (0 + (line.length + 1)) := rfl
      rw [List.getElem?_cons_zero, List.getElem?_cons_zero, List.getElem?_cons_succ, hnext]
      simp [slice]
    | succ i =>
      have ih := getElem?_splitOn rest i
      rw [List.getElem?_cons_succ, ih, List.getElem?_cons_succ, List.getElem?_cons_succ, List.getElem?_map,
        List.getElem?_map, Option.map_map]
      refine Option.map_congr (fun start _ => ?_)
      refine (slice_line line rest start (fun n hn => ?_)).symm
      exact pos_of_mem_breaks (List.mem_of_getElem? (by simpa [startsOf] using hn))
  · rw [List.splitOn_eq_singleton hmem, startsOf_of_not_mem hmem]
    cases i with
    | zero => simp [slice]
    | succ i => simp
termination_by bytes.length
decreasing_by
  rw [hbytes, List.length_append, List.length_cons]
  omega

theorem length_splitOn (bytes : List UInt8) : (bytes.splitOn 10).length = (startsOf bytes).length := by
  refine Nat.le_antisymm (List.getElem?_eq_none_iff.1 ?_) (List.getElem?_eq_none_iff.1 ?_)
  · rw [getElem?_splitOn, List.getElem?_eq_none (Nat.le_refl _)]
    rfl
  · have hnone := getElem?_splitOn bytes (bytes.splitOn 10).length
    rw [List.getElem?_eq_none (Nat.le_refl _)] at hnone
    exact Option.map_eq_none_iff.1 hnone.symm

/-- The last piece is empty exactly if the last line starts at the end. -/
theorem getLast?_splitOn_eq_nil (bytes : List UInt8) :
    (bytes.splitOn 10).getLast? = some [] ↔ (startsOf bytes).getLast? = some bytes.length := by
  have hlast : (bytes.splitOn 10).getLast? = (startsOf bytes).getLast?.map (bytes.drop ·) := by
    rw [List.getLast?_eq_getElem?, getElem?_splitOn, length_splitOn, List.getLast?_eq_getElem?]
    refine Option.map_congr (fun start _ => ?_)
    rw [List.getElem?_eq_none (by simp [startsOf]), slice, List.extract_eq_take_drop]
    exact List.take_of_length_le (by simp)
  obtain ⟨start, hstart⟩ : ∃ start, (startsOf bytes).getLast? = some start := ⟨_, List.getLast?_cons⟩
  have hle := le_length_of_mem_startsOf (List.mem_of_getLast? hstart)
  rw [hlast, hstart, Option.map_some, Option.some_inj, Option.some_inj, List.drop_eq_nil_iff]
  omega

/-! ## What a buffer shows -/

theorem lineCount_eq {b : OutputBuffer} (h : b.Indexed) : b.lineCount = (linesOf b.bytes.toList).length := by
  have hback : b.lineStarts.back? = some b.bytes.size ↔ (b.bytes.toList.splitOn 10).getLast? = some [] := by
    rw [getLast?_splitOn_eq_nil, ← h, Array.getLast?_toList, Array.length_toList]
  have hsize : b.lineStarts.size = (b.bytes.toList.splitOn 10).length := by
    rw [length_splitOn, ← h, Array.length_toList]
  unfold lineCount linesOf
  by_cases hlast : (b.bytes.toList.splitOn 10).getLast? = some []
  · rw [if_pos (hback.2 hlast), hsize]
    simp only [hlast, if_true, List.length_dropLast]
  · rw [if_neg (fun e => hlast (hback.1 e)), hsize]
    simp only [hlast, if_false]

theorem getElem?_linesOf {bytes : List UInt8} {i : Nat} (hi : i < (linesOf bytes).length) :
    (linesOf bytes)[i]? = (bytes.splitOn 10)[i]? := by
  unfold linesOf at hi ⊢
  by_cases hlast : (bytes.splitOn 10).getLast? = some []
  · simp only [hlast, if_true, List.length_dropLast] at hi ⊢
    rw [List.getElem?_dropLast, if_pos hi]
  · simp only [hlast, if_false]

theorem lineCount_le {b : OutputBuffer} : b.lineCount ≤ b.lineStarts.size := by
  unfold lineCount
  split
  · exact Nat.sub_le _ _
  · exact Nat.le_refl _

theorem lineBytes_eq {b : OutputBuffer} (h : b.Indexed) {i : Nat} (hi : i < b.lineCount) :
    some (b.lineBytes i) = (linesOf b.bytes.toList)[i]? := by
  have hlt : i < b.lineStarts.size := Nat.lt_of_lt_of_le hi lineCount_le
  rw [getElem?_linesOf (by rw [← lineCount_eq h]; exact hi), getElem?_splitOn, ← h, Array.getElem?_toList,
    Array.getElem?_toList, Array.getElem?_eq_getElem hlt]
  rw [lineBytes, Array.toList_extract, Option.map_some, slice, Array.getD_eq_getD_getElem?, Array.getElem?_eq_getElem hlt]
  cases b.lineStarts[i + 1]? <;> rfl

theorem line?_eq {b : OutputBuffer} (h : b.Indexed) (i : Nat) (d : Decoding) :
    b.line? i d = ((linesOf b.bytes.toList).map d.decode)[i]? := by
  unfold line?
  by_cases hi : i < b.lineCount
  · rw [if_pos hi, List.getElem?_map, ← lineBytes_eq h hi]
    rfl
  · rw [if_neg hi, List.getElem?_eq_none]
    rw [List.length_map, ← lineCount_eq h]
    exact Nat.le_of_not_lt hi

theorem window_eq {b : OutputBuffer} (h : b.Indexed) (first count : Nat) (d : Decoding) :
    b.window first count d = (((linesOf b.bytes.toList).map d.decode).drop first).take count := by
  refine List.ext_getElem? (fun i => ?_)
  rw [window, List.getElem?_map, List.getElem?_take, List.getElem?_drop, ← line?_eq h, line?]
  by_cases hi : i < min count (b.lineCount - first)
  · rw [List.getElem?_range' hi, if_pos (by omega), if_pos (by omega), Nat.one_mul]
    rfl
  · have hlen : (List.range' first (min count (b.lineCount - first))).length ≤ i := by
      rw [List.length_range']
      exact Nat.le_of_not_lt hi
    rw [List.getElem?_eq_none hlen]
    by_cases hc : i < count
    · rw [if_pos hc, if_neg (by omega)]
      rfl
    · rw [if_neg hc]
      rfl

theorem lines_eq {b : OutputBuffer} (h : b.Indexed) (d : Decoding) :
    b.lines d = (linesOf b.bytes.toList).map d.decode := by
  rw [lines, window_eq h, List.drop_zero, lineCount_eq h]
  exact List.take_of_length_le (by simp)

/-- The lines that are found by asking for at most `count`, one after the other, until there is none. -/
def linesFrom (b : OutputBuffer) (d : Decoding) (first : Nat) : Nat → List String
  | 0 => []
  | count + 1 =>
    match b.line? first d with
    | none => []
    | some text => text :: b.linesFrom d (first + 1) count

theorem linesFrom_eq {b : OutputBuffer} (h : b.Indexed) (d : Decoding) : ∀ (count first : Nat),
    b.linesFrom d first count = (((linesOf b.bytes.toList).map d.decode).drop first).take count
  | 0, first => rfl
  | count + 1, first => by
    rw [linesFrom, line?_eq h]
    cases hline : ((linesOf b.bytes.toList).map d.decode)[first]? with
    | none => rw [List.drop_of_length_le (List.getElem?_eq_none_iff.1 hline)]; rfl
    | some text =>
      obtain ⟨hlt, heq⟩ := List.getElem?_eq_some_iff.1 hline
      rw [List.drop_eq_getElem_cons hlt, List.take_succ_cons, heq, ← linesFrom_eq h d count (first + 1)]

/-- It makes no difference to a window if the number of its last line is capped, as long as no line has a number above
the cap. -/
theorem linesFrom_capped {b : OutputBuffer} (h : b.Indexed) (d : Decoding) (first count : Nat) {cap : Nat}
    (hcap : b.lineCount ≤ cap) : b.linesFrom d first (min (first + count) cap - first) = b.window first count d := by
  rw [linesFrom_eq h, window_eq h, List.take_eq_take_iff, List.length_drop, List.length_map, ← lineCount_eq h]
  omega

/-! ## Nothing is out of range -/

/-- Every offset that a buffer computes from its index lies within its bytes, and none is below zero. -/
structure InRange (b : OutputBuffer) : Prop where
  starts_ne : 0 < b.lineStarts.size
  /-- A line starts and stops within the bytes. -/
  line : ∀ i < b.lineCount, ∃ start, b.lineStarts[i]? = some start ∧ start ≤ b.bytes.size ∧
    ∀ next, b.lineStarts[i + 1]? = some next → start + 1 ≤ next ∧ next ≤ b.bytes.size
  /-- What is dropped to come down to the limit is there, and the starts that are kept lie beyond it. -/
  cut : ∀ limit, b.limit = some limit → limit * 2 < b.bytes.size → limit ≤ b.bytes.size ∧
    b.cutFor limit ≤ b.bytes.size ∧ ∀ start ∈ b.lineStarts.filter (b.cutFor limit ≤ ·), b.cutFor limit ≤ start

theorem pairwise_startsOf (bytes : List UInt8) : (startsOf bytes).Pairwise (· < ·) := by
  refine List.pairwise_cons.2 ⟨fun n hn => pos_of_mem_breaks hn, ?_⟩
  exact List.Pairwise.map _ (fun _ _ h => Nat.add_lt_add_right h 1) List.pairwise_idxsOf

theorem Indexed.inRange {b : OutputBuffer} (h : b.Indexed) : b.InRange where
  starts_ne := by
    rw [← Array.length_toList, h]
    exact Nat.succ_pos _
  line i hi := by
    have hle : ∀ start ∈ b.lineStarts.toList, start ≤ b.bytes.size := fun _ => h.le_size
    have hlt : i < b.lineStarts.toList.length := Nat.lt_of_lt_of_le hi lineCount_le
    refine ⟨b.lineStarts.toList[i], ?_, hle _ (List.getElem_mem hlt), fun next hnext => ?_⟩
    · rw [← Array.getElem?_toList, List.getElem?_eq_getElem hlt]
    · rw [← Array.getElem?_toList] at hnext
      obtain ⟨hlt', rfl⟩ := List.getElem?_eq_some_iff.1 hnext
      have hpair : b.lineStarts.toList.Pairwise (· < ·) := by
        rw [h]
        exact pairwise_startsOf _
      exact ⟨List.pairwise_iff_getElem.1 hpair i (i + 1) hlt hlt' (Nat.lt_succ_self i), hle _ (List.getElem_mem hlt')⟩
  cut limit _ hlt := by
    refine ⟨by omega, cutFor_le h limit, fun start hmem => ?_⟩
    exact of_decide_eq_true (Array.mem_filter.1 hmem).2

/-- A buffer shows the lines of its bytes: the index notes where they start, what is shown of them is what the bytes
show, and neither now nor after more bytes have arrived does the buffer look beyond them. -/
structure ShowsLines (b : OutputBuffer) : Prop where
  starts_eq : b.lineStarts.toList = 0 :: (b.bytes.toList.idxsOf 10).map (· + 1)
  lines_eq : ∀ d, b.lines d = (linesOf b.bytes.toList).map d.decode
  line_eq : ∀ i d, b.line? i d = (b.lines d)[i]?
  window_eq : ∀ first count d, b.window first count d = ((b.lines d).drop first).take count
  capped_eq : ∀ first count d cap, b.lineCount ≤ cap →
    b.linesFrom d first (min (first + count) cap - first) = b.window first count d
  inRange : ∀ bytes : List UInt8, (bytes.foldl append b).InRange

/-- **The index is right, so the lines are.** -/
theorem Indexed.showsLines {b : OutputBuffer} (h : b.Indexed) : b.ShowsLines := by
  refine ⟨h, lines_eq h, ?_, ?_, fun first count d cap => linesFrom_capped h d first count,
    fun bytes => (h.appendAll bytes).inRange⟩
  · intro i d
    rw [lines_eq h]
    exact line?_eq h i d
  · intro first count d
    rw [lines_eq h]
    exact window_eq h first count d

end OutputBuffer

end Brainfuck
