import Mathlib.Data.List.Induction
import Brainfuck.Proofs.LineIndex
/-!
# What a buffer retains

A buffer retains the end of what was added to it since it was last cleared (`OutputBuffer.added`): everything if it has
no limit or if there was little, and else at most twice the limit.  It drops whole lines; only a line longer than the
limit is ever cut through (`OutputBuffer.CutAt`).

What was dropped is no longer part of the buffer, so the invariant `OutputBuffer.Keeps` relates the buffer to all that
was added, and a trim has to find the line it cuts there and not in the buffer.
-/
namespace Brainfuck

namespace OutputBuffer

variable {b : OutputBuffer} {all : List UInt8} {limit cut : Nat}

/-- What was added once a command is done. -/
def record (all : List UInt8) : Command → List UInt8
  | .push byte => all ++ [byte]
  | .emit byte => all ++ [byte]
  | .extend bytes => all ++ bytes
  | .clear => []

/-- All bytes that were added since the last time the buffer was cleared. -/
def added (cs : List Command) : List UInt8 := cs.foldl record []

/-! ## Lines of all that was added -/

/-- Between `before` and `after` there is a whole line, without its newline. -/
structure LineAt (all before line after : List UInt8) : Prop where
  split : all = before ++ (line ++ after)
  opened : before = [] ∨ before.getLast? = some 10
  unbroken : 10 ∉ line
  closed : after = [] ∨ after.head? = some 10

theorem LineAt.append {before line after : List UInt8} (h : LineAt all before line after) (byte : UInt8) :
    ∃ line' after', LineAt (all ++ [byte]) before line' after' ∧ line.length ≤ line'.length := by
  rcases List.eq_nil_or_concat after with rfl | ⟨rest, last, rfl⟩
  · by_cases hb : byte = 10
    · refine ⟨line, [10], ⟨?_, h.opened, h.unbroken, .inr rfl⟩, Nat.le_refl _⟩
      rw [h.split, hb, List.append_nil, List.append_assoc]
    · refine ⟨line ++ [byte], [], ⟨?_, h.opened, ?_, .inl rfl⟩, ?_⟩
      · rw [h.split, List.append_nil, List.append_nil, List.append_assoc]
      · rw [List.mem_append, List.mem_singleton]
        rintro (hmem | rfl)
        · exact h.unbroken hmem
        · exact hb rfl
      · rw [List.length_append]
        exact Nat.le_add_right _ _
  · refine ⟨line, rest.concat last ++ [byte], ⟨?_, h.opened, h.unbroken, .inr ?_⟩, Nat.le_refl _⟩
    · rw [h.split, List.append_assoc, List.append_assoc]
    · have hne : rest.concat last ≠ [] := by simp
      rw [List.head?_append_of_ne_nil _ hne]
      exact h.closed.resolve_left hne

theorem exists_lastLine (all : List UInt8) : ∃ before line, LineAt all before line [] := by
  induction all using List.reverseRecOn with
  | nil => exact ⟨[], [], rfl, .inl rfl, List.not_mem_nil, .inl rfl⟩
  | append_singleton front byte ih =>
    obtain ⟨before, line, h⟩ := ih
    by_cases hb : byte = 10
    · refine ⟨front ++ [byte], [], by simp, .inr ?_, List.not_mem_nil, .inl rfl⟩
      rw [List.getLast?_append, hb]
      rfl
    · refine ⟨before, line ++ [byte], ?_, h.opened, ?_, .inl rfl⟩
      · rw [h.split]
        simp
      · rw [List.mem_append, List.mem_singleton]
        rintro (hmem | rfl)
        · exact h.unbroken hmem
        · exact hb rfl

/-! ## Where the retained bytes start -/

/-- An offset of all that was added at which a buffer with this limit may start: the beginning, the place after a
newline, or the middle of a line longer than the limit. -/
inductive CutAt (limit : Nat) (all : List UInt8) : Nat → Prop where
  | beginning : CutAt limit all 0
  | newline {i : Nat} (h : all[i]? = some 10) : CutAt limit all (i + 1)
  | inside {before line after : List UInt8} {cut : Nat} (h : LineAt all before line after)
      (hlong : limit < line.length) (hlo : before.length < cut) (hhi : cut < before.length + line.length) :
      CutAt limit all cut

theorem CutAt.append (h : CutAt limit all cut) (byte : UInt8) : CutAt limit (all ++ [byte]) cut := by
  cases h with
  | beginning => exact .beginning
  | newline h =>
    have hlt := (List.getElem?_eq_some_iff.1 h).1
    exact .newline (by rw [List.getElem?_append_left hlt]; exact h)
  | inside h hlong hlo hhi =>
    obtain ⟨line', after', h', hle⟩ := h.append byte
    exact .inside h' (by omega) hlo (by omega)

/-- If the last bytes, as many as the limit and one more, hold no newline, the cut before the limit lies inside a line
that is too long. -/
theorem cutAt_of_unbroken (hpos : 0 < limit) (hlt : limit < all.length)
    (h : ∀ i, all[i]? = some 10 → i + 1 < all.length - limit) : CutAt limit all (all.length - limit) := by
  obtain ⟨before, line, hline⟩ := exists_lastLine all
  have hlen : all.length = before.length + line.length := by
    rw [hline.split]
    simp
  have hbefore : before.length < all.length - limit := by
    rcases hline.opened with rfl | hlast
    · rw [List.length_nil]
      omega
    · have hne : before ≠ [] := by
        rintro rfl
        cases hlast
      have hpos : 0 < before.length := List.length_pos_iff.2 hne
      have hget : all[before.length - 1]? = some 10 := by
        rw [hline.split, List.getElem?_append_left (by omega), ← List.getLast?_eq_getElem?]
        exact hlast
      have := h _ hget
      omega
  exact .inside hline (by omega) hbefore (by omega)

/-! ## The invariant -/

/-- A buffer holds the end of all that was added. -/
structure Keeps (b : OutputBuffer) (all : List UInt8) : Prop where
  indexed : b.Indexed
  limit_pos : ∀ limit, b.limit = some limit → 0 < limit
  bytes_eq : b.bytes.toList = all.drop b.discarded
  discarded_le : b.discarded ≤ all.length
  whole : b.limit = none → b.discarded = 0
  cut : ∀ limit, b.limit = some limit → CutAt limit all b.discarded
  early : ∀ limit, b.limit = some limit → all.length ≤ limit * 2 → b.discarded = 0

theorem Keeps.size_eq (h : b.Keeps all) : b.bytes.size = all.length - b.discarded := by
  rw [← Array.length_toList, h.bytes_eq, List.length_drop]

theorem Keeps.total_eq (h : b.Keeps all) : b.total = all.length := by
  have hle := h.discarded_le
  rw [total, h.size_eq]
  omega

theorem Keeps.suffix (h : b.Keeps all) : b.bytes.toList <:+ all := by
  rw [h.bytes_eq]
  exact List.drop_suffix _ _

theorem Keeps.toList_eq (h : b.Keeps all) (hd : b.discarded = 0) : b.bytes.toList = all := by
  rw [h.bytes_eq, hd, List.drop_zero]

theorem Keeps.clear (h : b.Keeps all) : b.clear.Keeps [] where
  indexed := rfl
  limit_pos := h.limit_pos
  bytes_eq := rfl
  discarded_le := Nat.le_refl 0
  whole _ := rfl
  cut _ _ := .beginning
  early _ _ _ := rfl

theorem Keeps.append (h : b.Keeps all) (byte : UInt8) : (b.append byte).Keeps (all ++ [byte]) where
  indexed := h.indexed.append byte
  limit_pos := h.limit_pos
  bytes_eq := by
    show (b.bytes.push byte).toList = (all ++ [byte]).drop b.discarded
    rw [Array.toList_push, h.bytes_eq, List.drop_append_of_le_length h.discarded_le]
  discarded_le := by
    rw [List.length_append]
    exact Nat.le_add_right_of_le h.discarded_le
  whole := h.whole
  cut limit hl := (h.cut limit hl).append byte
  early limit hl hle := by
    rw [List.length_append] at hle
    exact h.early limit hl (by omega)

theorem Keeps.appendAll : ∀ (bytes : List UInt8) {b : OutputBuffer} {all : List UInt8}, b.Keeps all →
    (bytes.foldl OutputBuffer.append b).Keeps (all ++ bytes)
  | [], b, all, h => by
    rw [List.append_nil]
    exact h
  | byte :: bytes, b, all, h => by
    have hrest := Keeps.appendAll bytes (h.append byte)
    rw [List.append_assoc] at hrest
    exact hrest

/-- The cut of a trim, seen in all that was added. -/
theorem Keeps.cutAt (h : b.Keeps all) (hl : b.limit = some limit) (hlt : limit * 2 < b.bytes.size) :
    CutAt limit all (b.discarded + b.cutFor limit) := by
  have hpos := h.limit_pos limit hl
  have hsize := h.size_eq
  have hbyte : ∀ i, b.bytes.toList[i]? = all[b.discarded + i]? := by
    intro i
    rw [h.bytes_eq, List.getElem?_drop]
  rcases cutFor_cases b limit with ⟨hmem, hle⟩ | ⟨heq, hnone⟩
  · rw [h.indexed] at hmem
    rcases List.mem_cons.1 hmem with hzero | hmem
    · omega
    · obtain ⟨i, hi, hcut⟩ := mem_breaks.1 hmem
      rw [hbyte] at hi
      rw [hcut]
      exact .newline hi
  · have hcut : b.discarded + b.cutFor limit = all.length - limit := by
      rw [heq, hsize]
      omega
    rw [hcut]
    refine cutAt_of_unbroken hpos (by omega) (fun i hi => ?_)
    by_cases hd : i < b.discarded
    · omega
    · -- a newline that is still in the buffer starts a line, and all lines start before the cut
      have hstart : i - b.discarded + 1 ∈ b.lineStarts.toList := by
        rw [h.indexed]
        refine List.mem_cons_of_mem _ (mem_breaks.2 ⟨i - b.discarded, ?_, rfl⟩)
        rw [hbyte, Nat.add_sub_cancel' (by omega)]
        exact hi
      have := hnone _ hstart
      omega

theorem Keeps.trim (h : b.Keeps all) : b.trim.Keeps all := by
  unfold OutputBuffer.trim
  split
  · exact h
  · rename_i limit hl
    split
    · exact h
    · rename_i hlt
      have hsize := h.size_eq
      have hle := cutFor_le h.indexed limit
      have hd := h.discarded_le
      have hlimit : ∀ m, (b.dropFront (b.cutFor limit)).limit = some m → m = limit := by
        intro m hm
        exact Option.some.inj (hm.symm.trans hl)
      refine ⟨h.indexed.dropFront hle, h.limit_pos, ?_, ?_, ?_, ?_, ?_⟩
      · rw [toList_dropFront, h.bytes_eq, List.drop_drop]
        rfl
      · show b.discarded + b.cutFor limit ≤ all.length
        omega
      · intro hn
        exact absurd (hl.symm.trans hn) (by simp)
      · intro m hm
        rw [hlimit m hm]
        exact h.cutAt hl (by omega)
      · intro m hm hshort
        rw [hlimit m hm] at hshort
        omega

theorem size_trim_le (hl : b.limit = some limit) : b.trim.bytes.size ≤ limit * 2 := by
  unfold trim
  rw [hl]
  simp only
  split
  · assumption
  · have hwanted : b.bytes.size - limit ≤ b.cutFor limit := by
      rcases cutFor_cases b limit with ⟨-, hle⟩ | ⟨heq, -⟩
      · exact hle
      · exact Nat.le_of_eq heq.symm
    rw [← Array.length_toList, toList_dropFront, List.length_drop, Array.length_toList]
    omega

theorem keeps_fresh (limit : Option Nat) : (fresh limit).Keeps [] := by
  have hpos : ∀ n, (fresh limit).limit = some n → 0 < n := by
    intro n hn
    cases limit with
    | none => cases hn
    | some m =>
      cases hn
      omega
  cases limit <;> exact ⟨rfl, hpos, rfl, Nat.le_refl 0, fun _ => rfl, fun _ _ => .beginning, fun _ _ _ => rfl⟩

theorem Keeps.perform (h : b.Keeps all) (c : Command) : (b.perform c).Keeps (record all c) := by
  cases c with
  | push byte => exact (h.append byte).trim
  | emit byte => exact (h.append byte).trim
  | extend bytes => exact (h.appendAll bytes).trim
  | clear => exact h.clear

theorem Keeps.performAll : ∀ (cs : List Command) {b : OutputBuffer} {all : List UInt8}, b.Keeps all →
    (cs.foldl OutputBuffer.perform b).Keeps (cs.foldl record all)
  | [], _, _, h => h
  | c :: cs, _, _, h => Keeps.performAll cs (h.perform c)

theorem keeps_run (limit : Option Nat) (cs : List Command) : (run limit cs).Keeps (added cs) :=
  (keeps_fresh limit).performAll cs

theorem limit_appendAll : ∀ (bytes : List UInt8) (b : OutputBuffer), (bytes.foldl append b).limit = b.limit
  | [], _ => rfl
  | byte :: bytes, b => limit_appendAll bytes (b.append byte)

theorem limit_trim (b : OutputBuffer) : b.trim.limit = b.limit := by
  unfold trim
  split
  · rfl
  · split <;> rfl

theorem limit_perform (b : OutputBuffer) (c : Command) : (b.perform c).limit = b.limit := by
  cases c with
  | push byte => exact limit_trim _
  | emit byte => exact limit_trim _
  | extend bytes => exact (limit_trim _).trans (limit_appendAll bytes b)
  | clear => rfl

theorem size_perform_le (hl : b.limit = some limit) (c : Command) : (b.perform c).bytes.size ≤ limit * 2 := by
  cases c with
  | push byte => exact size_trim_le hl
  | emit byte => exact size_trim_le hl
  | extend bytes => exact size_trim_le ((limit_appendAll bytes b).trans hl)
  | clear => exact Nat.zero_le _

theorem limit_run (limit : Option Nat) (cs : List Command) : (run limit cs).limit = limit.map (max · 1) :=
  List.foldlRecOn cs perform (by cases limit <;> rfl) (fun b hb c _ => (limit_perform b c).trans hb)

theorem size_run_le (n : Nat) (cs : List Command) : (run (some n) cs).bytes.size ≤ max n 1 * 2 := by
  induction cs using List.reverseRecOn with
  | nil => exact Nat.zero_le _
  | append_singleton cs c _ =>
    have hl := limit_run (some n) cs
    rw [run, List.foldl_append]
    exact size_perform_le hl c

/-- **What a buffer retains.**  After any commands it counts all bytes that were added and retains the last of them;
all, if it has no limit or if they are at most twice the limit; and never more than that.  What it retains starts at the
beginning, after a newline, or inside a line longer than the limit. -/
theorem run_retains (limit : Option Nat) (cs : List Command) :
    let b := run limit cs
    b.total = (added cs).length ∧ b.bytes.toList <:+ added cs ∧ (limit = none → b.bytes.toList = added cs) ∧
      ∀ n, limit = some n → b.bytes.size ≤ 2 * max n 1 ∧
        ((added cs).length ≤ 2 * max n 1 → b.bytes.toList = added cs) ∧
        CutAt (max n 1) (added cs) ((added cs).length - b.bytes.size) := by
  intro b
  have h : b.Keeps (added cs) := keeps_run limit cs
  have hl : b.limit = limit.map (max · 1) := limit_run limit cs
  refine ⟨h.total_eq, h.suffix, ?_, ?_⟩
  · rintro rfl
    exact h.toList_eq (h.whole hl)
  · rintro n rfl
    have hstart : (added cs).length - b.bytes.size = b.discarded := by
      have hle := h.discarded_le
      rw [h.size_eq]
      omega
    rw [Nat.mul_comm, hstart]
    exact ⟨size_run_le n cs, fun hle => h.toList_eq (h.early _ hl hle), h.cut _ hl⟩

/-- A line that is too long is cut through. -/
theorem run_retains_long_line :
    (run (some 2) [.extend [1, 2, 3, 4, 5]]).bytes.toList = [4, 5] ∧ CutAt 2 [1, 2, 3, 4, 5] 3 := by
  obtain ⟨-, -, -, hlimit⟩ := run_retains (some 2) [.extend [1, 2, 3, 4, 5]]
  obtain ⟨-, -, hcut⟩ := hlimit 2 rfl
  exact ⟨by decide, hcut⟩

end OutputBuffer

end Brainfuck
