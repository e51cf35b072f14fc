import Brainfuck.Proofs.LineIndex
/-!
# Buffers in 64 bits

Twice the limit of a buffer need not fit into 64 bits.  For a limit below 2 ^ 63 it does, and then no result of a trim
leaves 64 bits and no cut lies beyond the bytes (`OutputBuffer.Indexed.trim?_eq_trim`).  For a larger one a trim breaks:
always, if results are checked, and else as soon as the bytes are more than what is left of twice the limit
(`Overflow.Breaks`, `OutputBuffer.Indexed.trim?_eq_none_iff`).  As long as nothing has broken, a buffer shows the lines
of its bytes (`OutputBuffer.run?_shows_lines`).
-/
namespace Brainfuck

namespace Overflow

variable {w : Overflow} {a b : Nat}

theorem mul_of_lt (h : a * b < modulus) : w.mul a b = some (a * b) := if_pos h

theorem mul_checked (h : modulus ≤ a * b) : checked.mul a b = none := if_neg (Nat.not_lt.2 h)

theorem mul_wrapping (a b : Nat) : wrapping.mul a b = some (a * b % modulus) := by
  unfold mul
  split
  · rename_i h
    rw [Nat.mod_eq_of_lt h]
  · rfl

theorem sub_of_le (h : b ≤ a) : w.sub a b = some (a - b) := if_pos h

theorem sub_wrapping (h : a < b) : wrapping.sub a b = some (modulus + a - b) := if_neg (Nat.not_le.2 h)

/-- The limits with which a trim of `size` bytes breaks.  Dropping the higher bits of twice the limit makes a short
buffer look too long, and then there is less to drop than is reckoned. -/
def Breaks (limit size : Nat) : Overflow → Prop
  | .checked => modulus ≤ limit * 2
  | .wrapping => limit * 2 % modulus < size ∧ size < limit

end Overflow

namespace OutputBuffer

variable {w : Overflow} {b b' : OutputBuffer} {limit? : Option Nat} {limit : Nat} {c : Command}

/-! ## A trim -/

theorem trim?_of_none (hl : b.limit = none) : b.trim? w = some b := by
  unfold trim?
  rw [hl]

theorem trim?_of_short {twice : Nat} (hl : b.limit = some limit) (hmul : w.mul limit 2 = some twice)
    (hshort : b.bytes.size ≤ twice) : b.trim? w = some b := by
  simp only [trim?, hl, hmul, Option.bind_some]
  exact if_pos hshort

theorem trim?_of_long {twice wanted : Nat} (hl : b.limit = some limit) (hmul : w.mul limit 2 = some twice)
    (hlong : twice < b.bytes.size) (hsub : w.sub b.bytes.size limit = some wanted) :
    b.trim? w = if b.cutFrom wanted ≤ b.bytes.size then some (b.dropFront (b.cutFrom wanted)) else none := by
  simp only [trim?, hl, hmul, hsub, Option.bind_some]
  exact if_neg (Nat.not_le.2 hlong)

/-- A buffer that is as long as its limit has the bytes that are to be dropped. -/
theorem Indexed.trim?_of_le {twice : Nat} (h : b.Indexed) (hl : b.limit = some limit)
    (hmul : w.mul limit 2 = some twice) (hlong : twice < b.bytes.size) (hle : limit ≤ b.bytes.size) :
    b.trim? w = some (b.dropFront (b.cutFor limit)) := by
  rw [trim?_of_long hl hmul hlong (Overflow.sub_of_le hle)]
  exact if_pos (cutFor_le h limit)

/-- **Below 2 ^ 63 no limit is in the way.** -/
theorem Indexed.trim?_eq_trim (h : b.Indexed) (hfits : ∀ limit ∈ b.limit, limit * 2 < Overflow.modulus) :
    b.trim? w = some b.trim := by
  unfold OutputBuffer.trim
  cases hl : b.limit with
  | none => exact trim?_of_none hl
  | some limit =>
    have hmul : w.mul limit 2 = some (limit * 2) := Overflow.mul_of_lt (hfits limit hl)
    by_cases hshort : b.bytes.size ≤ limit * 2
    · simp only [if_pos hshort]
      exact trim?_of_short hl hmul hshort
    · simp only [if_neg hshort]
      exact h.trim?_of_le hl hmul (by omega) (by omega)

/-- **When a trim breaks.** -/
theorem Indexed.trim?_eq_none_iff (h : b.Indexed) (hl : b.limit = some limit) (hlimit : limit < Overflow.modulus) :
    b.trim? w = none ↔ w.Breaks limit b.bytes.size := by
  cases w with
  | checked =>
    by_cases hfits : limit * 2 < Overflow.modulus
    · have htrim : b.trim? .checked = some b.trim := h.trim?_eq_trim (fun m hm => by
        obtain rfl : limit = m := Option.some.inj (hl.symm.trans hm)
        exact hfits)
      rw [htrim]
      exact iff_of_false nofun (Nat.not_le.2 hfits)
    · have hbreaks : Overflow.modulus ≤ limit * 2 := Nat.not_lt.1 hfits
      refine iff_of_true ?_ hbreaks
      simp only [trim?, hl, Overflow.mul_checked hbreaks, Option.bind_none]
  | wrapping =>
    have hmul := Overflow.mul_wrapping limit 2
    by_cases hshort : b.bytes.size ≤ limit * 2 % Overflow.modulus
    · rw [trim?_of_short hl hmul hshort]
      exact iff_of_false nofun (fun hbreaks => Nat.not_lt.2 hshort hbreaks.1)
    · by_cases hle : limit ≤ b.bytes.size
      · rw [h.trim?_of_le hl hmul (Nat.not_le.1 hshort) hle]
        exact iff_of_false nofun (fun hbreaks => Nat.not_lt.2 hle hbreaks.2)
      · -- the difference has wrapped around, so it lies beyond the bytes, where no line starts
        have hlt : b.bytes.size < limit := Nat.not_le.1 hle
        refine iff_of_true ?_ ⟨Nat.not_le.1 hshort, hlt⟩
        rw [trim?_of_long hl hmul (Nat.not_le.1 hshort) (Overflow.sub_wrapping hlt)]
        refine if_neg (fun hcut => ?_)
        rcases b.cutFrom_cases (Overflow.modulus + b.bytes.size - limit) with ⟨-, hwanted⟩ | ⟨heq, -⟩ <;> omega

theorem Indexed.of_trim? (h : b.Indexed) (ht : b.trim? w = some b') : b'.Indexed ∧ b'.limit = b.limit := by
  cases hl : b.limit with
  | none =>
    rw [trim?_of_none hl] at ht
    cases ht
    exact ⟨h, hl⟩
  | some limit =>
    simp only [trim?, hl, Option.bind_eq_some_iff] at ht
    obtain ⟨twice, -, ht⟩ := ht
    split at ht
    · cases ht
      exact ⟨h, hl⟩
    · obtain ⟨wanted, -, ht⟩ := Option.bind_eq_some_iff.1 ht
      split at ht
      · rename_i hcut
        cases ht
        exact ⟨h.dropFront hcut, hl⟩
      · cases ht

/-! ## Commands -/

theorem appendAll_frame (bytes : List UInt8) (b : OutputBuffer) :
    (bytes.foldl append b).limit = b.limit ∧ (bytes.foldl append b).bytes.size = b.bytes.size + bytes.length := by
  induction bytes generalizing b with
  | nil => exact ⟨rfl, rfl⟩
  | cons byte bytes ih =>
    obtain ⟨hlimit, hsize⟩ := ih (b.append byte)
    refine ⟨hlimit, hsize.trans ?_⟩
    rw [append, Array.size_push, List.length_cons]
    omega

theorem perform_eq (b : OutputBuffer) (c : Command) :
    b.perform c = c.bytes?.elim b.clear (fun bytes => (bytes.foldl append b).trim) := by
  cases c <;> rfl

/-- A buffer that has come through some commands in 64 bits. -/
structure Stays (limit? : Option Nat) (b : OutputBuffer) : Prop where
  indexed : b.Indexed
  limit_eq : b.limit = limit?.map (max · 1)

theorem stays_fresh (limit? : Option Nat) : (fresh limit?).Stays limit? := by
  cases limit? <;> exact ⟨rfl, rfl⟩

theorem Stays.appendAll (h : b.Stays limit?) (bytes : List UInt8) : (bytes.foldl append b).Stays limit? :=
  ⟨h.indexed.appendAll bytes, (appendAll_frame bytes b).1.trans h.limit_eq⟩

theorem Stays.perform? (h : b.Stays limit?) (hc : b.perform? w c = some b') : b'.Stays limit? := by
  unfold OutputBuffer.perform? at hc
  split at hc
  · rename_i bytes hbytes
    obtain ⟨hindexed, hlimit⟩ := (h.appendAll bytes).indexed.of_trim? hc
    exact ⟨hindexed, hlimit.trans (h.appendAll bytes).limit_eq⟩
  · cases hc
    exact ⟨rfl, h.limit_eq⟩

theorem Stays.performAll : ∀ (cs : List Command) {b : OutputBuffer}, b.Stays limit? →
    cs.foldlM (OutputBuffer.perform? w) b = some b' → b'.Stays limit?
  | [], _, h, hrun => by
    cases hrun
    exact h
  | c :: cs, b, h, hrun => by
    rw [List.foldlM_cons] at hrun
    obtain ⟨next, hc, hrest⟩ := Option.bind_eq_some_iff.1 hrun
    exact Stays.performAll cs (h.perform? hc) hrest

theorem stays_of_run? {cs : List Command} (hrun : run? w limit? cs = some b) : b.Stays limit? :=
  (stays_fresh limit?).performAll cs hrun

theorem Stays.fits (h : b.Stays limit?) (hsmall : ∀ limit ∈ limit?, limit * 2 < Overflow.modulus) :
    ∀ limit ∈ b.limit, limit * 2 < Overflow.modulus := by
  intro limit hmem
  rw [h.limit_eq] at hmem
  obtain ⟨given, hgiven, rfl⟩ := Option.map_eq_some_iff.1 hmem
  have hlt := hsmall given hgiven
  simp only [Overflow.modulus] at hlt ⊢
  omega

theorem Stays.perform?_eq_perform (h : b.Stays limit?) (hsmall : ∀ limit ∈ limit?, limit * 2 < Overflow.modulus)
    (c : Command) : b.perform? w c = some (b.perform c) := by
  rw [perform_eq, OutputBuffer.perform?]
  cases c.bytes? with
  | none => rfl
  | some bytes => exact (h.appendAll bytes).indexed.trim?_eq_trim ((h.appendAll bytes).fits hsmall)

theorem Stays.performAll_eq (hsmall : ∀ limit ∈ limit?, limit * 2 < Overflow.modulus) :
    ∀ (cs : List Command) {b : OutputBuffer}, b.Stays limit? →
      cs.foldlM (OutputBuffer.perform? w) b = some (cs.foldl perform b)
  | [], _, _ => rfl
  | c :: cs, b, h => by
    have hc := h.perform?_eq_perform (w := w) hsmall c
    rw [List.foldlM_cons, hc, List.foldl_cons]
    exact Stays.performAll_eq hsmall cs (h.perform? hc)

theorem Stays.perform?_eq_none_iff (h : b.Stays limit?) (hword : ∀ limit ∈ limit?, limit < Overflow.modulus)
    (c : Command) : b.perform? w c = none ↔
      ∃ limit ∈ limit?, ∃ bytes ∈ c.bytes?, w.Breaks (max limit 1) (b.bytes.size + bytes.length) := by
  unfold OutputBuffer.perform?
  cases hc : c.bytes? with
  | none => simp
  | some bytes =>
    have hfull := h.appendAll bytes
    cases limit? with
    | none =>
      have htrim : (bytes.foldl append b).trim? w = some (bytes.foldl append b) := trim?_of_none hfull.limit_eq
      simp [htrim]
    | some limit =>
      have hmax : max limit 1 < Overflow.modulus := Nat.max_lt.2 ⟨hword limit rfl, by decide⟩
      have hiff := hfull.indexed.trim?_eq_none_iff (w := w) hfull.limit_eq hmax
      rw [(appendAll_frame bytes b).2] at hiff
      simpa using hiff

/-- **What a buffer shows in 64 bits.**  As long as no command has broken, the buffer shows the lines of its bytes.
With a limit below 2 ^ 63 none ever does, and all goes as if there were no bound on numbers.  With any other limit it is
told for every command that may come next whether it breaks. -/
theorem run?_shows_lines (w : Overflow) (limit? : Option Nat) (cs : List Command) :
    (∀ b, run? w limit? cs = some b → b.ShowsLines) ∧
      ((∀ limit ∈ limit?, limit * 2 < Overflow.modulus) → run? w limit? cs = some (run limit? cs)) ∧
      ((∀ limit ∈ limit?, limit < Overflow.modulus) → ∀ b, run? w limit? cs = some b → ∀ c,
        (b.perform? w c = none ↔
          ∃ limit ∈ limit?, ∃ bytes ∈ c.bytes?, w.Breaks (max limit 1) (b.bytes.size + bytes.length))) :=
  ⟨fun _ hrun => (stays_of_run? hrun).indexed.showsLines,
    fun hsmall => Stays.performAll_eq hsmall cs (stays_fresh limit?),
    fun hword _ hrun => (stays_of_run? hrun).perform?_eq_none_iff hword⟩

/-- The lines that are left after a trim, from the second on, with the end of the window capped at the largest number of
64 bits; and a buffer that would break at its next byte, however it reckons. -/
theorem run?_shows_lines_trimmed :
    let cs : List Command := [.extend [97, 10, 98, 10, 99, 10, 10]]
    let b := run (some 3) cs
    let cap := Overflow.modulus - 1
    let large := some 9223372036854775808
    run? .checked (some 3) cs = some b ∧ b.bytes.toList = [99, 10, 10] ∧ b.lineStarts.toList = [0, 2, 3] ∧
      b.linesFrom .codePoints 1 (min (1 + cap) cap - 1) = b.window 1 cap .codePoints ∧
      (fresh large).perform? .checked (.push 97) = none ∧ (fresh large).perform? .wrapping (.push 97) = none := by
  intro cs b cap large
  have hrun : run? .checked (some 3) cs = some b :=
    (run?_shows_lines .checked (some 3) cs).2.1 (fun limit hmem => by obtain rfl := Option.some.inj hmem; decide)
  have hshows : b.ShowsLines := (run?_shows_lines .checked (some 3) cs).1 b hrun
  have hcap : b.lineCount ≤ cap := by decide +kernel
  have hword : ∀ limit ∈ large, limit < Overflow.modulus := by
    intro limit hmem
    obtain rfl := Option.some.inj hmem
    decide
  have hbreaks (w : Overflow) (hw : w.Breaks 9223372036854775808 1) : (fresh large).perform? w (.push 97) = none :=
    ((run?_shows_lines w large []).2.2 hword _ rfl (.push 97)).2 ⟨_, rfl, [97], rfl, hw⟩
  refine ⟨hrun, by decide +kernel, by decide +kernel, hshows.capped_eq 1 cap .codePoints cap hcap, ?_, ?_⟩
  · exact hbreaks .checked (Nat.le_refl _)
  · exact hbreaks .wrapping ⟨by decide, by decide⟩

/-- **A buffer that is to keep its last 2 ^ 63 bytes does not come through its first one**, in either build. -/
theorem run?_eq_none_of_large_limit :
    run? .checked (some 9223372036854775808) [.push 97] = none ∧
      run? .wrapping (some 9223372036854775808) [.push 97] = none := by
  decide +kernel

end OutputBuffer

end Brainfuck
