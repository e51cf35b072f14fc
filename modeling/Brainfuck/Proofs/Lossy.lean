import Mathlib.Algebra.Group.Nat.Defs
import Mathlib.Data.List.Basic
import Brainfuck.Text.Utf8
/-!
# What a lossy reading replaces

A character is spelled by the bytes of its UTF-8 encoding.  Reading goes from front to back: a spelling stands for its
character, and where none stands, the longest piece that begins one, or else one byte, becomes a single U+FFFD
(`Broken`, `Reads`).  That is what `lossy` computes, and the only text for which the rules hold (`reads_iff`).

`lossy` never looks ahead; it remembers what the bytes since the last full character allow to follow.  `Midway` says
what such a memory knows: which characters begin with these bytes, and which bytes keep it so.
-/
namespace Brainfuck.Text.Utf8

/-- Bytes with which the spelling of some character begins. -/
def Starts (piece : List UInt8) : Prop := ∃ c, piece <+: String.utf8EncodeChar c

/-- A piece at the front of some bytes that is no character and is replaced as a whole. -/
structure Broken (piece rest : List UInt8) : Prop where
  no_char : ∀ c, ¬ String.utf8EncodeChar c <+: piece ++ rest
  /-- It begins a character, or it is one byte. -/
  begins : piece ≠ [] ∧ Starts piece ∨ ∃ b, piece = [b]
  longest : ∀ longer, longer <+: piece ++ rest → Starts longer → longer.length ≤ piece.length

/-- The text that some bytes are read as. -/
inductive Reads : List UInt8 → List Char → Prop where
  | done : Reads [] []
  | char (c : Char) {rest : List UInt8} {text : List Char} (h : Reads rest text) :
      Reads (String.utf8EncodeChar c ++ rest) (c :: text)
  | broken {piece rest : List UInt8} {text : List Char} (hb : Broken piece rest) (h : Reads rest text) :
      Reads (piece ++ rest) (replacement :: text)

/-! ## How a character is spelled -/

/-- How many bytes follow the first one in the spelling of a code point. -/
def tailLength (v : Nat) : Nat := if v ≤ 0x7F then 0 else if v ≤ 0x7FF then 1 else if v ≤ 0xFFFF then 2 else 3

def firstByte (v : Nat) : Nat :=
  if v ≤ 0x7F then v
  else if v ≤ 0x7FF then 0xC0 + v / 64
  else if v ≤ 0xFFFF then 0xE0 + v / 4096
  else 0xF0 + v / 262144

/-- The last `k` bytes of the spelling of a code point that takes more than `k`: six bits each. -/
def lastBytes : Nat → Nat → List UInt8
  | 0, _ => []
  | k + 1, v => UInt8.ofNat (v / 64 ^ k % 64 + 128) :: lastBytes k v

theorem toNat_valid (c : Char) : c.toNat.isValidChar := c.valid

theorem utf8EncodeChar_eq (c : Char) :
    String.utf8EncodeChar c = UInt8.ofNat (firstByte c.toNat) :: lastBytes (tailLength c.toNat) c.toNat := by
  have hv := toNat_valid c
  unfold String.utf8EncodeChar firstByte tailLength
  rw [Char.toNat_val]
  generalize c.toNat = v at hv ⊢
  simp only
  split_ifs with h1 h2 h3
  · rfl
  · simp only [lastBytes, Nat.pow_zero, Nat.div_one]
    rw [show v / 64 % 32 + 192 = 192 + v / 64 by omega]
  · simp only [lastBytes, Nat.pow_zero, Nat.div_one, Nat.pow_one]
    rw [show v / 4096 % 16 + 224 = 224 + v / 4096 by omega]
  · simp only [lastBytes, Nat.pow_zero, Nat.div_one, Nat.pow_one, Nat.reducePow]
    rw [show v / 262144 % 8 + 240 = 240 + v / 262144 by omega]

/-- **The four forms of a spelling.**  All that is said about numbers below goes back to this. -/
theorem spelling_forms (v : Nat) :
    (v ≤ 0x7F ∧ tailLength v = 0 ∧ firstByte v = v) ∨
    (0x7F < v ∧ v ≤ 0x7FF ∧ tailLength v = 1 ∧ firstByte v = 0xC0 + v / 64) ∨
    (0x7FF < v ∧ v ≤ 0xFFFF ∧ tailLength v = 2 ∧ firstByte v = 0xE0 + v / 4096) ∨
    (0xFFFF < v ∧ tailLength v = 3 ∧ firstByte v = 0xF0 + v / 262144) := by
  unfold tailLength firstByte
  split_ifs <;> omega

theorem firstByte_lt (c : Char) : firstByte c.toNat < 256 := by
  have hv := toNat_valid c
  have := spelling_forms c.toNat
  unfold Nat.isValidChar at hv
  omega

theorem length_lastBytes : ∀ (k v : Nat), (lastBytes k v).length = k
  | 0, _ => rfl
  | k + 1, v => by rw [lastBytes, List.length_cons, length_lastBytes k v]

theorem length_utf8EncodeChar_eq (c : Char) : (String.utf8EncodeChar c).length = tailLength c.toNat + 1 := by
  rw [utf8EncodeChar_eq, List.length_cons, length_lastBytes]

theorem ge_of_mem_lastBytes {b : UInt8} {v : Nat} : ∀ {k : Nat}, b ∈ lastBytes k v → 128 ≤ b.toNat
  | k + 1, h => by
    rcases List.mem_cons.1 h with rfl | h
    · rw [UInt8.toNat_ofNat']
      omega
    · exact ge_of_mem_lastBytes h

theorem eq_of_spelling_begins {c c' : Char} (h : String.utf8EncodeChar c <+: String.utf8EncodeChar c') : c = c' := by
  obtain ⟨more, hmore⟩ := h
  have hc := ByteArray.utf8DecodeChar?_utf8EncodeChar_append (b := more.toByteArray) (c := c)
  have hc' := ByteArray.utf8DecodeChar?_utf8EncodeChar_append (b := ByteArray.empty) (c := c')
  rw [← List.toByteArray_append, hmore] at hc
  rw [ByteArray.append_empty, hc] at hc'
  exact Option.some.inj hc'

theorem singleton_begins_iff {b : UInt8} {c : Char} :
    [b] <+: String.utf8EncodeChar c ↔ b.toNat = firstByte c.toNat := by
  rw [utf8EncodeChar_eq, List.cons_prefix_cons, and_iff_left (List.nil_prefix), ← UInt8.toNat_inj,
    UInt8.toNat_ofNat_of_lt' (firstByte_lt c)]

/-- Code points that differ only in their last six bits, or in the last twelve of a spelling of four bytes, are all
characters or none, and take the same number of bytes. -/
theorem valid_of_div_eq {v v' k : Nat} (hv : v.isValidChar) (heq : v' / 64 ^ k = v / 64 ^ k)
    (hk : k = 0 ∨ k = 1 ∨ k = 2 ∧ tailLength v = 3) : v'.isValidChar ∧ tailLength v' = tailLength v := by
  have := spelling_forms v
  have := spelling_forms v'
  unfold Nat.isValidChar at hv ⊢
  rcases hk with rfl | rfl | ⟨rfl, hfour⟩
  all_goals
    simp only [Nat.reducePow] at heq
    omega

/-! ## In the middle of a character -/

/-- The least code point of which `value`, and the bits of the byte `b` after it, are the first; `owed` bytes were owed
before that one. -/
def leastCode (owed value b : Nat) : Nat := (value * 64 + b % 64) * 64 ^ (owed - 1)

theorem leastCode_div (owed value b : Nat) : leastCode owed value b / 64 ^ (owed - 1) = value * 64 + b % 64 :=
  Nat.mul_div_cancel _ (Nat.pow_pos (by decide))

/-- After `piece`, a character still owes some bytes, and `value` are the bits it has. -/
structure Begun (piece : List UInt8) (owed value : Nat) : Prop where
  nonempty : piece ≠ []
  owed_pos : 0 < owed
  begins_iff : ∀ c, piece <+: String.utf8EncodeChar c ↔
    tailLength c.toNat + 1 = piece.length + owed ∧ c.toNat / 64 ^ owed = value
  rest_eq : ∀ c, piece <+: String.utf8EncodeChar c → String.utf8EncodeChar c = piece ++ lastBytes owed c.toNat

namespace Begun

variable {piece : List UInt8} {owed value : Nat}

theorem concat_begins_iff (h : Begun piece owed value) (b : UInt8) (c : Char) :
    piece ++ [b] <+: String.utf8EncodeChar c ↔ (128 ≤ b.toNat ∧ b.toNat < 192) ∧
      tailLength c.toNat + 1 = piece.length + owed ∧ c.toNat / 64 ^ (owed - 1) = value * 64 + b.toNat % 64 := by
  obtain ⟨k, rfl⟩ : ∃ k, owed = k + 1 := ⟨owed - 1, by have := h.owed_pos; omega⟩
  have hdiv : c.toNat / 64 ^ (k + 1) = c.toNat / 64 ^ k / 64 := by rw [Nat.pow_succ, Nat.div_div_eq_div_mul]
  have hbyte : c.toNat / 64 ^ k % 64 + 128 < 256 := by omega
  have hnext : piece <+: String.utf8EncodeChar c →
      (piece ++ [b] <+: String.utf8EncodeChar c ↔ b.toNat = c.toNat / 64 ^ k % 64 + 128) := by
    intro hp
    rw [h.rest_eq c hp, List.prefix_append_right_inj, lastBytes, List.cons_prefix_cons,
      and_iff_left List.nil_prefix, ← UInt8.toNat_inj, UInt8.toNat_ofNat_of_lt' hbyte]
  rw [Nat.add_sub_cancel]
  constructor
  · intro hb
    have hp : piece <+: String.utf8EncodeChar c := (List.prefix_append _ _).trans hb
    have heq := (hnext hp).1 hb
    obtain ⟨hlen, hvalue⟩ := (h.begins_iff c).1 hp
    rw [hdiv] at hvalue
    exact ⟨by omega, hlen, by omega⟩
  · rintro ⟨hrange, hlen, hvalue⟩
    have hp : piece <+: String.utf8EncodeChar c := (h.begins_iff c).2 ⟨hlen, by rw [hdiv]; omega⟩
    exact (hnext hp).2 (by omega)

theorem concat_rest_eq (h : Begun piece owed value) {b : UInt8} {c : Char}
    (hc : piece ++ [b] <+: String.utf8EncodeChar c) :
    String.utf8EncodeChar c = piece ++ [b] ++ lastBytes (owed - 1) c.toNat := by
  obtain ⟨k, rfl⟩ : ∃ k, owed = k + 1 := ⟨owed - 1, by have := h.owed_pos; omega⟩
  have hrest := h.rest_eq c ((List.prefix_append _ _).trans hc)
  rw [lastBytes] at hrest
  rw [hrest, List.prefix_append_right_inj, List.cons_prefix_cons] at hc
  rw [hrest, Nat.add_sub_cancel, ← hc.1]
  simp

theorem concat (h : Begun piece owed value) (howed : 1 < owed) {b : UInt8}
    (hrange : 128 ≤ b.toNat ∧ b.toNat < 192) : Begun (piece ++ [b]) (owed - 1) (value * 64 + b.toNat % 64) where
  nonempty := by simp
  owed_pos := by omega
  begins_iff c := by
    have hlen : (piece ++ [b]).length + (owed - 1) = piece.length + owed := by
      rw [List.length_append, List.length_singleton]
      omega
    rw [h.concat_begins_iff, and_iff_right hrange, hlen]
  rest_eq c hc := h.concat_rest_eq hc

/-- **A byte goes on the piece** if it is in the middle range and the least code point that is then left is that of a
character; for all that are left are characters if one is. -/
theorem starts_concat_iff (h : Begun piece owed value) (b : UInt8) :
    Starts (piece ++ [b]) ↔ (128 ≤ b.toNat ∧ b.toNat < 192) ∧ (leastCode owed value b.toNat).isValidChar ∧
      tailLength (leastCode owed value b.toNat) + 1 = piece.length + owed := by
  have hleast := leastCode_div owed value b.toNat
  constructor
  · rintro ⟨c, hc⟩
    obtain ⟨hrange, hlen, hvalue⟩ := (h.concat_begins_iff b c).1 hc
    have hpos : 0 < piece.length := List.length_pos_iff.2 h.nonempty
    have := spelling_forms c.toNat
    obtain ⟨hvalid, htail⟩ := valid_of_div_eq (toNat_valid c) (hleast.trans hvalue.symm) (by omega)
    exact ⟨hrange, hvalid, by omega⟩
  · rintro ⟨hrange, hvalid, hlen⟩
    exact ⟨Char.ofNatAux _ hvalid, (h.concat_begins_iff b _).2 ⟨hrange, hlen, hleast⟩⟩

end Begun

/-- What is known when `u` is the unfinished character and `piece` was read of it. -/
structure Midway (piece : List UInt8) (u : Unfinished) : Prop extends Begun piece u.owed u.value where
  starts : Starts piece
  next_iff : ∀ b, u.low ≤ b ∧ b ≤ u.high ↔ Starts (piece ++ [b])

namespace Midway

variable {piece : List UInt8} {u : Unfinished} {b : UInt8}

/-- No character ends within the piece. -/
theorem not_spelled (h : Midway piece u) (c : Char) : ¬ String.utf8EncodeChar c <+: piece := by
  intro hc
  obtain ⟨c', hc'⟩ := h.starts
  obtain rfl := eq_of_spelling_begins (hc.trans hc')
  have hlen := ((h.begins_iff c).1 hc').1
  have hle := hc.length_le
  have := h.owed_pos
  rw [length_utf8EncodeChar_eq] at hle
  omega

theorem complete (h : Midway piece u) (howed : u.owed ≤ 1) (hb : Starts (piece ++ [b])) :
    String.utf8EncodeChar (Char.ofNat (u.value * 64 + b.toNat % 64)) = piece ++ [b] := by
  obtain ⟨c, hc⟩ := hb
  obtain ⟨-, -, hvalue⟩ := (h.concat_begins_iff b c).1 hc
  have hone : u.owed = 1 := by have := h.owed_pos; omega
  have hrest := h.concat_rest_eq hc
  rw [hone, Nat.sub_self, Nat.pow_zero, Nat.div_one] at hvalue
  rw [hone, Nat.sub_self, lastBytes, List.append_nil] at hrest
  rw [← hvalue, Char.ofNat_toNat, hrest]

/-- **An owed byte that is not the last leaves the character unfinished**, and then any byte of the middle range may
follow. -/
theorem advance (h : Midway piece u) (howed : 1 < u.owed) (hb : Starts (piece ++ [b])) :
    Midway (piece ++ [b]) ⟨u.owed - 1, 0x80, 0xBF, u.value * 64 + b.toNat % 64⟩ := by
  obtain ⟨c, hc⟩ := hb
  obtain ⟨hrange, hlen, hvalue⟩ := (h.concat_begins_iff b c).1 hc
  have hbegun := h.concat howed hrange
  refine ⟨hbegun, ⟨c, hc⟩, fun d => ?_⟩
  rw [UInt8.le_iff_toNat_le, UInt8.le_iff_toNat_le, hbegun.starts_concat_iff]
  show (128 ≤ d.toNat ∧ d.toNat ≤ 191) ↔ _
  refine ⟨fun hd => ?_, fun hd => by omega⟩
  -- the code point that is left for `d` differs from that of `c` in bits that come later
  have hleast : leastCode (u.owed - 1) (u.value * 64 + b.toNat % 64) d.toNat / 64 ^ (u.owed - 1) =
      c.toNat / 64 ^ (u.owed - 1) := by
    have hpow : 64 ^ (u.owed - 1) = 64 ^ (u.owed - 1 - 1) * 64 := by
      rw [← Nat.pow_succ]
      congr 1
      omega
    rw [hvalue, hpow, ← Nat.div_div_eq_div_mul, leastCode_div]
    omega
  have hpos : 0 < piece.length := List.length_pos_iff.2 h.nonempty
  have := spelling_forms c.toNat
  obtain ⟨hvalid, htail⟩ := valid_of_div_eq (toNat_valid c) hleast (by omega)
  rw [htail, List.length_append, List.length_singleton]
  exact ⟨by omega, hvalid, by omega⟩

end Midway

/-- A first byte starts a character if the numbers fit: those of the characters it begins, and those of the bytes that
may follow. -/
theorem midway_singleton {b low high : UInt8} {owed value : Nat} (hpos : 0 < owed)
    (hfirst : ∀ v, v.isValidChar → (b.toNat = firstByte v ↔ tailLength v = owed ∧ v / 64 ^ owed = value))
    (hrange : 128 ≤ low.toNat ∧ low.toNat ≤ high.toNat ∧ high.toNat < 192)
    (hnext : ∀ d, 128 ≤ d → d < 192 → (low.toNat ≤ d ∧ d ≤ high.toNat ↔
      (leastCode owed value d).isValidChar ∧ tailLength (leastCode owed value d) = owed)) :
    Midway [b] ⟨owed, low, high, value⟩ := by
  have hbegun : Begun [b] owed value := by
    refine ⟨by simp, hpos, fun c => ?_, fun c hc => ?_⟩
    · rw [singleton_begins_iff, hfirst _ (toNat_valid c), List.length_singleton]
      exact and_congr_left' (by omega)
    · have hb := singleton_begins_iff.1 hc
      rw [utf8EncodeChar_eq, ((hfirst _ (toNat_valid c)).1 hb).1, ← hb, UInt8.ofNat_toNat]
      rfl
  have hstarts : ∀ d, low ≤ d ∧ d ≤ high ↔ Starts ([b] ++ [d]) := by
    intro d
    have hd := hnext d.toNat
    rw [UInt8.le_iff_toNat_le, UInt8.le_iff_toNat_le, hbegun.starts_concat_iff, List.length_singleton]
    constructor
    · intro hin
      obtain ⟨hvalid, htail⟩ := (hd (by omega) (by omega)).1 hin
      exact ⟨by omega, hvalid, by omega⟩
    · rintro ⟨hin, hvalid, htail⟩
      exact (hd hin.1 hin.2).2 ⟨hvalid, by omega⟩
  obtain ⟨c, hc⟩ := (hstarts low).1 ⟨UInt8.le_refl _, UInt8.le_iff_toNat_le.2 hrange.2.1⟩
  exact ⟨hbegun, ⟨c, (List.prefix_append _ _).trans hc⟩, hstarts⟩

theorem midway_of_two {b : UInt8} (hb : 0xC2 ≤ b.toNat ∧ b.toNat < 0xE0) : Midway [b] ⟨1, 0x80, 0xBF, b.toNat % 32⟩ := by
  refine midway_singleton (by decide) (fun v hv => ?_) (by decide) (fun d hd hd' => ?_)
  · have := spelling_forms v
    unfold Nat.isValidChar at hv
    omega
  · have := spelling_forms (leastCode 1 (b.toNat % 32) d)
    have hleast : leastCode 1 (b.toNat % 32) d = (b.toNat % 32 * 64 + d % 64) * 1 := rfl
    show (128 ≤ d ∧ d ≤ 191) ↔ _
    rw [Nat.isValidChar]
    omega

theorem midway_of_three {b low high : UInt8} {value : Nat} (hb : 0xE0 ≤ b.toNat ∧ b.toNat < 0xF0)
    (hvalue : value = b.toNat % 16) (hrange : 128 ≤ low.toNat ∧ low.toNat ≤ high.toNat ∧ high.toNat < 192)
    (hnext : ∀ d, 128 ≤ d → d < 192 → (low.toNat ≤ d ∧ d ≤ high.toNat ↔
      0x7FF < (value * 64 + d % 64) * 64 ∧
        ((value * 64 + d % 64) * 64 < 0xD800 ∨ 0xDFFF < (value * 64 + d % 64) * 64))) :
    Midway [b] ⟨2, low, high, value⟩ := by
  refine midway_singleton (by decide) (fun v hv => ?_) hrange (fun d hd hd' => ?_)
  · have := spelling_forms v
    unfold Nat.isValidChar at hv
    omega
  · have := spelling_forms (leastCode 2 value d)
    have hleast : leastCode 2 value d = (value * 64 + d % 64) * 64 := rfl
    rw [hnext d hd hd', Nat.isValidChar]
    omega

theorem midway_of_four {b low high : UInt8} {value : Nat} (hb : 0xF0 ≤ b.toNat ∧ b.toNat < 0xF5)
    (hvalue : value = b.toNat % 8) (hrange : 128 ≤ low.toNat ∧ low.toNat ≤ high.toNat ∧ high.toNat < 192)
    (hnext : ∀ d, 128 ≤ d → d < 192 → (low.toNat ≤ d ∧ d ≤ high.toNat ↔
      0xFFFF < (value * 64 + d % 64) * 4096 ∧ (value * 64 + d % 64) * 4096 < 0x110000)) :
    Midway [b] ⟨3, low, high, value⟩ := by
  refine midway_singleton (by decide) (fun v hv => ?_) hrange (fun d hd hd' => ?_)
  · have := spelling_forms v
    unfold Nat.isValidChar at hv
    omega
  · have := spelling_forms (leastCode 3 value d)
    have hleast : leastCode 3 value d = (value * 64 + d % 64) * 4096 := rfl
    rw [hnext d hd hd', Nat.isValidChar]
    omega

theorem spelling_of_lt {b : UInt8} (h : b.toNat < 0x80) : String.utf8EncodeChar (Char.ofNat b.toNat) = [b] := by
  have hvalid : b.toNat.isValidChar := .inl (by omega)
  have hcode : (Char.ofNat b.toNat).toNat = b.toNat := by
    rw [Char.ofNat, dif_pos hvalid]
    rfl
  rw [utf8EncodeChar_eq, hcode, firstByte, if_pos (by omega), tailLength, if_pos (by omega), UInt8.ofNat_toNat]
  rfl

theorem not_starts_singleton {b : UInt8} (h : 0x80 ≤ b.toNat ∧ b.toNat < 0xC2 ∨ 0xF4 < b.toNat) : ¬ Starts [b] := by
  rintro ⟨c, hc⟩
  have hv := toNat_valid c
  have hb := singleton_begins_iff.1 hc
  have := spelling_forms c.toNat
  unfold Nat.isValidChar at hv
  omega

/-- What it takes for a first byte to mean this. -/
def Lead.Fits (b : UInt8) : Lead → Prop
  | .whole c => String.utf8EncodeChar c = [b]
  | .unfinished u => Midway [b] u
  | .invalid => ¬ Starts [b]

/-- **A first byte means what it says.** -/
theorem lead_fits (b : UInt8) : (lead b).Fits b := by
  simp only [lead]
  by_cases h₁ : b.toNat < 0x80
  · rw [if_pos h₁]
    exact spelling_of_lt h₁
  rw [if_neg h₁]
  by_cases h₂ : b.toNat < 0xC2
  · rw [if_pos h₂]
    exact not_starts_singleton (by omega)
  rw [if_neg h₂]
  by_cases h₃ : b.toNat < 0xE0
  · rw [if_pos h₃]
    exact midway_of_two (by omega)
  rw [if_neg h₃]
  by_cases h₄ : b.toNat = 0xE0
  · rw [if_pos h₄]
    exact midway_of_three (by omega) (by omega) (by decide) (fun d hd hd' => by simp; omega)
  rw [if_neg h₄]
  by_cases h₅ : b.toNat = 0xED
  · rw [if_pos h₅]
    exact midway_of_three (by omega) (by omega) (by decide) (fun d hd hd' => by simp; omega)
  rw [if_neg h₅]
  by_cases h₆ : b.toNat < 0xF0
  · rw [if_pos h₆]
    exact midway_of_three (by omega) rfl (by decide) (fun d hd hd' => by simp; omega)
  rw [if_neg h₆]
  by_cases h₇ : b.toNat = 0xF0
  · rw [if_pos h₇]
    exact midway_of_four (by omega) (by omega) (by decide) (fun d hd hd' => by simp; omega)
  rw [if_neg h₇]
  by_cases h₈ : b.toNat < 0xF4
  · rw [if_pos h₈]
    exact midway_of_four (by omega) rfl (by decide) (fun d hd hd' => by simp; omega)
  rw [if_neg h₈]
  by_cases h₉ : b.toNat = 0xF4
  · rw [if_pos h₉]
    exact midway_of_four (by omega) (by omega) (by decide) (fun d hd hd' => by simp; omega)
  rw [if_neg h₉]
  exact not_starts_singleton (by omega)

/-! ## Every piece is as long as it can be -/

/-- If the byte after a piece does not go on a character, none of the starts there is longer. -/
theorem length_le_of_starts {piece rest longer : List UInt8} (hnext : ∀ b ∈ rest.head?, ¬ Starts (piece ++ [b]))
    (h : longer <+: piece ++ rest) (hs : Starts longer) : longer.length ≤ piece.length := by
  by_contra hlt
  cases rest with
  | nil =>
    have := h.length_le
    simp at this
    omega
  | cons b rest =>
    have hshort : piece ++ [b] <+: piece ++ b :: rest := by simp
    have hmore : piece ++ [b] <+: longer := List.prefix_of_prefix_length_le hshort h (by simp; omega)
    obtain ⟨c, hc⟩ := hs
    exact hnext b rfl ⟨c, hmore.trans hc⟩

theorem broken_of_invalid {b : UInt8} (h : ¬ Starts [b]) (rest : List UInt8) : Broken [b] rest := by
  have hnext : ∀ d ∈ (b :: rest).head?, ¬ Starts ([] ++ [d]) := by simpa using h
  have hnone : ∀ longer, longer <+: [b] ++ rest → Starts longer → longer.length ≤ 0 :=
    fun longer hl hs => length_le_of_starts hnext hl hs
  refine ⟨fun c hc => ?_, .inr ⟨b, rfl⟩, fun longer hl hs => ?_⟩
  · have := hnone _ hc ⟨c, List.prefix_refl _⟩
    rw [length_utf8EncodeChar_eq] at this
    omega
  · have := hnone longer hl hs
    simp
    omega

theorem Midway.broken {piece rest : List UInt8} {u : Unfinished} (h : Midway piece u)
    (hnext : ∀ b ∈ rest.head?, ¬ Starts (piece ++ [b])) : Broken piece rest := by
  refine ⟨fun c hc => ?_, .inl ⟨h.nonempty, h.starts⟩, fun longer hl hs => length_le_of_starts hnext hl hs⟩
  have hle := length_le_of_starts hnext hc ⟨c, List.prefix_refl _⟩
  exact h.not_spelled c (List.prefix_of_prefix_length_le hc (List.prefix_append _ _) hle)

/-! ## What is read -/

theorem push_append (text : String) (c : Char) (more : List Char) :
    text.push c ++ String.ofList more = text ++ String.ofList (c :: more) := by
  rw [← String.toList_inj]
  simp

/-- **The rules hold of what is read**, from between two characters and from the middle of one.  A byte that breaks a
character off is read again where one may begin, so the second part uses the first for the same bytes. -/
theorem finish_reads : ∀ (bytes : List UInt8),
    (∀ text, ∃ more, (bytes.foldl Reading.step ⟨text, none⟩).finish = text ++ String.ofList more ∧ Reads bytes more) ∧
    ∀ text piece u, Midway piece u → ∃ more,
      (bytes.foldl Reading.step ⟨text, some u⟩).finish = text ++ String.ofList more ∧ Reads (piece ++ bytes) more
  | [] => by
    refine ⟨fun text => ⟨[], by simp [Reading.finish], .done⟩, fun text piece u h => ?_⟩
    refine ⟨[replacement], ?_, .broken (h.broken (by simp)) .done⟩
    rw [← push_append]
    simp [Reading.finish]
  | b :: rest => by
    obtain ⟨ihnone, ihsome⟩ := finish_reads rest
    have hnone : ∀ text, ∃ more, ((b :: rest).foldl Reading.step ⟨text, none⟩).finish = text ++ String.ofList more ∧
        Reads (b :: rest) more := by
      intro text
      rw [List.foldl_cons]
      show ∃ more, (rest.foldl Reading.step (Reading.begin text b)).finish = _ ∧ _
      have hfits := lead_fits b
      unfold Reading.begin
      generalize lead b = l at hfits ⊢
      cases l with
      | whole c =>
        obtain ⟨more, hmore, hreads⟩ := ihnone (text.push c)
        have hspelled : String.utf8EncodeChar c = [b] := hfits
        have hchar := Reads.char c hreads
        rw [hspelled] at hchar
        exact ⟨c :: more, by rw [hmore, push_append], hchar⟩
      | unfinished u => exact ihsome text [b] u hfits
      | invalid =>
        obtain ⟨more, hmore, hreads⟩ := ihnone (text.push replacement)
        exact ⟨replacement :: more, by rw [hmore, push_append], .broken (broken_of_invalid hfits rest) hreads⟩
    refine ⟨hnone, fun text piece u h => ?_⟩
    by_cases hb : u.low ≤ b ∧ b ≤ u.high
    · have hs := (h.next_iff b).1 hb
      rw [List.foldl_cons, Reading.step]
      simp only [hb, and_self, if_true]
      rw [List.append_cons]
      by_cases howed : u.owed ≤ 1
      · obtain ⟨more, hmore, hreads⟩ := ihnone (text.push (Char.ofNat (u.value * 64 + b.toNat % 64)))
        rw [if_pos howed]
        refine ⟨_, hmore.trans (push_append _ _ _), ?_⟩
        rw [← h.complete howed hs]
        exact .char _ hreads
      · rw [if_neg howed]
        exact ihsome text _ _ (h.advance (by omega) hs)
    · obtain ⟨more, hmore, hreads⟩ := hnone (text.push replacement)
      refine ⟨replacement :: more, ?_, .broken (h.broken ?_) hreads⟩
      · rw [← push_append, ← hmore, List.foldl_cons, List.foldl_cons]
        simp only [Reading.step, if_neg hb]
      · rintro _ ⟨⟩ hs
        exact hb ((h.next_iff b).2 hs)

theorem reads_lossy (bytes : List UInt8) : Reads bytes (lossy bytes).toList := by
  obtain ⟨more, hmore, hreads⟩ := (finish_reads bytes).1 ""
  have hlossy : lossy bytes = "" ++ String.ofList more := hmore
  rw [hlossy]
  simpa using hreads

/-! ## There is one reading -/

theorem Broken.ne_nil {piece rest : List UInt8} (h : Broken piece rest) : piece ≠ [] := by
  rcases h.begins with ⟨hne, -⟩ | ⟨b, rfl⟩
  · exact hne
  · simp

theorem Broken.length_le {piece rest piece' rest' : List UInt8} (h : Broken piece rest) (h' : Broken piece' rest')
    (heq : piece ++ rest = piece' ++ rest') : piece'.length ≤ piece.length := by
  rcases h'.begins with ⟨-, hs⟩ | ⟨b, rfl⟩
  · exact h.longest piece' (heq ▸ List.prefix_append _ _) hs
  · exact List.length_pos_iff.2 h.ne_nil

theorem Reads.unique {bytes : List UInt8} {text : List Char} (h : Reads bytes text) :
    ∀ {text' : List Char}, Reads bytes text' → text = text' := by
  induction h with
  | done =>
    intro text' h'
    generalize hbytes : [] = bytes at h'
    cases h' with
    | done => rfl
    | char c h' => exact absurd (List.append_eq_nil_iff.1 hbytes.symm).1 String.utf8EncodeChar_ne_nil
    | broken hb h' => exact absurd (List.append_eq_nil_iff.1 hbytes.symm).1 hb.ne_nil
  | @char c rest text h ih =>
    intro text' h'
    generalize hbytes : String.utf8EncodeChar c ++ rest = bytes at h'
    cases h' with
    | done => exact absurd (List.append_eq_nil_iff.1 hbytes).1 String.utf8EncodeChar_ne_nil
    | @char c' rest' text' h' =>
      have hc : c = c' := by
        rcases List.prefix_or_prefix_of_prefix (hbytes ▸ List.prefix_append _ rest) (List.prefix_append _ rest')
          with hle | hle
        · exact eq_of_spelling_begins hle
        · exact (eq_of_spelling_begins hle).symm
      subst hc
      obtain rfl := List.append_cancel_left hbytes
      rw [ih h']
    | broken hb h' => exact absurd (hbytes ▸ List.prefix_append _ rest) (hb.no_char c)
  | @broken piece rest text hb h ih =>
    intro text' h'
    generalize hbytes : piece ++ rest = bytes at h'
    cases h' with
    | done => exact absurd (List.append_eq_nil_iff.1 hbytes).1 hb.ne_nil
    | @char c' rest' text' h' => exact absurd (hbytes ▸ List.prefix_append _ rest') (hb.no_char c')
    | @broken piece' rest' text' hb' h' =>
      have hlen := Nat.le_antisymm (hb'.length_le hb hbytes.symm) (hb.length_le hb' hbytes)
      obtain ⟨rfl, rfl⟩ := List.append_inj hbytes hlen
      rw [ih h']

/-- **The text that `lossy` gives is the one that the rules allow.** -/
theorem reads_iff {bytes : List UInt8} {text : List Char} : Reads bytes text ↔ text = (lossy bytes).toList :=
  ⟨fun h => h.unique (reads_lossy bytes), fun h => h ▸ reads_lossy bytes⟩

/-! ## Newlines -/

theorem eq_of_newline_mem {c : Char} (h : 10 ∈ String.utf8EncodeChar c) : String.utf8EncodeChar c = [10] := by
  rw [utf8EncodeChar_eq] at h ⊢
  rcases List.mem_cons.1 h with hfirst | hlast
  · have hten := congrArg UInt8.toNat hfirst
    rw [UInt8.toNat_ofNat_of_lt' (firstByte_lt c)] at hten
    have hforms := spelling_forms c.toNat
    have hsmall : c.toNat = 10 := by
      rw [← hten] at hforms
      simp at hforms
      omega
    rw [hsmall]
    rfl
  · exact absurd (ge_of_mem_lastBytes hlast) (by decide)

theorem not_starts_newline {xs : List UInt8} (h : xs ≠ []) : ¬ Starts (xs ++ [10]) := by
  rintro ⟨c, hc⟩
  have hone := eq_of_newline_mem (hc.subset (by simp))
  have hle := hc.length_le
  have hpos := List.length_pos_iff.2 h
  rw [hone, List.length_append, List.length_singleton] at hle
  omega

/-- A newline breaks a piece off in the same place as the end of the bytes. -/
theorem Broken.newline {piece rest : List UInt8} (h : Broken piece rest) (more : List UInt8) :
    Broken piece (rest ++ 10 :: more) := by
  have hne : piece ++ rest ≠ [] := List.append_ne_nil_of_left_ne_nil h.ne_nil rest
  have hbegins : ∀ longer, longer <+: piece ++ (rest ++ 10 :: more) → Starts longer → longer <+: piece ++ rest := by
    intro longer hl hs
    rw [← List.append_assoc] at hl
    have hle : longer.length ≤ (piece ++ rest).length := length_le_of_starts (by simpa using not_starts_newline hne) hl hs
    exact List.prefix_of_prefix_length_le hl (List.prefix_append _ _) hle
  refine ⟨fun c hc => ?_, h.begins, fun longer hl hs => h.longest longer (hbegins longer hl hs) hs⟩
  exact h.no_char c (hbegins _ hc ⟨c, List.prefix_refl _⟩)

theorem Reads.newline {xs ys : List UInt8} {s t : List Char} (hx : Reads xs s) (hy : Reads ys t) :
    Reads (xs ++ 10 :: ys) (s ++ '\n' :: t) := by
  induction hx with
  | done => exact .char '\n' hy
  | char c _ ih =>
    rw [List.append_assoc]
    exact .char c ih
  | broken hb _ ih =>
    rw [List.append_assoc]
    exact .broken (hb.newline ys) ih

/-- **A newline is read as itself, and what stands on both sides of it as if it stood alone.** -/
theorem lossy_newline (xs ys : List UInt8) : lossy (xs ++ 10 :: ys) = lossy xs ++ "\n" ++ lossy ys := by
  rw [← String.toList_inj, ← reads_iff.1 ((reads_lossy xs).newline (reads_lossy ys))]
  simp

end Brainfuck.Text.Utf8
