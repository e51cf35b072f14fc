import Brainfuck.Tape
/-!
# The tape without an end

An ideal tape has a cell for every number, all zero at first, and bytes that count modulo 256; a bound says how far its
pointer may go.  A tape keeps finitely many cells and grows.  Read as zero where it has no cell (`Tape.content`), it
does to every command what the ideal tape does (`Tape.ideal_perform`), so no sequence of commands tells the two apart
(`Tape.new_run_eq_ideal`).
-/
namespace Brainfuck

structure IdealTape where
  cells : Nat → UInt8
  pointer : Nat
  /-- The largest pointer so far. -/
  highWater : Nat

namespace Tape

/-- What can be done to a tape. -/
inductive Command where
  | right
  | left
  | increment
  | decrement
  | set (value : UInt8)
  deriving DecidableEq, Repr

/-- The tape after a move that was tried; if it was refused, the fault, and the tape as it was. -/
def settle (t : Tape) : Except TapeFault Tape → Option TapeFault × Tape
  | .ok moved => (none, moved)
  | .error fault => (some fault, t)

/-- What a command does: the fault if it was refused, and the tape after it. -/
def perform (t : Tape) : Command → Option TapeFault × Tape
  | .right => t.settle t.moveRight
  | .left => t.settle t.moveLeft
  | .increment => (none, t.increment)
  | .decrement => (none, t.decrement)
  | .set value => (none, t.set value)

/-- What some commands do, one after the other: what came of each, and the tape after them. -/
def run (t : Tape) : List Command → List (Option TapeFault) × Tape
  | [] => ([], t)
  | c :: cs => ((t.perform c).1 :: ((t.perform c).2.run cs).1, ((t.perform c).2.run cs).2)

end Tape

namespace IdealTape

/-- The ideal tape before any command. -/
def blank : IdealTape := ⟨fun _ => 0, 0, 0⟩

/-- How many cells a policy permits, if it bounds them. -/
def bound : TapePolicy → Option Nat
  | .growable _ none => none
  | .growable _ (some most) => some (max 1 most)
  | .fixed cells => some (max 1 cells)

def get (s : IdealTape) : UInt8 := s.cells s.pointer

/-- Puts a number, modulo 256, into the current cell. -/
def write (s : IdealTape) (value : Nat) : IdealTape :=
  { s with cells := fun i => if i = s.pointer then UInt8.ofNat (value % 256) else s.cells i }

def goTo (s : IdealTape) (pointer : Nat) : IdealTape := { s with pointer, highWater := max s.highWater pointer }

/-- What a command does to an ideal tape whose pointer is bounded so. -/
def perform (bound : Option Nat) (s : IdealTape) : Tape.Command → Option TapeFault × IdealTape
  | .right =>
    match bound with
    | none => (none, s.goTo (s.pointer + 1))
    | some most => if most ≤ s.pointer + 1 then (some (.overflow most), s) else (none, s.goTo (s.pointer + 1))
  | .left => if s.pointer = 0 then (some .underflow, s) else (none, s.goTo (s.pointer - 1))
  | .increment => (none, s.write (s.get.toNat + 1))
  | .decrement => (none, s.write (s.get.toNat + 255))
  | .set value => (none, s.write value.toNat)

def run (bound : Option Nat) (s : IdealTape) : List Tape.Command → List (Option TapeFault) × IdealTape
  | [] => ([], s)
  | c :: cs =>
    ((s.perform bound c).1 :: ((s.perform bound c).2.run bound cs).1, ((s.perform bound c).2.run bound cs).2)

/-- The cells from 0 to the furthest one reached. -/
def touched (s : IdealTape) : List UInt8 := (List.range (s.highWater + 1)).map s.cells

end IdealTape

namespace Tape

variable {t : Tape} {policy : TapePolicy} {c : Command}

/-! ## A tape as an ideal one -/

/-- The value of every cell, also of those that the tape does not have yet. -/
def content (t : Tape) : Nat → UInt8 := fun i => t.cells[i]?.getD 0

def ideal (t : Tape) : IdealTape := ⟨t.content, t.pointer, t.highWater⟩

theorem ideal_new (policy : TapePolicy) : (new policy).ideal = .blank := by
  have hcells : (new policy).content = fun _ => 0 := by
    funext i
    simp only [content, new, Array.getElem?_replicate]
    split <;> rfl
  rw [ideal, hcells]
  rfl

theorem limit_new (policy : TapePolicy) : (new policy).limit = IdealTape.bound policy := by
  cases policy with
  | growable initial most => cases most <;> simp [new, TapePolicy.limit, IdealTape.bound, Nat.max_comm]
  | fixed cells => simp [new, TapePolicy.limit, IdealTape.bound, Nat.max_comm]

theorem content_pointer (t : Tape) : t.content t.pointer = t.get := by
  have h := t.pointer_lt
  simp [content, get, h]

theorem content_set (t : Tape) (value : UInt8) :
    (t.set value).content = fun i => if i = t.pointer then value else t.content i := by
  funext i
  have h := t.pointer_lt
  simp only [content, set, Array.getElem?_set]
  by_cases hi : i = t.pointer
  · simp [hi]
  · simp [hi, Ne.symm hi]

/-- Cells that are added are zero, as they were taken to be before. -/
theorem getD_reach (cells : Array UInt8) (limit : Option Nat) (index i : Nat) :
    (reach cells limit index)[i]?.getD 0 = cells[i]?.getD 0 := by
  unfold reach
  split
  · rfl
  · by_cases hi : i < cells.size
    · rw [Array.getElem?_append_left hi]
    · have hnone : cells[i]? = none := Array.getElem?_eq_none (by omega)
      rw [Array.getElem?_append_right (by omega), Array.getElem?_replicate, hnone]
      split <;> rfl

theorem ideal_set (t : Tape) (value : UInt8) {n : Nat} (h : UInt8.ofNat (n % 256) = value) :
    (t.set value).ideal = t.ideal.write n := by
  have hcells := content_set t value
  rw [ideal, hcells, IdealTape.write, h]
  rfl

theorem ideal_advance (t : Tape) (h : permits t.limit (t.pointer + 1)) :
    (t.advance h).ideal = t.ideal.goTo (t.pointer + 1) := by
  have hcells : (t.advance h).content = t.content := by
    funext i
    exact getD_reach t.cells t.limit (t.pointer + 1) i
  rw [ideal, hcells]
  rfl

/-! ## What a command can do -/

/-- The tape with the pointer one cell further left, or as it was if there is none. -/
def retreat (t : Tape) : Tape :=
  { t with pointer := t.pointer - 1, pointer_le := Nat.le_trans (Nat.sub_le _ _) t.pointer_le }

/-- All that a command can do to a tape. -/
inductive Does (t : Tape) : Command → Option TapeFault × Tape → Prop where
  | overflow {most : Nat} (hl : t.limit = some most) (hle : most ≤ t.pointer + 1) :
      Does t .right (some (.overflow most), t)
  | advance (hp : permits t.limit (t.pointer + 1)) : Does t .right (none, t.advance hp)
  | underflow (hz : t.pointer = 0) : Does t .left (some .underflow, t)
  | retreat (hz : t.pointer ≠ 0) : Does t .left (none, t.retreat)
  | increment : Does t .increment (none, t.set (t.get + 1))
  | decrement : Does t .decrement (none, t.set (t.get - 1))
  | set (value : UInt8) : Does t (.set value) (none, t.set value)

theorem does_right (t : Tape) : t.Does .right (t.settle t.moveRight) := by
  unfold moveRight
  split
  · exact .advance _
  · rename_i most hl
    by_cases h : t.pointer + 1 < most
    · rw [dif_pos h]
      exact .advance _
    · rw [dif_neg h]
      exact .overflow hl (by omega)

theorem does_left (t : Tape) : t.Does .left (t.settle t.moveLeft) := by
  obtain ⟨cells, pointer, limit, highWater, hp, hw⟩ := t
  cases pointer with
  | zero => exact .underflow rfl
  | succ left => exact .retreat (Nat.succ_ne_zero left)

theorem perform_does (t : Tape) (c : Command) : t.Does c (t.perform c) := by
  cases c with
  | right => exact does_right t
  | left => exact does_left t
  | increment => exact .increment
  | decrement => exact .decrement
  | set value => exact .set value

theorem ideal_get (t : Tape) : t.ideal.get = t.get := content_pointer t

/-- **A command does to a tape what it does to the ideal tape**: it is refused alike, and leads to the same. -/
theorem ideal_perform (t : Tape) (c : Command) :
    t.ideal.perform t.limit c = ((t.perform c).1, (t.perform c).2.ideal) := by
  have hdoes := perform_does t c
  generalize t.perform c = after at hdoes
  cases hdoes with
  | overflow hl hle =>
    rw [hl]
    exact if_pos hle
  | advance hp =>
    rw [ideal_advance]
    cases hl : t.limit with
    | none => rfl
    | some most =>
      rw [hl] at hp
      exact if_neg (Nat.not_le.2 hp)
  | underflow hz => exact if_pos hz
  | retreat hz =>
    have hmax : max t.highWater (t.pointer - 1) = t.highWater := by
      have hle := t.pointer_le
      omega
    have hideal : t.retreat.ideal = t.ideal.goTo (t.pointer - 1) := by
      show _ = IdealTape.mk t.content (t.pointer - 1) (max t.highWater (t.pointer - 1))
      rw [hmax]
      rfl
    rw [hideal]
    exact if_neg hz
  | increment =>
    refine congrArg (Prod.mk none) (ideal_set t (t.get + 1) ?_).symm
    rw [ideal_get]
    apply UInt8.toNat_inj.1
    simp
  | decrement =>
    refine congrArg (Prod.mk none) (ideal_set t (t.get - 1) ?_).symm
    rw [ideal_get]
    apply UInt8.toNat_inj.1
    simp [UInt8.toNat_sub, Nat.add_comm]
  | set value =>
    refine congrArg (Prod.mk none) (ideal_set t value ?_).symm
    apply UInt8.toNat_inj.1
    simp

/-! ## What a tape keeps to -/

/-- The cells of a tape under a policy: enough for the pointer, none beyond the bound, and zero where the pointer has
not been. -/
structure Sound (policy : TapePolicy) (t : Tape) : Prop where
  pointer_le : t.pointer ≤ t.highWater
  highWater_lt : t.highWater < t.size
  limit_eq : t.limit = IdealTape.bound policy
  size_le : ∀ most, IdealTape.bound policy = some most → t.size ≤ most
  initial_le : policy.initialCells ≤ t.size
  zero_above : ∀ i, t.highWater < i → i < t.size → t.cells[i]? = some 0

theorem initialCells_le {most : Nat} (h : IdealTape.bound policy = some most) : policy.initialCells ≤ most := by
  cases policy with
  | growable initial max? =>
    cases max? with
    | none => cases h
    | some m =>
      cases h
      simp only [TapePolicy.initialCells]
      omega
  | fixed cells =>
    cases h
    simp only [TapePolicy.initialCells]
    omega

theorem sound_new (policy : TapePolicy) : (new policy).Sound policy := by
  have hsize : (new policy).size = policy.initialCells := Array.size_replicate
  refine ⟨Nat.le_refl 0, (new policy).highWater_lt, limit_new policy, ?_, Nat.le_of_eq hsize.symm, ?_⟩
  · intro most hb
    rw [hsize]
    exact initialCells_le hb
  · intro i _ hi
    rw [hsize] at hi
    simp only [new, Array.getElem?_replicate]
    exact if_pos hi

theorem Sound.set (h : t.Sound policy) (value : UInt8) : (t.set value).Sound policy := by
  have hsize : (t.set value).size = t.size := Array.size_set t.pointer_lt
  refine ⟨h.pointer_le, (t.set value).highWater_lt, h.limit_eq, ?_, ?_, ?_⟩
  · rw [hsize]
    exact h.size_le
  · rw [hsize]
    exact h.initial_le
  · intro i hi hlt
    have hne : t.pointer ≠ i := Nat.ne_of_lt (Nat.lt_of_le_of_lt h.pointer_le hi)
    rw [hsize] at hlt
    simp only [Tape.set, Array.getElem?_set, hne, if_false]
    exact h.zero_above i hi hlt

theorem size_reach_le {cells : Array UInt8} {most index : Nat} (h : cells.size ≤ most) :
    (reach cells (some most) index).size ≤ most := by
  unfold reach
  split
  · exact h
  · rw [Array.size_append, Array.size_replicate, grownSize]
    omega

theorem Sound.advance (h : t.Sound policy) (hp : permits t.limit (t.pointer + 1)) : (t.advance hp).Sound policy := by
  have hcells : (t.advance hp).cells = reach t.cells t.limit (t.pointer + 1) := rfl
  have hgrows := size_le_size_reach t.cells t.limit (t.pointer + 1)
  refine ⟨(t.advance hp).pointer_le, (t.advance hp).highWater_lt, h.limit_eq, ?_, Nat.le_trans h.initial_le hgrows, ?_⟩
  · intro most hb
    have hl : t.limit = some most := h.limit_eq.trans hb
    rw [size, hcells, hl]
    exact size_reach_le (h.size_le most hb)
  · intro i hi hlt
    have hhigh : t.highWater < i := Nat.lt_of_le_of_lt (Nat.le_max_left _ _) hi
    have hold : t.cells[i]?.getD 0 = 0 := by
      by_cases hi : i < t.size
      · rw [h.zero_above i hhigh hi]
        rfl
      · rw [Array.getElem?_eq_none (Nat.le_of_not_lt hi)]
        rfl
    have hnew := getD_reach t.cells t.limit (t.pointer + 1) i
    rw [hold, ← hcells, Array.getElem?_eq_getElem hlt] at hnew
    rw [Array.getElem?_eq_getElem hlt]
    exact congrArg some hnew

theorem Sound.perform (h : t.Sound policy) (c : Command) : (t.perform c).2.Sound policy := by
  have hdoes := perform_does t c
  generalize t.perform c = after at hdoes
  cases hdoes with
  | overflow => exact h
  | advance hp => exact h.advance hp
  | underflow => exact h
  | retreat => exact ⟨t.retreat.pointer_le, h.highWater_lt, h.limit_eq, h.size_le, h.initial_le, h.zero_above⟩
  | increment => exact h.set _
  | decrement => exact h.set _
  | set value => exact h.set value

/-- A fixed tape never grows. -/
theorem Sound.size_fixed {n : Nat} (h : t.Sound (.fixed n)) : t.size = max 1 n := by
  have hle := h.size_le (max 1 n) rfl
  have hge := h.initial_le
  simp only [TapePolicy.initialCells] at hge
  omega

theorem Sound.run : ∀ (cs : List Command) {t : Tape}, t.Sound policy → (t.run cs).2.Sound policy
  | [], _, h => h
  | c :: cs, _, h => Sound.run cs (h.perform c)

theorem Sound.ideal_run : ∀ (cs : List Command) {t : Tape}, t.Sound policy →
    t.ideal.run (IdealTape.bound policy) cs = ((t.run cs).1, (t.run cs).2.ideal)
  | [], _, _ => rfl
  | c :: cs, t, h => by
    have hstep := ideal_perform t c
    have hrest := (h.perform c).ideal_run cs
    rw [h.limit_eq] at hstep
    rw [IdealTape.run, hstep]
    simp only
    rw [hrest]
    rfl

/-- Why a tape under a policy refuses a command: there is no cell on that side. -/
inductive Blocked (policy : TapePolicy) (t : Tape) : Command → TapeFault → Prop where
  | underflow (hp : t.pointer = 0) : Blocked policy t .left .underflow
  | overflow {most : Nat} (hb : IdealTape.bound policy = some most) (hp : t.pointer + 1 = most) :
      Blocked policy t .right (.overflow most)

theorem Sound.blocked (h : t.Sound policy) {fault : TapeFault} (hf : (t.perform c).1 = some fault) :
    (t.perform c).2 = t ∧ t.Blocked policy c fault := by
  have hdoes := perform_does t c
  generalize t.perform c = after at hdoes hf
  cases hdoes with
  | @overflow most hl hle =>
    cases hf
    have hb : IdealTape.bound policy = some most := h.limit_eq.symm.trans hl
    have hlt : t.pointer < most := Nat.lt_of_lt_of_le t.pointer_lt (h.size_le most hb)
    exact ⟨rfl, .overflow hb (by omega)⟩
  | underflow hz =>
    cases hf
    exact ⟨rfl, .underflow hz⟩
  | _ => cases hf

/-! ## No difference can be seen -/

/-- Everything that can be seen of a tape is as on the ideal tape. -/
structure LooksLike (t : Tape) (s : IdealTape) : Prop where
  pointer_eq : t.pointer = s.pointer
  get_eq : t.get = s.get
  highWater_eq : t.highWater = s.highWater
  touched_eq : t.touched = s.touched

theorem looksLike_ideal (t : Tape) : t.LooksLike t.ideal where
  pointer_eq := rfl
  get_eq := (ideal_get t).symm
  highWater_eq := rfl
  touched_eq := by
    have hlt := t.highWater_lt
    refine List.ext_getElem? (fun i => ?_)
    rw [touched, IdealTape.touched, List.getElem?_take, List.getElem?_map]
    by_cases hi : i < t.highWater + 1
    · have hsome : t.cells[i]? = some t.cells[i] := Array.getElem?_eq_getElem (by omega)
      have hrange : (List.range (t.ideal.highWater + 1))[i]? = some i := List.getElem?_range hi
      rw [if_pos hi, hrange, Array.getElem?_toList, hsome]
      simp [ideal, content, hsome]
    · have hrange : (List.range (t.ideal.highWater + 1))[i]? = none := by
        rw [List.getElem?_eq_none_iff, List.length_range]
        exact Nat.le_of_not_lt hi
      rw [if_neg hi, hrange]
      rfl

/-- **A tape is the ideal tape**, as far as anyone can tell: after any commands each was refused or not as it is there,
and the pointer, the current cell, the high-water mark and the cells up to it are as they are there. -/
theorem new_run_eq_ideal (policy : TapePolicy) (cs : List Command) :
    let t := ((new policy).run cs).2
    ((new policy).run cs).1 = (IdealTape.blank.run (IdealTape.bound policy) cs).1 ∧
      t.LooksLike (IdealTape.blank.run (IdealTape.bound policy) cs).2 ∧ t.Sound policy ∧
      (∀ n, policy = .fixed n → t.size = max 1 n) ∧
      ∀ c fault, (t.perform c).1 = some fault → (t.perform c).2 = t ∧ t.Blocked policy c fault := by
  intro t
  have hideal := (sound_new policy).ideal_run cs
  have hsound : t.Sound policy := (sound_new policy).run cs
  rw [ideal_new] at hideal
  rw [hideal]
  refine ⟨rfl, looksLike_ideal t, hsound, ?_, fun c fault h => hsound.blocked h⟩
  rintro n rfl
  exact hsound.size_fixed

/-- A tape that starts with all cells it may have, although its policy asks for more, and is led to both of its ends. -/
theorem new_run_eq_ideal_both_ends :
    let cs : List Command := [.right, .right, .decrement, .left]
    let t := ((new (.growable 5 (some 2))).run cs).2
    ((new (.growable 5 (some 2))).run cs).1 = [none, some (.overflow 2), none, none] ∧ t.touched = [0, 255] ∧
      t.LooksLike (IdealTape.blank.run (some 2) cs).2 ∧ (t.perform .left).1 = some .underflow ∧
      (t.perform .left).2 = t := by
  intro cs t
  obtain ⟨-, hlooks, -, -, hblocked⟩ := new_run_eq_ideal (.growable 5 (some 2)) cs
  have hleft : (t.perform .left).1 = some .underflow := by decide
  exact ⟨by decide, by decide, hlooks, hleft, (hblocked .left .underflow hleft).1⟩

end Tape

end Brainfuck
