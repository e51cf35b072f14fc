/-!
# The tape

Memory is a row of byte cells, all zero at first, bounded on the left by cell 0 and on the right by the policy.  The
tape keeps only finitely many cells: it starts with what the policy asks for and doubles, up to its limit, when the
pointer first leaves them.  The two proof fields of `Tape` say that the pointer stands on an allocated cell at or below
the high-water mark, so reading and writing the current cell can never miss.
-/
namespace Brainfuck

/-- How much memory a run may use. -/
inductive TapePolicy where
  /-- Starts with `initial` cells and grows on demand, up to `max` cells if that is given. -/
  | growable (initial : Nat) (max : Option Nat)
  /-- Exactly `cells` cells. -/
  | fixed (cells : Nat)
  deriving DecidableEq, Repr

namespace TapePolicy

def defaultInitial : Nat := 65536

def defaultMax : Nat := 16 * 1024 * 1024

/-- The policy of a run that names none. -/
def standard : TapePolicy := .growable defaultInitial (some defaultMax)

/-- How many cells are allocated at the start: no more than the maximum, and at least one. -/
def initialCells : TapePolicy → Nat
  | .growable initial none => max initial 1
  | .growable initial (some most) => max (min initial most) 1
  | .fixed cells => max cells 1

/-- How many cells there may ever be, if that is bounded; at least one. -/
def limit : TapePolicy → Option Nat
  | .growable _ most => most.map (max · 1)
  | .fixed cells => some (max cells 1)

theorem initialCells_pos (p : TapePolicy) : 0 < p.initialCells := by
  unfold initialCells
  split <;> omega

end TapePolicy

/-- Why the pointer could not be moved. -/
inductive TapeFault where
  /-- It stood on cell 0 and was to go left. -/
  | underflow
  /-- It stood on the last of `limit` cells and was to go right. -/
  | overflow (limit : Nat)
  deriving DecidableEq, Repr

/-- The allocated cells, the current one, and the furthest one reached so far. -/
structure Tape where
  cells : Array UInt8
  pointer : Nat
  limit : Option Nat
  highWater : Nat
  pointer_le : pointer ≤ highWater
  highWater_lt : highWater < cells.size

namespace Tape

/-- A fresh tape, all zero, with the pointer on cell 0. -/
def new (policy : TapePolicy) : Tape where
  cells := Array.replicate policy.initialCells 0
  pointer := 0
  limit := policy.limit
  highWater := 0
  pointer_le := Nat.le_refl 0
  highWater_lt := by simpa using policy.initialCells_pos

/-- How many cells are allocated. -/
def size (t : Tape) : Nat := t.cells.size

/-- Whether no cell is allocated; never the case (`isEmpty_eq_false`). -/
def isEmpty (t : Tape) : Bool := t.cells.isEmpty

theorem pointer_lt (t : Tape) : t.pointer < t.cells.size :=
  Nat.lt_of_le_of_lt t.pointer_le t.highWater_lt

theorem isEmpty_eq_false (t : Tape) : t.isEmpty = false := by
  have := t.highWater_lt
  simp only [isEmpty, Array.isEmpty, decide_eq_false_iff_not]
  omega

/-! ## The current cell -/

@[inline]
def get (t : Tape) : UInt8 :=
  have := t.pointer_lt
  t.cells[t.pointer]

@[inline]
def set (t : Tape) (value : UInt8) : Tape :=
  match t with
  | ⟨cells, pointer, limit, highWater, h, h'⟩ =>
    ⟨cells.set pointer value (Nat.lt_of_le_of_lt h h'), pointer, limit, highWater, h, by simpa using h'⟩

/-- Adds one modulo 256. -/
@[inline]
def increment (t : Tape) : Tape :=
  let value := t.get + 1
  t.set value

/-- Takes one away modulo 256. -/
@[inline]
def decrement (t : Tape) : Tape :=
  let value := t.get - 1
  t.set value

/-! ## Moving -/

/-- How many cells a tape of `size` cells has after it grew to hold `index`: twice as many, or as many as `index`
needs, but never more than the limit. -/
def grownSize (limit : Option Nat) (size index : Nat) : Nat :=
  match limit with
  | none => max (size * 2) (index + 1)
  | some most => min (max (size * 2) (index + 1)) most

/-- The cells, enough of them to hold `index`; new ones are zero. -/
def reach (cells : Array UInt8) (limit : Option Nat) (index : Nat) : Array UInt8 :=
  if index < cells.size then cells
  else cells ++ Array.replicate (grownSize limit cells.size index - cells.size) 0

/-- Whether a limit permits a cell at `index`. -/
def permits (limit : Option Nat) (index : Nat) : Prop :=
  match limit with
  | none => True
  | some most => index < most

theorem lt_size_reach (cells : Array UInt8) {limit : Option Nat} {index : Nat} (h : permits limit index) :
    index < (reach cells limit index).size := by
  unfold reach
  split
  · assumption
  · rw [Array.size_append, Array.size_replicate]
    unfold grownSize
    cases limit with
    | none => simp only; omega
    | some most => simp only [permits] at h ⊢; omega

theorem size_le_size_reach (cells : Array UInt8) (limit : Option Nat) (index : Nat) :
    cells.size ≤ (reach cells limit index).size := by
  unfold reach
  split <;> simp

/-- The tape with the pointer one cell further right, on a cell that the limit permits. -/
@[inline]
def advance (t : Tape) (h : permits t.limit (t.pointer + 1)) : Tape :=
  match t, h with
  | ⟨cells, pointer, limit, highWater, _, hw⟩, h =>
    { cells := reach cells limit (pointer + 1)
      pointer := pointer + 1
      limit
      highWater := max highWater (pointer + 1)
      pointer_le := Nat.le_max_right ..
      highWater_lt := by
        have h₁ : pointer + 1 < (reach cells limit (pointer + 1)).size := lt_size_reach cells h
        have h₂ := size_le_size_reach cells limit (pointer + 1)
        omega }

/-- One cell right, growing the tape if need be. -/
@[inline]
def moveRight (t : Tape) : Except TapeFault Tape :=
  match hl : t.limit with
  | none => .ok (t.advance (by simp [permits, hl]))
  | some most =>
    if h : t.pointer + 1 < most then .ok (t.advance (by simpa [permits, hl] using h))
    else .error (.overflow most)

/-- One cell left. -/
@[inline]
def moveLeft (t : Tape) : Except TapeFault Tape :=
  match t with
  | ⟨cells, pointer, limit, highWater, h, h'⟩ =>
    match pointer with
    | 0 => .error .underflow
    | left + 1 => .ok ⟨cells, left, limit, highWater, Nat.le_of_succ_le h, h'⟩

/-- The cells from 0 to the furthest one reached. -/
def touched (t : Tape) : List UInt8 := t.cells.toList.take (t.highWater + 1)

end Tape

end Brainfuck
