import Brainfuck.Bracket
/-!
# Well-nested brackets

A bracket word is well nested if the grammar `S → ε | [ S ] S` derives it (`Dyck`).  An instruction list is, if its
brackets are, read in order (`WellNested`).  Two facts about such words carry every uniqueness argument: there are as
many `]` as `[` (`Dyck.count_eq`), and no prefix has more `]` than `[` (`Dyck.count_le_of_append`).
-/
namespace Brainfuck

/-- The words that `S → ε | [ S ] S` derives. -/
inductive Dyck : List Bracket → Prop where
  | empty : Dyck []
  | pair {inner rest : List Bracket} (hi : Dyck inner) (hr : Dyck rest) :
      Dyck (.opening :: (inner ++ .closing :: rest))

/-- The bracket an operation is, if it is one. -/
def Op.bracket? : Op → Option Bracket
  | .opening => some .opening
  | .closing => some .closing
  | _ => none

/-- The brackets of an instruction list, in order. -/
def brackets (is : List Instruction) : List Bracket := is.filterMap (fun i => i.op.bracket?)

/-- Whether every bracket of an instruction list has its partner in it. -/
def WellNested (is : List Instruction) : Prop := Dyck (brackets is)

/-! ## Reading the brackets off -/

@[simp]
theorem brackets_append (is js : List Instruction) : brackets (is ++ js) = brackets is ++ brackets js :=
  List.filterMap_append

@[simp]
theorem brackets_opening (site : Site) (is : List Instruction) :
    brackets (⟨site, .opening⟩ :: is) = .opening :: brackets is := rfl

@[simp]
theorem brackets_closing (site : Site) (is : List Instruction) :
    brackets (⟨site, .closing⟩ :: is) = .closing :: brackets is := rfl

theorem Op.bracket?_eq_none_iff {op : Op} : op.bracket? = none ↔ op.isBracket = false := by cases op <;> decide

theorem brackets_cons_of_basic {i : Instruction} (h : i.op.isBracket = false) (is : List Instruction) :
    brackets (i :: is) = brackets is :=
  List.filterMap_cons_none (Op.bracket?_eq_none_iff.2 h)

theorem count_opening_brackets : ∀ (is : List Instruction),
    (brackets is).count .opening = is.countP (fun i => decide (i.op = .opening))
  | [] => rfl
  | ⟨site, op⟩ :: is => by
    have ih := count_opening_brackets is
    cases op <;> simp [brackets, Op.bracket?] at ih ⊢ <;> exact ih

theorem countP_isBracket : ∀ (is : List Instruction),
    is.countP (fun i => i.op.isBracket) = (brackets is).count .opening + (brackets is).count .closing
  | [] => rfl
  | ⟨site, op⟩ :: is => by
    have ih := countP_isBracket is
    cases op <;> simp [brackets, Op.bracket?, Op.isBracket] at ih ⊢ <;> omega

/-! ## Counting -/

namespace Dyck

theorem count_eq : ∀ {w : List Bracket}, Dyck w → w.count .closing = w.count .opening
  | _, .empty => rfl
  | _, .pair hi hr => by
    simp only [List.count_cons, List.count_append, hi.count_eq, hr.count_eq]
    simp
    omega

theorem count_le_of_append {w : List Bracket} (h : Dyck w) :
    ∀ {u v : List Bracket}, w = u ++ v → u.count .closing ≤ u.count .opening := by
  induction h with
  | empty =>
    intro u v he
    rw [(List.append_eq_nil_iff.1 he.symm).1]
    exact Nat.le_refl _
  | @pair inner rest hi _ ihi ihr =>
    intro u v he
    rcases List.cons_eq_append_iff.1 he with ⟨rfl, -⟩ | ⟨u, rfl, hu⟩
    · exact Nat.le_refl _
    rcases List.append_eq_append_iff.1 hu with ⟨a, rfl, ha⟩ | ⟨a, ha, -⟩
    · -- the prefix reaches past the inner word, whose brackets cancel
      rcases List.cons_eq_append_iff.1 ha with ⟨rfl, -⟩ | ⟨a, rfl, hr⟩
      · have := hi.count_eq
        simp
        omega
      · have := hi.count_eq
        have := ihr hr
        simp
        omega
    · have := ihi ha
      simp
      omega

theorem not_append_closing {u v : List Bracket} (hu : Dyck u) : ¬ Dyck (u ++ .closing :: v) := by
  intro h
  have h₁ := h.count_le_of_append (u := u ++ [.closing]) (v := v) (by simp)
  have h₂ := hu.count_eq
  simp at h₁
  omega

/-- A pair of brackets with nothing inside can be put anywhere. -/
theorem insert_pair {w : List Bracket} (h : Dyck w) :
    ∀ {u v : List Bracket}, w = u ++ v → Dyck (u ++ .opening :: .closing :: v) := by
  induction h with
  | empty =>
    intro u v he
    obtain ⟨rfl, rfl⟩ := List.append_eq_nil_iff.1 he.symm
    exact .pair .empty .empty
  | @pair inner rest hi hr ihi ihr =>
    intro u v he
    rcases List.cons_eq_append_iff.1 he with ⟨rfl, rfl⟩ | ⟨u, rfl, hu⟩
    · exact .pair .empty (.pair hi hr)
    rcases List.append_eq_append_iff.1 hu with ⟨a, rfl, ha⟩ | ⟨a, rfl, rfl⟩
    · rcases List.cons_eq_append_iff.1 ha with ⟨rfl, rfl⟩ | ⟨a, rfl, rfl⟩
      · have hin := ihi (List.append_nil inner).symm
        simpa using Dyck.pair hin hr
      · simpa using Dyck.pair hi (ihr rfl)
    · simpa using Dyck.pair (ihi rfl) hr

end Dyck

end Brainfuck
