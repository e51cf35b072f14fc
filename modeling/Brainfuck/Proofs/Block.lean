import Brainfuck.Proofs.Nesting
/-!
# Programs as trees

A block is a sequence of commands, each of them a basic operation or a loop around a block.  Written out from left to
right it is an instruction list (`Block.spell`), and the lists that arise are exactly the well-nested ones
(`Block.exists_spell_iff`).  A list is spelled by one block at most (`Block.spell_injective`), so a well-nested
instruction list and the tree of its loops are the same thing.
-/
namespace Brainfuck

/-- The operations that do not jump. -/
inductive Basic where
  | right
  | left
  | inc
  | dec
  | output
  | input
  deriving DecidableEq, Repr

namespace Basic

def toOp : Basic → Op
  | .right => .right
  | .left => .left
  | .inc => .inc
  | .dec => .dec
  | .output => .output
  | .input => .input

@[simp]
theorem isBracket_toOp (a : Basic) : a.toOp.isBracket = false := by cases a <;> rfl

theorem toOp_ne_closing (a : Basic) : a.toOp ≠ .closing := by cases a <;> decide

theorem toOp_ne_opening (a : Basic) : a.toOp ≠ .opening := by cases a <;> decide

theorem toOp_injective {a b : Basic} (h : a.toOp = b.toOp) : a = b := by
  cases a <;> cases b <;> cases h <;> rfl

theorem exists_toOp_eq {op : Op} (h : op.isBracket = false) : ∃ a : Basic, a.toOp = op :=
  match op, h with
  | .right, _ => ⟨.right, rfl⟩
  | .left, _ => ⟨.left, rfl⟩
  | .inc, _ => ⟨.inc, rfl⟩
  | .dec, _ => ⟨.dec, rfl⟩
  | .output, _ => ⟨.output, rfl⟩
  | .input, _ => ⟨.input, rfl⟩

end Basic

theorem Op.cases_basic (op : Op) : op = .opening ∨ op = .closing ∨ ∃ a : Basic, op = a.toOp := by
  cases h : op.isBracket with
  | true => cases op <;> simp_all [Op.isBracket]
  | false =>
    obtain ⟨a, ha⟩ := Basic.exists_toOp_eq h
    exact .inr (.inr ⟨a, ha.symm⟩)

/-- A sequence of commands, each with the site where it is written. -/
inductive Block where
  | done
  | basic (op : Basic) (site : Site) (rest : Block)
  | loop (opener closer : Site) (body rest : Block)
  deriving DecidableEq, Repr

namespace Block

/-- The instructions of a block from left to right. -/
def spell : Block → List Instruction
  | .done => []
  | .basic op site rest => ⟨site, op.toOp⟩ :: rest.spell
  | .loop opener closer body rest => ⟨opener, .opening⟩ :: (body.spell ++ ⟨closer, .closing⟩ :: rest.spell)

/-! ## One block for a list

The spelling of a block is followed by nothing or by a `]`, so the block ends where the first `]` without a partner
stands; the induction compares two spellings that are so followed. -/

/-- What may follow a block: nothing, or the end of the loop around it. -/
def Follows : List Instruction → Prop
  | [] => True
  | i :: _ => i.op = .closing

theorem spell_append_injective {b b' : Block} {t t' : List Instruction} (ht : Follows t) (ht' : Follows t')
    (h : b.spell ++ t = b'.spell ++ t') : b = b' ∧ t = t' := by
  induction b generalizing b' t t' with
  | done =>
    cases b' with
    | done => exact ⟨rfl, h⟩
    | basic op site rest =>
      subst h
      exact absurd ht op.toOp_ne_closing
    | loop opener closer body rest =>
      subst h
      cases ht
  | basic op site rest ih =>
    cases b' with
    | done =>
      subst h
      exact absurd ht' op.toOp_ne_closing
    | basic op' site' rest' =>
      simp only [spell, List.cons_append, List.cons.injEq, Instruction.mk.injEq] at h
      obtain ⟨⟨rfl, ho⟩, h⟩ := h
      obtain ⟨rfl, rfl⟩ := ih ht ht' h
      rw [Basic.toOp_injective ho]
      exact ⟨rfl, rfl⟩
    | loop opener closer body rest' =>
      simp only [spell, List.cons_append, List.cons.injEq, Instruction.mk.injEq] at h
      exact absurd h.1.2 op.toOp_ne_opening
  | loop opener closer body rest ihb ihr =>
    cases b' with
    | done =>
      subst h
      cases ht'
    | basic op site rest' =>
      simp only [spell, List.cons_append, List.cons.injEq, Instruction.mk.injEq] at h
      exact absurd h.1.2.symm op.toOp_ne_opening
    | loop opener' closer' body' rest' =>
      simp only [spell, List.cons_append, List.append_assoc, List.cons.injEq, Instruction.mk.injEq, and_true] at h
      obtain ⟨rfl, h⟩ := h
      have hf : Follows (⟨closer, .closing⟩ :: (rest.spell ++ t)) := rfl
      have hf' : Follows (⟨closer', .closing⟩ :: (rest'.spell ++ t')) := rfl
      obtain ⟨rfl, hclose⟩ := ihb hf hf' h
      simp only [List.cons.injEq, Instruction.mk.injEq, and_true] at hclose
      obtain ⟨rfl, hrest⟩ := hclose
      obtain ⟨rfl, rfl⟩ := ihr ht ht' hrest
      exact ⟨rfl, rfl⟩

/-- **A list is spelled by one block at most.** -/
theorem spell_injective {b b' : Block} (h : b.spell = b'.spell) : b = b' := by
  have hf : Follows [] := trivial
  exact (spell_append_injective hf hf (by rw [h])).1

/-! ## A block for each well-nested list -/

theorem wellNested_spell : ∀ (b : Block), WellNested b.spell
  | .done => .empty
  | .basic op site rest => by
    rw [WellNested, spell, brackets_cons_of_basic (by simp)]
    exact wellNested_spell rest
  | .loop opener closer body rest => by
    rw [WellNested, spell, brackets_opening, brackets_append, brackets_closing]
    exact .pair (wellNested_spell body) (wellNested_spell rest)

theorem exists_spell_append (b : Block) :
    ∀ (pre : List Instruction), (∀ i ∈ pre, i.op.bracket? = none) → ∃ b' : Block, b'.spell = pre ++ b.spell
  | [], _ => ⟨b, rfl⟩
  | i :: pre, h => by
    obtain ⟨b', hb'⟩ := exists_spell_append b pre (fun i hi => h i (List.mem_cons_of_mem _ hi))
    obtain ⟨a, ha⟩ := Basic.exists_toOp_eq (Op.bracket?_eq_none_iff.1 (h i List.mem_cons_self))
    refine ⟨.basic a i.toSite b', ?_⟩
    rw [spell, ha, hb']
    rfl

theorem exists_of_brackets_eq_cons {is : List Instruction} {x : Bracket} {w : List Bracket}
    (h : brackets is = x :: w) :
    ∃ pre i post, is = pre ++ i :: post ∧ (∀ k ∈ pre, k.op.bracket? = none) ∧ i.op.bracket? = some x ∧
      brackets post = w :=
  List.filterMap_eq_cons_iff.1 h

theorem exists_spell_of_dyck {w : List Bracket} (hw : Dyck w) :
    ∀ {is : List Instruction}, brackets is = w → ∃ b : Block, b.spell = is := by
  induction hw with
  | empty =>
    intro is h
    obtain ⟨b, hb⟩ := exists_spell_append .done is (List.filterMap_eq_nil_iff.1 h)
    exact ⟨b, by rw [hb, spell, List.append_nil]⟩
  | @pair inner rest _ _ ihi ihr =>
    intro is h
    obtain ⟨pre, i, mid, rfl, hpre, hi, hmid⟩ := exists_of_brackets_eq_cons h
    obtain ⟨left, right, rfl, hleft, hright⟩ := List.filterMap_eq_append_iff.1 hmid
    obtain ⟨fill, k, post, rfl, hfill, hk, hpost⟩ := exists_of_brackets_eq_cons hright
    have hbody : brackets (left ++ fill) = inner := by
      rw [brackets_append, show brackets fill = [] from List.filterMap_eq_nil_iff.2 hfill, List.append_nil]
      exact hleft
    obtain ⟨body, hbody⟩ := ihi hbody
    obtain ⟨tail, htail⟩ := ihr hpost
    obtain ⟨b, hb⟩ := exists_spell_append (.loop i.toSite k.toSite body tail) pre hpre
    have hio : i.op = .opening := by cases hop : i.op <;> simp_all [Op.bracket?]
    have hko : k.op = .closing := by cases hop : k.op <;> simp_all [Op.bracket?]
    refine ⟨b, ?_⟩
    rw [hb, spell, hbody, htail, ← hio, ← hko]
    simp

/-- **The lists that blocks spell are the well-nested ones.** -/
theorem exists_spell_iff {is : List Instruction} : (∃ b : Block, b.spell = is) ↔ WellNested is :=
  ⟨fun ⟨b, hb⟩ => hb ▸ wellNested_spell b, fun h => exists_spell_of_dyck h rfl⟩

end Block

end Brainfuck
