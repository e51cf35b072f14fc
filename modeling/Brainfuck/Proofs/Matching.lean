import Brainfuck.Jumps
import Brainfuck.Proofs.Block
/-!
# What the jump table holds

`Jumps.build` accepts exactly the well-nested instruction lists, and the table it makes of one is the matching of its
brackets (`Jumps.build_matches`).  The proof goes through the tree: on the spelling of a block the one-pass matcher runs
straight through, leaves its stack as it found it and adds the table of the block (`Block.buildFrom_spell`), and the two
ends of a loop of the block are partners in that table (`Block.Pair.table`).
-/
namespace Brainfuck

/-! ## A list between two ends

The spelling of a loop and its table have one shape, `x :: (xs ++ y :: ys)`; these are the look-ups in such a list. -/

section Ends

variable {α : Type} {x y : α} {xs ys : List α} {k : Nat}

theorem getElem?_ends_inside (h : k < xs.length) : (x :: (xs ++ y :: ys))[k + 1]? = xs[k]? := by
  rw [List.getElem?_cons_succ, List.getElem?_append_left h]

theorem getElem?_ends_last : (x :: (xs ++ y :: ys))[xs.length + 1]? = some y := by simp

theorem getElem?_ends_after : (x :: (xs ++ y :: ys))[k + (xs.length + 2)]? = ys[k]? := by
  have hk : k + (xs.length + 1) - xs.length = k + 1 := by omega
  rw [← Nat.add_assoc, List.getElem?_cons_succ, Nat.add_assoc, List.getElem?_append_right (by omega), hk,
    List.getElem?_cons_succ]

theorem ends_cases (xs : List α) (k : Nat) :
    k = 0 ∨ (∃ i < xs.length, k = i + 1) ∨ k = xs.length + 1 ∨ ∃ i, k = i + (xs.length + 2) := by
  rcases Nat.lt_trichotomy k (xs.length + 1) with h | h | h
  · cases k with
    | zero => exact .inl rfl
    | succ k => exact .inr (.inl ⟨k, by omega, rfl⟩)
  · exact .inr (.inr (.inl h))
  · exact .inr (.inr (.inr ⟨k - (xs.length + 2), by omega⟩))

theorem extract_eq_append {l : List α} {a c d : Nat} (hac : a ≤ c) (hcd : c < d) (hy : l[c]? = some y) :
    l.extract a d = l.extract a c ++ y :: l.extract (c + 1) d := by
  obtain ⟨hc, rfl⟩ := List.getElem?_eq_some_iff.1 hy
  have hdrop : l.drop a = (l.drop a).take (c - a) ++ l[c] :: l.drop (c + 1) := by
    rw [← List.drop_eq_getElem_cons hc]
    conv => lhs; rw [← List.take_append_drop (c - a) (l.drop a)]
    rw [List.drop_drop, Nat.add_sub_cancel' hac]
  rw [List.extract_eq_take_drop, List.extract_eq_take_drop, List.extract_eq_take_drop]
  conv => lhs; rw [hdrop]
  rw [List.take_append, List.length_take, List.length_drop, List.take_take]
  have h₁ : min (d - a) (c - a) = c - a := by omega
  have h₂ : d - a - min (c - a) (l.length - a) = (d - (c + 1)) + 1 := by omega
  rw [h₁, h₂, List.take_succ_cons]

end Ends

/-- The operation of instruction `ip`, if there is one. -/
def opAt (is : List Instruction) (ip : Nat) : Option Op := is[ip]?.map (fun i => i.op)

theorem opAt_eq_some_iff {is : List Instruction} {ip : Nat} {op : Op} :
    opAt is ip = some op ↔ ∃ site, is[ip]? = some ⟨site, op⟩ := by
  rw [opAt, Option.map_eq_some_iff]
  exact ⟨fun ⟨i, hi, ho⟩ => ⟨i.toSite, ho ▸ hi⟩, fun ⟨site, h⟩ => ⟨⟨site, op⟩, h, rfl⟩⟩

/-- A `[` has one partner at most: past the first `]` that has the stretch in between well nested, no stretch is. -/
theorem not_wellNested_of_lt {is : List Instruction} {o c d : Nat} (hoc : o < c) (hcd : c < d)
    (hc : opAt is c = some .closing) (hn : WellNested (is.extract (o + 1) c)) :
    ¬ WellNested (is.extract (o + 1) d) := by
  obtain ⟨site, hc⟩ := opAt_eq_some_iff.1 hc
  rw [WellNested, extract_eq_append hoc hcd hc, brackets_append, brackets_closing]
  exact hn.not_append_closing

/-! ## The matcher on a block -/

namespace Block

/-- The jump table of a block whose first instruction has number `base`. -/
def table : Block → Nat → List (Option Nat)
  | .done, _ => []
  | .basic _ _ rest, base => none :: rest.table (base + 1)
  | .loop _ _ body rest, base =>
    some (base + body.spell.length + 1) ::
      (body.table (base + 1) ++ some base :: rest.table (base + body.spell.length + 2))

@[simp]
theorem length_table : ∀ (b : Block) (base : Nat), (b.table base).length = b.spell.length
  | .done, _ => rfl
  | .basic _ _ rest, base => by simp [table, spell, length_table rest]
  | .loop _ _ body rest, base => by simp [table, spell, length_table body, length_table rest]

theorem map_isSome_table : ∀ (b : Block) (base : Nat),
    (b.table base).map Option.isSome = b.spell.map (fun i => i.op.isBracket)
  | .done, _ => rfl
  | .basic _ _ rest, base => by simp [table, spell, map_isSome_table rest]
  | .loop _ _ body rest, base => by
    simp [table, spell, map_isSome_table body, map_isSome_table rest, Op.isBracket]

/-- The table of a whole program that the block spells. -/
def jumps (b : Block) : Jumps := ⟨(b.table 0).toArray⟩

/-- **The matcher runs straight through a block**: its stack is as before, and its table has grown by that of the
block. -/
theorem buildFrom_spell : ∀ (b : Block) (pending : List (Nat × Site)) (targets : Array (Option Nat))
    (rest : List Instruction), Jumps.buildFrom pending targets (b.spell ++ rest) =
      Jumps.buildFrom pending (targets ++ (b.table targets.size).toArray) rest
  | .done, pending, targets, rest => by simp [spell, table]
  | .basic op site next, pending, targets, rest => by
    have hstep : Jumps.buildFrom pending targets (⟨site, op.toOp⟩ :: (next.spell ++ rest)) =
        Jumps.buildFrom pending (targets.push none) (next.spell ++ rest) := by cases op <;> rfl
    rw [spell, List.cons_append, hstep, buildFrom_spell next]
    simp [table]
  | .loop opener closer body next, pending, targets, rest => by
    -- the `[` leaves an entry open on the stack, and its `]`, which meets the same stack, fills it
    rw [spell, List.cons_append, List.append_assoc, List.cons_append]
    simp only [Jumps.buildFrom]
    rw [buildFrom_spell body]
    simp only [Jumps.buildFrom]
    rw [buildFrom_spell next]
    congr 1
    apply Array.toList_inj.1
    simp [table, Nat.add_assoc]

theorem build_spell (b : Block) : Jumps.build b.spell = .ok b.jumps := by
  have h := buildFrom_spell b [] #[] []
  simpa [Jumps.build, Jumps.buildFrom, jumps] using h

/-! ## The loops of a block -/

/-- `Pair b o c`: instructions `o` and `c` of the block are the two ends of a loop in it. -/
inductive Pair : Block → Nat → Nat → Prop where
  | here {opener closer : Site} {body rest : Block} :
      Pair (.loop opener closer body rest) 0 (body.spell.length + 1)
  | inside {opener closer : Site} {body rest : Block} {o c : Nat} (h : Pair body o c) :
      Pair (.loop opener closer body rest) (o + 1) (c + 1)
  | after {opener closer : Site} {body rest : Block} {o c : Nat} (h : Pair rest o c) :
      Pair (.loop opener closer body rest) (o + (body.spell.length + 2)) (c + (body.spell.length + 2))
  | next {op : Basic} {site : Site} {rest : Block} {o c : Nat} (h : Pair rest o c) :
      Pair (.basic op site rest) (o + 1) (c + 1)

theorem Pair.split {b : Block} {o c : Nat} (h : Pair b o c) :
    ∃ (pre post : List Instruction) (opener closer : Site) (body : Block),
      b.spell = pre ++ ⟨opener, .opening⟩ :: (body.spell ++ ⟨closer, .closing⟩ :: post) ∧
        pre.length = o ∧ o + body.spell.length + 1 = c := by
  induction h with
  | @here opener closer body rest => exact ⟨[], rest.spell, opener, closer, body, rfl, rfl, by omega⟩
  | @inside opener closer _ rest _ _ _ ih =>
    obtain ⟨pre, post, s, t, inner, he, hl, hc⟩ := ih
    refine ⟨⟨opener, .opening⟩ :: pre, post ++ ⟨closer, .closing⟩ :: rest.spell, s, t, inner, ?_, by simp [hl], by omega⟩
    simp [spell, he]
  | @after opener closer body _ _ _ _ ih =>
    obtain ⟨pre, post, s, t, inner, he, hl, hc⟩ := ih
    refine ⟨⟨opener, .opening⟩ :: (body.spell ++ ⟨closer, .closing⟩ :: pre), post, s, t, inner, ?_, ?_, by omega⟩
    · simp [spell, he]
    · simp only [List.length_cons, List.length_append, hl]
      omega
  | @next op site _ _ _ _ ih =>
    obtain ⟨pre, post, s, t, inner, he, hl, hc⟩ := ih
    refine ⟨⟨site, op.toOp⟩ :: pre, post, s, t, inner, ?_, by simp [hl], by omega⟩
    simp [spell, he]

theorem Pair.lt {b : Block} {o c : Nat} (h : Pair b o c) : o < c ∧ c < b.spell.length := by
  obtain ⟨pre, post, s, t, inner, he, hl, hc⟩ := h.split
  rw [he]
  simp only [List.length_append, List.length_cons]
  omega

theorem Pair.spec {b : Block} {o c : Nat} (h : Pair b o c) :
    o < c ∧ opAt b.spell o = some .opening ∧ opAt b.spell c = some .closing ∧
      WellNested (b.spell.extract (o + 1) c) := by
  obtain ⟨pre, post, s, t, inner, he, rfl, rfl⟩ := h.split
  refine ⟨by omega, ?_, ?_, ?_⟩
  · simp [he, opAt]
  · simp [he, opAt, Nat.add_assoc]
  · have hx : b.spell.extract (pre.length + 1) (pre.length + inner.spell.length + 1) = inner.spell := by
      simp [he, List.extract_eq_take_drop]
    rw [hx]
    exact inner.wellNested_spell

/-- **Loops lie beside or inside each other.** -/
theorem Pair.nested {b : Block} {o c o' c' : Nat} (h : Pair b o c) (h' : Pair b o' c') (ho : o < o') (hc : o' < c) :
    c' < c := by
  induction h generalizing o' c' with
  | here =>
    cases h' with
    | here => omega
    | inside h' => have := h'.lt; omega
    | after h' => omega
  | inside h ih =>
    cases h' with
    | here => omega
    | inside h' => have := ih h' (by omega) (by omega); omega
    | after h' => have := h.lt; omega
  | after h ih =>
    cases h' with
    | here => omega
    | inside h' => have := h'.lt; omega
    | after h' => have := ih h' (by omega) (by omega); omega
  | next h ih =>
    cases h' with
    | next h' => have := ih h' (by omega) (by omega); omega

/-- **The ends of a loop are partners in the table.** -/
theorem Pair.table {b : Block} {o c : Nat} (h : Pair b o c) :
    ∀ base, (b.table base)[o]? = some (some (base + c)) ∧ (b.table base)[c]? = some (some (base + o)) := by
  induction h with
  | @here opener closer body rest =>
    intro base
    refine ⟨rfl, ?_⟩
    rw [Block.table, ← length_table body (base + 1), getElem?_ends_last]
    rfl
  | @inside opener closer body rest o c h ih =>
    intro base
    have hlt := h.lt
    rw [Block.table, getElem?_ends_inside (by rw [length_table]; omega),
      getElem?_ends_inside (by rw [length_table]; omega), (ih (base + 1)).1, (ih (base + 1)).2]
    exact ⟨by congr 2; omega, by congr 2; omega⟩
  | @after opener closer body rest o c h ih =>
    intro base
    rw [Block.table, ← length_table body (base + 1), getElem?_ends_after, getElem?_ends_after, length_table,
      (ih _).1, (ih _).2]
    exact ⟨by congr 2; omega, by congr 2; omega⟩
  | @next op site rest o c h ih =>
    intro base
    rw [Block.table, List.getElem?_cons_succ, List.getElem?_cons_succ, (ih (base + 1)).1, (ih (base + 1)).2]
    exact ⟨by congr 2; omega, by congr 2; omega⟩

/-- Instruction `k` of the block, if it is a bracket, is an end of a loop. -/
def Paired (b : Block) (k : Nat) : Prop :=
  (opAt b.spell k = some .opening → ∃ c, Pair b k c) ∧ (opAt b.spell k = some .closing → ∃ o, Pair b o k)

theorem Paired.shift {b b' : Block} {k d : Nat} (h : b.Paired k) (hop : opAt b'.spell (k + d) = opAt b.spell k)
    (hpair : ∀ {o c : Nat}, Pair b o c → Pair b' (o + d) (c + d)) : b'.Paired (k + d) := by
  rw [Paired, hop]
  refine ⟨fun ho => ?_, fun hc => ?_⟩
  · obtain ⟨c, hk⟩ := h.1 ho
    exact ⟨c + d, hpair hk⟩
  · obtain ⟨o, hk⟩ := h.2 hc
    exact ⟨o + d, hpair hk⟩

/-- **Every bracket of a block is an end of a loop.** -/
theorem paired : ∀ (b : Block) (k : Nat), b.Paired k
  | .done, _ => ⟨nofun, nofun⟩
  | .basic op _ _, 0 =>
    ⟨fun h => absurd (Option.some.inj h) op.toOp_ne_opening, fun h => absurd (Option.some.inj h) op.toOp_ne_closing⟩
  | .basic _ _ rest, k + 1 => (paired rest k).shift rfl .next
  | .loop opener closer body rest, k => by
    rcases ends_cases body.spell k with rfl | ⟨k, hk, rfl⟩ | rfl | ⟨k, rfl⟩
    · exact ⟨fun _ => ⟨_, .here⟩, nofun⟩
    · refine (paired body k).shift ?_ .inside
      rw [opAt, spell, getElem?_ends_inside hk, opAt]
    · refine ⟨fun h => ?_, fun _ => ⟨0, .here⟩⟩
      rw [opAt, spell, getElem?_ends_last] at h
      cases h
    · refine (paired rest k).shift ?_ .after
      rw [opAt, spell, getElem?_ends_after, opAt]

end Block

/-! ## The table of a list -/

namespace Jumps

/-- A list that the matcher accepts is well nested, the `[` on its stack put in front. -/
theorem dyck_of_buildFrom : ∀ (is : List Instruction) (pending : List (Nat × Site)) (targets : Array (Option Nat))
    (j : Jumps), buildFrom pending targets is = .ok j → Dyck (List.replicate pending.length .opening ++ brackets is)
  | [], pending, targets, j, h => by
    cases pending with
    | nil => exact .empty
    | cons p pending =>
      rw [buildFrom, List.getLast?_eq_some_getLast (List.cons_ne_nil p pending)] at h
      cases h
  | ⟨site, op⟩ :: is, pending, targets, j, h => by
    cases op with
    | opening =>
      have ih := dyck_of_buildFrom is ((targets.size, site) :: pending) (targets.push none) j h
      rwa [List.length_cons, List.replicate_succ', List.append_assoc] at ih
    | closing =>
      cases pending with
      | nil => cases h
      | cons p outer =>
        have ih := dyck_of_buildFrom is outer _ j h
        rw [List.length_cons, List.replicate_succ', List.append_assoc]
        exact ih.insert_pair rfl
    | _ => exact dyck_of_buildFrom is pending (targets.push none) j h

/-- **The matcher accepts the spellings of blocks**, and makes of each the table of its block. -/
theorem build_eq_ok_iff {is : List Instruction} {j : Jumps} :
    build is = .ok j ↔ ∃ b : Block, b.spell = is ∧ j = b.jumps := by
  constructor
  · intro h
    have hn : WellNested is := dyck_of_buildFrom is [] #[] j h
    obtain ⟨b, rfl⟩ := Block.exists_spell_iff.2 hn
    rw [Block.build_spell, Except.ok.injEq] at h
    exact ⟨b, rfl, h.symm⟩
  · rintro ⟨b, rfl, rfl⟩
    exact Block.build_spell b

/-- What the table of an instruction list has to be: the matching of its brackets. -/
structure Matches (j : Jumps) (is : List Instruction) : Prop where
  /-- The brackets have a partner, and nothing else has one. -/
  isSome_target_iff : ∀ ip, (j.target ip).isSome ↔ ∃ op, opAt is ip = some op ∧ op.isBracket
  /-- The partner of a `[` is the `]` up to which all brackets after the `[` have theirs. -/
  target_opening_iff : ∀ o c, opAt is o = some .opening →
    (j.target o = some c ↔ o < c ∧ opAt is c = some .closing ∧ WellNested (is.extract (o + 1) c))
  /-- The partner of the partner is the bracket itself. -/
  target_target : ∀ ip t, j.target ip = some t → j.target t = some ip
  /-- Every `[` is paired with a later `]`. -/
  closing_after : ∀ o, opAt is o = some .opening → ∃ c, j.target o = some c ∧ o < c ∧ opAt is c = some .closing
  /-- Every `]` is paired with an earlier `[`. -/
  opening_before : ∀ c, opAt is c = some .closing → ∃ o, j.target c = some o ∧ o < c ∧ opAt is o = some .opening
  /-- A pair that begins inside another ends inside it. -/
  nested : ∀ o c o' c', opAt is o = some .opening → j.target o = some c → opAt is o' = some .opening →
    j.target o' = some c' → o < o' → o' < c → c' < c
  /-- There are as many pairs as `[`. -/
  pairs_eq : j.pairs = is.countP (fun i => decide (i.op = .opening))

theorem target_jumps (b : Block) (ip : Nat) : b.jumps.target ip = (b.table 0)[ip]?.getD none := by
  rw [target, Block.jumps, Array.getD_eq_getD_getElem?, List.getElem?_toArray]

theorem isSome_target_jumps (b : Block) (ip : Nat) :
    (b.jumps.target ip).isSome ↔ ∃ op, opAt b.spell ip = some op ∧ op.isBracket := by
  have h : (b.table 0)[ip]?.map Option.isSome = b.spell[ip]?.map (fun i => i.op.isBracket) := by
    rw [← List.getElem?_map, b.map_isSome_table, List.getElem?_map]
  rw [target_jumps, opAt]
  cases ht : (b.table 0)[ip]? with
  | none =>
    rw [ht, Option.map_none, eq_comm, Option.map_eq_none_iff] at h
    simp [h]
  | some t =>
    rw [ht, Option.map_some, eq_comm, Option.map_eq_some_iff] at h
    obtain ⟨i, hi, hb⟩ := h
    simp [hi, hb]

theorem target_of_pair {b : Block} {o c : Nat} (h : b.Pair o c) :
    b.jumps.target o = some c ∧ b.jumps.target c = some o := by
  rw [target_jumps, target_jumps, (h.table 0).1, (h.table 0).2]
  simp

theorem target_jumps_eq_some {b : Block} {ip t : Nat} (h : b.jumps.target ip = some t) :
    b.Pair ip t ∨ b.Pair t ip := by
  obtain ⟨op, hop, hb⟩ := (isSome_target_jumps b ip).1 (by rw [h]; rfl)
  cases op with
  | opening =>
    obtain ⟨c, hc⟩ := (b.paired ip).1 hop
    rw [(target_of_pair hc).1] at h
    cases h
    exact .inl hc
  | closing =>
    obtain ⟨o, ho⟩ := (b.paired ip).2 hop
    rw [(target_of_pair ho).2] at h
    cases h
    exact .inr ho
  | _ => cases hb

theorem pairs_jumps (b : Block) : b.jumps.pairs = b.spell.countP (fun i => decide (i.op = .opening)) := by
  have hcount : (b.table 0).countP Option.isSome = b.spell.countP (fun i => i.op.isBracket) := by
    have h := congrArg (List.countP id) (b.map_isSome_table 0)
    rwa [List.countP_map, List.countP_map] at h
  have heq := b.wellNested_spell.count_eq
  rw [pairs, Block.jumps, List.countP_toArray, hcount, countP_isBracket, heq, count_opening_brackets]
  omega

theorem jumps_matches (b : Block) : b.jumps.Matches b.spell where
  isSome_target_iff := isSome_target_jumps b
  target_opening_iff o c ho := by
    obtain ⟨d, hd⟩ := (b.paired o).1 ho
    obtain ⟨hod, -, hclose, hn⟩ := hd.spec
    rw [(target_of_pair hd).1, Option.some.injEq]
    constructor
    · rintro rfl
      exact ⟨hod, hclose, hn⟩
    · rintro ⟨hoc, hc, hnc⟩
      rcases Nat.lt_trichotomy d c with h | h | h
      · exact absurd hnc (not_wellNested_of_lt hod h hclose hn)
      · exact h
      · exact absurd hn (not_wellNested_of_lt hoc h hc hnc)
  target_target ip t h := by
    rcases target_jumps_eq_some h with h | h
    · exact (target_of_pair h).2
    · exact (target_of_pair h).1
  closing_after o ho := by
    obtain ⟨c, hc⟩ := (b.paired o).1 ho
    exact ⟨c, (target_of_pair hc).1, hc.spec.1, hc.spec.2.2.1⟩
  opening_before c hc := by
    obtain ⟨o, ho⟩ := (b.paired c).2 hc
    exact ⟨o, (target_of_pair ho).2, ho.spec.1, ho.spec.2.1⟩
  nested o c o' c' ho hc ho' hc' h₁ h₂ := by
    obtain ⟨d, hd⟩ := (b.paired o).1 ho
    obtain ⟨d', hd'⟩ := (b.paired o').1 ho'
    rw [(target_of_pair hd).1, Option.some.injEq] at hc
    rw [(target_of_pair hd').1, Option.some.injEq] at hc'
    subst hc hc'
    exact hd.nested hd' h₁ h₂
  pairs_eq := pairs_jumps b

/-- **The jump table is the matching of the brackets.**  An instruction list has one exactly if it is well nested. -/
theorem build_matches (is : List Instruction) :
    ((∃ j, build is = .ok j) ↔ WellNested is) ∧ ∀ j, build is = .ok j → j.Matches is := by
  refine ⟨⟨fun ⟨j, hj⟩ => ?_, fun h => ?_⟩, fun j hj => ?_⟩
  · obtain ⟨b, rfl, -⟩ := build_eq_ok_iff.1 hj
    exact b.wellNested_spell
  · obtain ⟨b, rfl⟩ := Block.exists_spell_iff.2 h
    exact ⟨_, b.build_spell⟩
  · obtain ⟨b, rfl, rfl⟩ := build_eq_ok_iff.1 hj
    exact jumps_matches b

theorem build_matches_nested_loop :
    ∃ j, build (instructionsOf "[+>[>]]") = .ok j ∧ j.target 0 = some 6 ∧ j.Matches (instructionsOf "[+>[>]]") :=
  ⟨_, rfl, rfl, (build_matches _).2 _ rfl⟩

end Jumps

end Brainfuck
