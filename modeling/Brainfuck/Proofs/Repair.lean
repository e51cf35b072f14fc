import Mathlib.Data.Finset.Card
import Brainfuck.Proofs.Comments
/-!
# The unmatched brackets are the least repair

Whoever deletes the brackets that `unmatched` lists, and nothing else, is left with a well-nested list, and nobody gets
there by deleting fewer instructions (`LeastRepair`).  That the greedy matching is best follows from how little one
instruction can change: with one `[` more or less on the stack the count of unmatched brackets differs by at most one
(`length_unmatchedFrom_deeper`), so each deletion saves at most one (`length_unmatchedFrom_sublist`).

The sites come out in source order although nothing sorts them: they are a sublist of the open `[`, outermost first,
followed by the instructions (`sites_unmatchedFrom_sublist`).
-/
namespace Brainfuck

/-- The instructions that are left when those with these indices are deleted. -/
def without (indices : Finset Nat) (is : List Instruction) : List Instruction := is.filter (fun i => i.index ∉ indices)

/-- The indices of some unmatched brackets. -/
def indicesOf (found : List UnmatchedBracket) : Finset Nat := (found.map (fun u => u.site.index)).toFinset

/-- Every instruction stands after those before it. -/
def InOrder (is : List Instruction) : Prop := is.Pairwise (fun i j => i.index < j.index)

/-- What a list of unmatched brackets should be: the cheapest way to mend the instructions, in source order. -/
structure LeastRepair (is : List Instruction) (found : List UnmatchedBracket) : Prop where
  /-- Each entry has the site and the kind of one instruction, the only one with its index. -/
  names : ∀ u ∈ found, ∃ i ∈ is, i.toSite = u.site ∧ i.op = u.bracket.toOp ∧ ∀ j ∈ is, j.index = u.site.index → j = i
  /-- Each instruction is named once at most. -/
  card_eq : (indicesOf found).card = found.length
  mends : ∃ j, Jumps.build (without (indicesOf found) is) = .ok j
  least : ∀ indices, (∃ j, Jumps.build (without indices is) = .ok j) → found.length ≤ indices.card
  sorted : found.Pairwise (fun u v => u.site.index < v.site.index)
  closing_first : ∀ u ∈ found, ∀ v ∈ found, u.bracket = .closing → v.bracket = .opening → u.site.index < v.site.index

variable {is : List Instruction} {pending : List Site}

@[simp]
theorem mem_indicesOf {found : List UnmatchedBracket} {n : Nat} :
    n ∈ indicesOf found ↔ ∃ u ∈ found, u.site.index = n := by
  simp [indicesOf]

/-! ## One step of the matching -/

@[simp]
theorem unmatchedFrom_opening (site : Site) :
    unmatchedFrom pending (⟨site, .opening⟩ :: is) = unmatchedFrom (site :: pending) is := rfl

@[simp]
theorem unmatchedFrom_closing_nil (site : Site) :
    unmatchedFrom [] (⟨site, .closing⟩ :: is) = ⟨.closing, site⟩ :: unmatchedFrom [] is := rfl

@[simp]
theorem unmatchedFrom_closing_cons (site inner : Site) :
    unmatchedFrom (inner :: pending) (⟨site, .closing⟩ :: is) = unmatchedFrom pending is := rfl

theorem unmatchedFrom_basic {i : Instruction} (h : i.op.isBracket = false) :
    unmatchedFrom pending (i :: is) = unmatchedFrom pending is := by
  obtain ⟨site, op⟩ := i
  cases op <;> first | rfl | cases h

theorem length_unmatchedFrom_nil (pending : List Site) : (unmatchedFrom pending []).length = pending.length := by
  simp [unmatchedFrom]

/-! ## Source order -/

/-- **The unmatched sites are some of the open ones and of those that follow**, in the order of the text. -/
theorem sites_unmatchedFrom_sublist : ∀ (is : List Instruction) (pending : List Site),
    ((unmatchedFrom pending is).map UnmatchedBracket.site).Sublist (pending.reverse ++ is.map Instruction.toSite)
  | [], pending => by simp [unmatchedFrom, Function.comp_def]
  | ⟨site, op⟩ :: is, pending => by
    cases op with
    | opening => simpa using sites_unmatchedFrom_sublist is (site :: pending)
    | closing =>
      cases pending with
      | nil => simpa using sites_unmatchedFrom_sublist is []
      | cons inner outer =>
        refine (sites_unmatchedFrom_sublist is outer).trans ?_
        rw [List.reverse_cons, List.append_assoc]
        exact List.Sublist.append_left ((List.sublist_cons_self _ _).cons _) _
    | _ =>
      refine (sites_unmatchedFrom_sublist is pending).trans ?_
      exact List.Sublist.append_left (List.sublist_cons_self _ _) _

/-- After an unmatched `[` there is no unmatched `]`. -/
theorem pairwise_bracket_unmatchedFrom : ∀ (is : List Instruction) (pending : List Site),
    (unmatchedFrom pending is).Pairwise (fun u v => u.bracket = .opening → v.bracket = .opening)
  | [], pending => List.pairwise_map.2 (List.pairwise_of_forall (fun _ _ _ => rfl))
  | ⟨site, op⟩ :: is, pending => by
    cases op with
    | opening => exact pairwise_bracket_unmatchedFrom is (site :: pending)
    | closing =>
      cases pending with
      | nil => exact List.pairwise_cons.2 ⟨fun _ _ => nofun, pairwise_bracket_unmatchedFrom is []⟩
      | cons inner outer => exact pairwise_bracket_unmatchedFrom is outer
    | _ => exact pairwise_bracket_unmatchedFrom is pending

section InOrder

variable (h : InOrder is)
include h

theorem InOrder.pairwise_sites : (is.map Instruction.toSite).Pairwise (fun s t => s.index < t.index) :=
  List.pairwise_map.2 h

theorem InOrder.nodup_indices : (is.map (fun i => i.index)).Nodup :=
  List.pairwise_map.2 (h.imp (fun hlt => Nat.ne_of_lt hlt))

theorem InOrder.pairwise_unmatched : (unmatched is).Pairwise (fun u v => u.site.index < v.site.index) := by
  have hsites : ((unmatched is).map UnmatchedBracket.site).Pairwise (fun s t => s.index < t.index) :=
    h.pairwise_sites.sublist (sites_unmatchedFrom_sublist is [])
  rwa [List.pairwise_map] at hsites

theorem InOrder.closing_lt_opening {u v : UnmatchedBracket} (hu : u ∈ unmatched is) (hv : v ∈ unmatched is)
    (hc : u.bracket = .closing) (ho : v.bracket = .opening) : u.site.index < v.site.index := by
  have hboth := h.pairwise_unmatched.and (pairwise_bracket_unmatchedFrom is [])
  obtain ⟨m, hm, rfl⟩ := List.getElem_of_mem hu
  obtain ⟨n, hn, rfl⟩ := List.getElem_of_mem hv
  rcases Nat.lt_trichotomy m n with hlt | rfl | hgt
  · exact (List.pairwise_iff_getElem.1 hboth m n hm hn hlt).1
  · rw [hc] at ho
    cases ho
  · have hopen := (List.pairwise_iff_getElem.1 hboth n m hn hm hgt).2 ho
    rw [hc] at hopen
    cases hopen

theorem InOrder.exists_named {u : UnmatchedBracket} (hu : u ∈ unmatched is) :
    ∃ i ∈ is, i.toSite = u.site ∧ i.op = u.bracket.toOp ∧ ∀ j ∈ is, j.index = u.site.index → j = i := by
  obtain ⟨i, hi, hs, ho⟩ := exists_of_mem_unmatched hu
  refine ⟨i, hi, hs, ho, fun j hj heq => ?_⟩
  rw [← hs] at heq
  exact List.inj_on_of_nodup_map h.nodup_indices hj hi heq

theorem InOrder.card_indicesOf : (indicesOf (unmatched is)).card = (unmatched is).length := by
  have hnodup : ((unmatched is).map (fun u => u.site.index)).Nodup :=
    List.pairwise_map.2 (h.pairwise_unmatched.imp (fun hlt => Nat.ne_of_lt hlt))
  rw [indicesOf, List.toFinset_card_of_nodup hnodup, List.length_map]

end InOrder

/-! ## Deleting the unmatched brackets mends the list -/

theorem without_cons_of_mem {D : Finset Nat} {i : Instruction} (h : i.index ∈ D) :
    without D (i :: is) = without D is := by
  simp [without, h]

theorem without_cons_of_not_mem {D : Finset Nat} {i : Instruction} (h : i.index ∉ D) :
    without D (i :: is) = i :: without D is := by
  simp [without, h]

/-- A `[` and its `]` are not among the unmatched brackets: their sites differ from all others. -/
theorem not_unmatched_of_pair {outer : List Site} {inner site s : Site}
    (h : (outer.reverse ++ inner :: site :: is.map Instruction.toSite).Pairwise (fun s t => s.index < t.index))
    (hs : s = inner ∨ s = site) : ¬ ∃ u ∈ unmatchedFrom outer is, u.site.index = s.index := by
  rintro ⟨u, hu, heq⟩
  obtain ⟨-, hpair, hbefore⟩ := List.pairwise_append.1 h
  obtain ⟨hinner, hrest⟩ := List.pairwise_cons.1 hpair
  obtain ⟨hsite, -⟩ := List.pairwise_cons.1 hrest
  rcases List.mem_append.1 ((sites_unmatchedFrom_sublist is outer).subset (List.mem_map_of_mem hu)) with hmem | hmem
  · have hlt : u.site.index < s.index := hbefore _ hmem s (by rcases hs with rfl | rfl <;> simp)
    omega
  · have hlt : s.index < u.site.index := by
      rcases hs with rfl | rfl
      · exact hinner _ (List.mem_cons_of_mem _ hmem)
      · exact hsite _ hmem
    omega

/-- What is left has no unmatched bracket.  `D` is fixed throughout, so the step only asks of it that it holds those of
the indices ahead, and of the open `[`, that belong to an unmatched bracket. -/
theorem unmatchedFrom_without {D : Finset Nat} : ∀ (is : List Instruction) (pending : List Site),
    (pending.reverse ++ is.map Instruction.toSite).Pairwise (fun s t => s.index < t.index) →
    (∀ s ∈ pending.reverse ++ is.map Instruction.toSite,
      s.index ∈ D ↔ ∃ u ∈ unmatchedFrom pending is, u.site.index = s.index) →
    unmatchedFrom (pending.filter (fun s => s.index ∉ D)) (without D is) = []
  | [], pending, _, hD => by
    have hnone : pending.filter (fun s => s.index ∉ D) = [] := by
      refine List.filter_eq_nil_iff.2 (fun s hs => ?_)
      have hmem := (hD s (by simpa using hs)).2 ⟨⟨.opening, s⟩, by simp [unmatchedFrom, hs], rfl⟩
      simp [hmem]
    rw [hnone]
    rfl
  | ⟨site, op⟩ :: is, pending, hsorted, hD => by
    cases op with
    | opening =>
      have ih := unmatchedFrom_without is (site :: pending) (by simpa using hsorted) (by simpa using hD)
      by_cases hs : site.index ∈ D
      · rw [without_cons_of_mem hs]
        simpa [hs] using ih
      · rw [without_cons_of_not_mem hs]
        simpa [hs] using ih
    | closing =>
      cases pending with
      | nil =>
        have hs : site.index ∈ D := (hD site (by simp)).2 ⟨_, List.mem_cons_self, rfl⟩
        obtain ⟨hlt, hrest⟩ := List.pairwise_cons.1 hsorted
        rw [without_cons_of_mem hs]
        refine unmatchedFrom_without is [] hrest (fun s hmem => ?_)
        rw [hD s (List.mem_cons_of_mem _ hmem), unmatchedFrom_closing_nil]
        have hne : site.index ≠ s.index := Nat.ne_of_lt (hlt s hmem)
        simp [hne]
      | cons inner outer =>
        rw [List.reverse_cons, List.append_assoc] at hsorted hD
        have hsub : (outer.reverse ++ is.map Instruction.toSite).Sublist
            (outer.reverse ++ ([inner] ++ (⟨site, .closing⟩ :: is).map Instruction.toSite)) :=
          List.Sublist.append_left ((List.sublist_cons_self _ _).cons _) _
        have hinner : inner.index ∉ D := by
          rw [hD inner (by simp), unmatchedFrom_closing_cons]
          exact not_unmatched_of_pair hsorted (.inl rfl)
        have hsite : site.index ∉ D := by
          rw [hD site (by simp), unmatchedFrom_closing_cons]
          exact not_unmatched_of_pair hsorted (.inr rfl)
        rw [without_cons_of_not_mem hsite, List.filter_cons_of_pos (by simpa using hinner)]
        exact unmatchedFrom_without is outer (hsorted.sublist hsub) (fun s hs => hD s (hsub.subset hs))
    | _ =>
      have hsub : (pending.reverse ++ is.map Instruction.toSite).Sublist
          (pending.reverse ++ site :: is.map Instruction.toSite) :=
        List.Sublist.append_left (List.sublist_cons_self _ _) _
      have ih := unmatchedFrom_without is pending (hsorted.sublist hsub) (fun s hs => hD s (hsub.subset hs))
      by_cases hs : site.index ∈ D
      · rw [without_cons_of_mem hs]
        exact ih
      · rw [without_cons_of_not_mem hs]
        exact ih

theorem InOrder.unmatched_without (h : InOrder is) : unmatched (without (indicesOf (unmatched is)) is) = [] :=
  unmatchedFrom_without is [] h.pairwise_sites (fun _ _ => mem_indicesOf)

/-! ## No other way is cheaper -/

/-- **One open `[` more or less makes a difference of one.** -/
theorem length_unmatchedFrom_deeper : ∀ (is : List Instruction) (p q : List Site), q.length = p.length + 1 →
    (unmatchedFrom p is).length ≤ (unmatchedFrom q is).length + 1 ∧
      (unmatchedFrom q is).length ≤ (unmatchedFrom p is).length + 1
  | [], p, q, h => by
    rw [length_unmatchedFrom_nil, length_unmatchedFrom_nil]
    omega
  | ⟨site, op⟩ :: is, p, q, h => by
    cases op with
    | opening => exact length_unmatchedFrom_deeper is (site :: p) (site :: q) (by simp [h])
    | closing =>
      cases q with
      | nil => cases h
      | cons inner q =>
        cases p with
        | nil =>
          obtain rfl : q = [] := by simpa using h
          simp
          omega
        | cons inner' p => exact length_unmatchedFrom_deeper is p q (by simpa using h)
    | _ => exact length_unmatchedFrom_deeper is p q h

theorem length_unmatchedFrom_cons_le (i : Instruction) (is : List Instruction) (pending : List Site) :
    (unmatchedFrom pending (i :: is)).length ≤ (unmatchedFrom pending is).length + 1 := by
  obtain ⟨site, op⟩ := i
  cases op with
  | opening => exact (length_unmatchedFrom_deeper is pending (site :: pending) rfl).2
  | closing =>
    cases pending with
    | nil => simp
    | cons inner outer => exact (length_unmatchedFrom_deeper is outer (inner :: outer) rfl).1
  | _ => exact Nat.le_succ _

/-- **A deletion saves one unmatched bracket at most.** -/
theorem length_unmatchedFrom_sublist {kept is : List Instruction} (h : kept.Sublist is) : ∀ (pending : List Site),
    (unmatchedFrom pending is).length + kept.length ≤ (unmatchedFrom pending kept).length + is.length := by
  induction h with
  | slnil =>
    intro pending
    exact Nat.le_refl _
  | @cons kept is i _ ih =>
    intro pending
    have hi := length_unmatchedFrom_cons_le i is pending
    have := ih pending
    rw [List.length_cons]
    omega
  | @cons_cons kept is i _ ih =>
    intro pending
    obtain ⟨site, op⟩ := i
    rw [List.length_cons, List.length_cons]
    cases op with
    | opening =>
      have := ih (site :: pending)
      simp
      omega
    | closing =>
      cases pending with
      | nil =>
        have := ih []
        simp
        omega
      | cons inner outer =>
        have := ih outer
        simp
        omega
    | _ =>
      have := ih pending
      rw [unmatchedFrom_basic rfl, unmatchedFrom_basic rfl]
      omega

theorem InOrder.length_le_card_add (h : InOrder is) (indices : Finset Nat) :
    is.length ≤ (without indices is).length + indices.card := by
  have hsplit := List.length_eq_length_filter_add (l := is) (fun i => decide (i.index ∉ indices))
  have hdeleted : (is.filter (fun i => !decide (i.index ∉ indices))).length ≤ indices.card := by
    have hnodup : ((is.filter (fun i => !decide (i.index ∉ indices))).map (fun i => i.index)).Nodup :=
      h.nodup_indices.sublist (List.filter_sublist.map _)
    rw [← List.length_map (fun i => i.index), ← List.toFinset_card_of_nodup hnodup]
    refine Finset.card_le_card (fun n hn => ?_)
    simp at hn
    obtain ⟨i, ⟨-, hi⟩, rfl⟩ := hn
    exact hi
  rw [without]
  omega

theorem InOrder.length_unmatched_le_card (h : InOrder is) {indices : Finset Nat}
    (hmends : ∃ j, Jumps.build (without indices is) = .ok j) : (unmatched is).length ≤ indices.card := by
  have hnone : unmatchedFrom [] (without indices is) = [] := Jumps.exists_build_eq_ok_iff.1 hmends
  have hkept : (without indices is).Sublist is := List.filter_sublist
  have hsaved := length_unmatchedFrom_sublist hkept []
  have hdeleted := h.length_le_card_add indices
  rw [hnone, List.length_nil] at hsaved
  rw [unmatched]
  omega

theorem InOrder.leastRepair (h : InOrder is) : LeastRepair is (unmatched is) where
  names _ hu := h.exists_named hu
  card_eq := h.card_indicesOf
  mends := Jumps.exists_build_eq_ok_iff.2 h.unmatched_without
  least _ hmends := h.length_unmatched_le_card hmends
  sorted := h.pairwise_unmatched
  closing_first _ hu _ hv hc ho := h.closing_lt_opening hu hv hc ho

/-- **The unmatched brackets are the least repair**, of any instructions in order, and so of every source text. -/
theorem unmatched_is_least_repair :
    (∀ is, InOrder is → LeastRepair is (unmatched is)) ∧
      ∀ source, InOrder (instructionsOf source) ∧ LeastRepair (instructionsOf source) (diagnose source) := by
  refine ⟨fun is h => h.leastRepair, fun source => ?_⟩
  have horder : InOrder (instructionsOf source) := pairwise_instructionsFrom source.toList 0 .start
  exact ⟨horder, horder.leastRepair⟩

/-- Two brackets are at fault, and no single deletion helps. -/
theorem unmatched_is_least_repair_two_faults :
    let is := instructionsOf "]+[[]"
    InOrder is ∧ indicesOf (unmatched is) = {0, 2} ∧ ∀ n, ¬ ∃ j, Jumps.build (without {n} is) = .ok j := by
  intro is
  have horder : InOrder is := by
    show List.Pairwise (fun i j => i.index < j.index) (instructionsOf "]+[[]")
    decide
  refine ⟨horder, by decide, fun n hmends => ?_⟩
  have hle := (unmatched_is_least_repair.1 is horder).least {n} hmends
  have htwo : (unmatched is).length = 2 := by decide
  rw [htwo, Finset.card_singleton] at hle
  omega

end Brainfuck
