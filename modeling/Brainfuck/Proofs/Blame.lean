import Brainfuck.Proofs.Truncation
/-!
# Whom an error blames

An error that has a site was caused by one instruction, and `RunError.culprit?` says of which operation.  In a run it is
the instruction at which the run stopped (`Program.blames_of_turn`); a bracket without a partner blames itself
(`exists_of_mem_unmatched`).  A text is refused for the first of its unmatched brackets (`Jumps.build_eq_error_iff`), so
what holds of all that are listed holds of the one that is reported.
-/
namespace Brainfuck

def Bracket.toOp : Bracket → Op
  | .opening => .opening
  | .closing => .closing

namespace RunError

/-- The operation that caused an error, if one did. -/
def culprit? : RunError → Option Op
  | .unmatched u => some u.bracket.toOp
  | .underflow _ => some .left
  | .overflow _ _ => some .right
  | .sink _ _ => some .output
  | .stepLimit _ | .deadline _ | .cancelled _ => none

/-- If the error has a site, an instruction of the list stands there and is the one that caused it. -/
def Blames (e : RunError) (is : List Instruction) : Prop :=
  ∀ site, e.site? = some site → ∃ i ∈ is, i.toSite = site ∧ e.culprit? = some i.op

theorem blames_of_site?_eq_none {e : RunError} (h : e.site? = none) (is : List Instruction) : e.Blames is := by
  intro site hs
  rw [h] at hs
  cases hs

theorem blames_of_mem {e : RunError} {is : List Instruction} {i : Instruction} (hi : i ∈ is)
    (h : e.site? = some i.toSite ∧ e.culprit? = some i.op) : e.Blames is := by
  intro site hs
  rw [h.1, Option.some.injEq] at hs
  exact ⟨i, hi, hs, h.2⟩

end RunError

/-! ## Unmatched brackets -/

/-- What is listed as unmatched was open before, or is a bracket of the list. -/
theorem exists_of_mem_unmatchedFrom {u : UnmatchedBracket} : ∀ (is : List Instruction) (pending : List Site),
    u ∈ unmatchedFrom pending is →
      (u.bracket = .opening ∧ u.site ∈ pending) ∨ ∃ i ∈ is, i.toSite = u.site ∧ i.op = u.bracket.toOp
  | [], pending, h => by
    simp only [unmatchedFrom, List.mem_map, List.mem_reverse] at h
    obtain ⟨site, hs, rfl⟩ := h
    exact .inl ⟨rfl, hs⟩
  | ⟨site, op⟩ :: is, pending, h => by
    have hlater : (∃ i ∈ is, i.toSite = u.site ∧ i.op = u.bracket.toOp) →
        ∃ i ∈ ⟨site, op⟩ :: is, i.toSite = u.site ∧ i.op = u.bracket.toOp :=
      fun ⟨i, hi, hu⟩ => ⟨i, List.mem_cons_of_mem _ hi, hu⟩
    cases op with
    | opening =>
      obtain ⟨hb, hs⟩ | hi := exists_of_mem_unmatchedFrom is (site :: pending) h
      · rcases List.mem_cons.1 hs with hs | hs
        · exact .inr ⟨⟨site, .opening⟩, List.mem_cons_self, hs.symm, by rw [hb]; rfl⟩
        · exact .inl ⟨hb, hs⟩
      · exact .inr (hlater hi)
    | closing =>
      cases pending with
      | nil =>
        rcases List.mem_cons.1 h with rfl | h
        · exact .inr ⟨⟨site, .closing⟩, List.mem_cons_self, rfl, rfl⟩
        · obtain ⟨-, hs⟩ | hi := exists_of_mem_unmatchedFrom is [] h
          · cases hs
          · exact .inr (hlater hi)
      | cons open' outer =>
        obtain ⟨hb, hs⟩ | hi := exists_of_mem_unmatchedFrom is outer h
        · exact .inl ⟨hb, List.mem_cons_of_mem _ hs⟩
        · exact .inr (hlater hi)
    | _ =>
      obtain hs | hi := exists_of_mem_unmatchedFrom is pending h
      · exact .inl hs
      · exact .inr (hlater hi)

theorem exists_of_mem_unmatched {u : UnmatchedBracket} {is : List Instruction} (h : u ∈ unmatched is) :
    ∃ i ∈ is, i.toSite = u.site ∧ i.op = u.bracket.toOp := by
  obtain ⟨-, hs⟩ | hi := exists_of_mem_unmatchedFrom is [] h
  · cases hs
  · exact hi

theorem blames_of_mem_unmatched {u : UnmatchedBracket} {is : List Instruction} (h : u ∈ unmatched is) :
    (RunError.unmatched u).Blames is := by
  obtain ⟨i, hi, hs, ho⟩ := exists_of_mem_unmatched h
  exact RunError.blames_of_mem hi ⟨congrArg some hs.symm, congrArg some ho.symm⟩

namespace Jumps

/-- The matcher and the list of unmatched brackets hold the same `[` open, so they come upon the first bad bracket
together. -/
theorem buildFrom_eq_error_iff {u : UnmatchedBracket} : ∀ (is : List Instruction) (pending : List (Nat × Site))
    (targets : Array (Option Nat)),
    buildFrom pending targets is = .error u ↔ (unmatchedFrom (pending.map Prod.snd) is).head? = some u
  | [], pending, targets => by
    -- `pending` has the innermost bracket first, so the first in the text is its last
    simp only [buildFrom, unmatchedFrom, List.head?_map, List.head?_reverse, List.getLast?_map]
    cases pending.getLast? <;> simp
  | ⟨site, op⟩ :: is, pending, targets => by
    cases op with
    | opening => exact buildFrom_eq_error_iff is ((targets.size, site) :: pending) (targets.push none)
    | closing =>
      cases pending with
      | nil => simp [buildFrom, unmatchedFrom]
      | cons opener outer => exact buildFrom_eq_error_iff is outer _
    | _ => exact buildFrom_eq_error_iff is pending (targets.push none)

theorem build_eq_error_iff {is : List Instruction} {u : UnmatchedBracket} :
    build is = .error u ↔ (unmatched is).head? = some u :=
  buildFrom_eq_error_iff is [] #[]

theorem exists_build_eq_ok_iff {is : List Instruction} : (∃ j, build is = .ok j) ↔ unmatched is = [] := by
  cases hu : (unmatched is).head? with
  | none =>
    refine iff_of_true ?_ (List.head?_eq_none_iff.1 hu)
    cases hb : build is with
    | ok j => exact ⟨j, rfl⟩
    | error u =>
      rw [build_eq_error_iff.1 hb] at hu
      cases hu
  | some u =>
    rw [build_eq_error_iff.2 hu]
    exact iff_of_false (fun ⟨_, h⟩ => nomatch h) (fun h => by simp [h] at hu)

end Jumps

namespace Program

theorem ofInstructions_eq_error_iff {is : List Instruction} {u : UnmatchedBracket} :
    ofInstructions is = .error u ↔ (unmatched is).head? = some u := by
  rw [← Jumps.build_eq_error_iff, ofInstructions]
  split <;> simp_all

theorem ofInstructions_eq_ok_iff {is : List Instruction} {p : Program} :
    ofInstructions is = .ok p ↔ p.instructions.toList = is := by
  unfold ofInstructions
  constructor
  · intro h
    split at h
    · cases h
      exact List.toList_toArray
    · cases h
  · rintro rfl
    obtain ⟨instructions, jumps, resolved⟩ := p
    split
    · rename_i jumps' h
      rw [resolved] at h
      cases h
      rfl
    · rename_i u h
      rw [resolved] at h
      cases h

theorem parse_eq_error_iff {source : String} {u : UnmatchedBracket} :
    parse source = .error u ↔ (diagnose source).head? = some u :=
  ofInstructions_eq_error_iff

end Program

/-! ## Runs -/

theorem Tape.exists_of_moveRight_eq_error {t : Tape} {fault : TapeFault} (h : t.moveRight = .error fault) :
    ∃ most, fault = .overflow most := by
  unfold moveRight at h
  split at h
  · cases h
  · split at h
    · cases h
    · cases h
      exact ⟨_, rfl⟩

theorem Tape.eq_of_moveLeft_eq_error {t : Tape} {fault : TapeFault} (h : t.moveLeft = .error fault) :
    fault = .underflow := by
  obtain ⟨cells, pointer, limit, highWater, hp, hw⟩ := t
  cases pointer <;> cases h
  rfl

theorem Basic.culprit_of_failed {σ ι : Type} {w : Setting σ ι} {site : Site} {s t : Scene σ ι} {e : RunError}
    {a : Basic} (h : a.perform w site s = .failed e t) : e.site? = some site ∧ e.culprit? = some a.toOp := by
  obtain ⟨fault, rfl, hm, rfl, -⟩ | ⟨fault, rfl, hm, rfl, -⟩ | ⟨out, cause, rfl, -, rfl, -⟩ := failed_cases h
  · obtain ⟨most, rfl⟩ := Tape.exists_of_moveRight_eq_error hm
    exact ⟨rfl, rfl⟩
  · obtain rfl := Tape.eq_of_moveLeft_eq_error hm
    exact ⟨rfl, rfl⟩
  · exact ⟨rfl, rfl⟩

theorem Setting.Verdict.site?_eq_none {σ ι : Type} {w : Setting σ ι} {k : Nat} {s : State σ ι} {e : RunError}
    (h : w.Verdict k s e) : e.site? = none := by
  cases h <;> rfl

namespace Program

variable {σ ι : Type} {p : Program} {w : Setting σ ι} {s : State σ ι} {r : Report σ ι} {e : RunError}

/-- **A run that fails blames the instruction at which it stopped**, or none at all. -/
theorem blames_of_turn (h : p.turn w s = .ended r) (he : r.result = .error e) : e.Blames p.instructions.toList := by
  obtain ⟨-, rfl⟩ | ⟨x, hx, rfl⟩ | ⟨i, a, x, final, hi, ha, hx, rfl⟩ := turn_ended_cases h
  · cases he
  · cases he
    exact RunError.blames_of_site?_eq_none (Setting.stop?_eq_some_iff.1 hx).site?_eq_none _
  · cases he
    have hmem : i ∈ p.instructions.toList := Array.mem_toList_iff.2 (Array.mem_of_getElem? hi)
    refine RunError.blames_of_mem hmem ?_
    rw [ha]
    exact a.culprit_of_failed hx

theorem blames_of_run {patience : Nat} {sink : σ} {input : ι} (h : p.run w patience sink input = some r)
    (he : r.result = .error e) : e.Blames p.instructions.toList := by
  obtain ⟨n, -, t, -, ht⟩ := runFor_eq_some_iff.1 h
  exact blames_of_turn ht he

end Program

/-- Runs an instruction list; of a source text it is what is run (`runSource_eq`). -/
def runInstructions {σ ι : Type} (w : Setting σ ι) (patience : Nat) (is : List Instruction) (sink : σ) (input : ι) :
    Option (Outcome σ ι) :=
  match Program.ofInstructions is with
  | .error u => some ⟨.error (.unmatched u), sink, input⟩
  | .ok p => (p.run w patience sink input).map (fun r => ⟨r.result, r.final.sink, r.final.input⟩)

theorem runSource_eq {σ ι : Type} (w : Setting σ ι) (patience : Nat) (source : String) (sink : σ) (input : ι) :
    runSource w patience source sink input = runInstructions w patience (instructionsOf source) sink input := rfl

/-- **Whatever becomes of some instructions, an error blames one of them.** -/
theorem blames_of_runInstructions {σ ι : Type} {w : Setting σ ι} {patience : Nat} {is : List Instruction} {sink : σ}
    {input : ι} {o : Outcome σ ι} {e : RunError} (h : runInstructions w patience is sink input = some o)
    (he : o.result = .error e) : e.Blames is := by
  unfold runInstructions at h
  cases hp : Program.ofInstructions is with
  | error u =>
    rw [hp] at h
    cases h
    cases he
    exact blames_of_mem_unmatched (List.mem_of_head? (Program.ofInstructions_eq_error_iff.1 hp))
  | ok p =>
    rw [hp] at h
    obtain ⟨r, hr, rfl⟩ := Option.map_eq_some_iff.1 h
    rw [← Program.ofInstructions_eq_ok_iff.1 hp]
    exact Program.blames_of_run hr he

end Brainfuck
