import Mathlib.Data.List.Forall2
import Brainfuck.Proofs.Caret
import Brainfuck.Proofs.Lockstep
import Brainfuck.Proofs.Relocation
/-!
# Comments change nothing

Two texts with the same instruction characters, in the same order, have the same operations; only the sites differ.
Both instruction lists are then relocations of one list, in which each operation stands at its own number (`numbered`),
and so all that is computed of them is a relocation of what is computed of that list.  What remains of a site is the
number of its instruction (`SameFault`).  So comments can be put in and taken out anywhere
(`comments_change_nothing`).
-/
namespace Brainfuck

def instructionChars (source : String) : List Char :=
  source.toList.filter (fun c => c ∈ ['>', '<', '+', '-', '.', ',', '[', ']'])

/-! ## Operations and their sites -/

theorem map_op_instructionsFrom : ∀ (cs : List Char) (index : Nat) (location : Location),
    (instructionsFrom index location cs).map Instruction.op = cs.filterMap Op.ofChar?
  | [], _, _ => rfl
  | c :: cs, index, location => by
    have ih := map_op_instructionsFrom cs (index + 1) (location.after c)
    simp only [instructionsFrom]
    cases hop : Op.ofChar? c with
    | none => rw [List.filterMap_cons_none hop, ih]
    | some op => rw [List.filterMap_cons_some hop, List.map_cons, ih]

theorem ofChar?_eq_none {c : Char} (h : c ∉ ['>', '<', '+', '-', '.', ',', '[', ']']) : Op.ofChar? c = none := by
  unfold Op.ofChar?
  split <;> simp at h ⊢

theorem map_op_instructionsOf (source : String) :
    (instructionsOf source).map Instruction.op = (instructionChars source).filterMap Op.ofChar? := by
  rw [instructionsOf, map_op_instructionsFrom, instructionChars, List.filterMap_filter]
  refine List.filterMap_congr (fun c _ => ?_)
  by_cases hc : c ∈ ['>', '<', '+', '-', '.', ',', '[', ']']
  · simp only [hc, decide_true, if_true]
  · simp only [hc, decide_false, ofChar?_eq_none hc]
    rfl

theorem pairwise_instructionsFrom : ∀ (cs : List Char) (index : Nat) (location : Location),
    (instructionsFrom index location cs).Pairwise (fun i j => i.index < j.index)
  | [], _, _ => .nil
  | c :: cs, index, location => by
    have ih := pairwise_instructionsFrom cs (index + 1) (location.after c)
    simp only [instructionsFrom]
    cases Op.ofChar? c with
    | none => exact ih
    | some op =>
      refine List.pairwise_cons.2 ⟨fun j hj => ?_, ih⟩
      obtain ⟨pre, -, -, hindex, -⟩ := exists_of_mem_instructionsFrom hj
      rw [hindex]
      show index < index + 1 + pre.length
      omega

/-- A site belongs to one instruction only, and so to one number. -/
theorem nodup_sites (source : String) : ((instructionsOf source).map Instruction.toSite).Nodup :=
  (pairwise_instructionsFrom source.toList 0 .start).map Instruction.toSite
    (fun _ _ hlt heq => Nat.ne_of_lt hlt (congrArg Site.index heq))

/-! ## Instructions by number -/

/-- These operations, each at the site that has its number for an index. -/
def numbered (ops : List Op) : List Instruction := ops.mapIdx (fun k op => ⟨⟨k, .start⟩, op⟩)

def siteIn (is : List Instruction) (s : Site) : Site := (is[s.index]?.map Instruction.toSite).getD s

theorem relocate_numbered (is : List Instruction) :
    (numbered (is.map Instruction.op)).map (Instruction.relocate (siteIn is)) = is := by
  refine List.ext_getElem? (fun k => ?_)
  rw [numbered, List.getElem?_map, List.getElem?_mapIdx, List.getElem?_map]
  cases hk : is[k]? with
  | none => rfl
  | some i => simp [Instruction.relocate, siteIn, hk]

/-- Two errors of one kind and with the same particulars, about instructions of the same number in these two lists. -/
inductive SameFault (is js : List Instruction) : RunError → RunError → Prop where
  | unmatched {k : Nat} {i j : Instruction} (bracket : Bracket) (hi : is[k]? = some i) (hj : js[k]? = some j) :
      SameFault is js (.unmatched ⟨bracket, i.toSite⟩) (.unmatched ⟨bracket, j.toSite⟩)
  | underflow {k : Nat} {i j : Instruction} (hi : is[k]? = some i) (hj : js[k]? = some j) :
      SameFault is js (.underflow i.toSite) (.underflow j.toSite)
  | overflow {k : Nat} {i j : Instruction} (limit : Nat) (hi : is[k]? = some i) (hj : js[k]? = some j) :
      SameFault is js (.overflow i.toSite limit) (.overflow j.toSite limit)
  | sink {k : Nat} {i j : Instruction} (cause : String) (hi : is[k]? = some i) (hj : js[k]? = some j) :
      SameFault is js (.sink i.toSite cause) (.sink j.toSite cause)
  | stepLimit (limit : Nat) : SameFault is js (.stepLimit limit) (.stepLimit limit)
  | deadline (limit : Nat) : SameFault is js (.deadline limit) (.deadline limit)
  | cancelled (steps : Nat) : SameFault is js (.cancelled steps) (.cancelled steps)

/-- Two outcomes alike in the statistics or the fault, in the state of the sink and in that of the input. -/
inductive SameOutcome (is js : List Instruction) {σ ι : Type} : Outcome σ ι → Outcome σ ι → Prop where
  | completed (stats : Stats) (sink : σ) (input : ι) :
      SameOutcome is js ⟨.ok stats, sink, input⟩ ⟨.ok stats, sink, input⟩
  | failed {e e' : RunError} (h : SameFault is js e e') (sink : σ) (input : ι) :
      SameOutcome is js ⟨.error e, sink, input⟩ ⟨.error e', sink, input⟩

section SameOperations

variable {is js : List Instruction} (hops : is.map Instruction.op = js.map Instruction.op)
include hops

theorem relocate_numbered_of_map_op_eq :
    (numbered (is.map Instruction.op)).map (Instruction.relocate (siteIn js)) = js := by
  rw [hops, relocate_numbered]

theorem exists_of_mem_numbered {i : Instruction} (hi : i ∈ numbered (is.map Instruction.op)) :
    ∃ (k : Nat) (a b : Instruction), is[k]? = some a ∧ js[k]? = some b ∧
      siteIn is i.toSite = a.toSite ∧ siteIn js i.toSite = b.toSite := by
  obtain ⟨k, hk, rfl⟩ := List.mem_mapIdx.1 hi
  have hlength : is.length = js.length := by simpa using congrArg List.length hops
  rw [List.length_map] at hk
  have hk' : k < js.length := hlength ▸ hk
  have ha : is[k]? = some is[k] := List.getElem?_eq_getElem hk
  have hb : js[k]? = some js[k] := List.getElem?_eq_getElem hk'
  exact ⟨k, _, _, ha, hb, by simp [siteIn, ha], by simp [siteIn, hb]⟩

/-- An error about a numbered instruction, put at its place in the one list and in the other. -/
theorem sameFault_relocate {e : RunError} (he : e.Blames (numbered (is.map Instruction.op))) :
    SameFault is js (e.relocate (siteIn is)) (e.relocate (siteIn js)) := by
  have hsite : ∀ site, e.site? = some site → ∃ (k : Nat) (a b : Instruction), is[k]? = some a ∧ js[k]? = some b ∧
      siteIn is site = a.toSite ∧ siteIn js site = b.toSite := by
    intro site hs
    obtain ⟨i, hi, rfl, -⟩ := he site hs
    exact exists_of_mem_numbered hops hi
  cases e with
  | unmatched u =>
    obtain ⟨k, a, b, ha, hb, hsa, hsb⟩ := hsite u.site rfl
    simp only [RunError.relocate, UnmatchedBracket.relocate, hsa, hsb]
    exact .unmatched u.bracket ha hb
  | underflow site =>
    obtain ⟨k, a, b, ha, hb, hsa, hsb⟩ := hsite site rfl
    simp only [RunError.relocate, hsa, hsb]
    exact .underflow ha hb
  | overflow site limit =>
    obtain ⟨k, a, b, ha, hb, hsa, hsb⟩ := hsite site rfl
    simp only [RunError.relocate, hsa, hsb]
    exact .overflow limit ha hb
  | sink site cause =>
    obtain ⟨k, a, b, ha, hb, hsa, hsb⟩ := hsite site rfl
    simp only [RunError.relocate, hsa, hsb]
    exact .sink cause ha hb
  | stepLimit limit => exact .stepLimit limit
  | deadline limit => exact .deadline limit
  | cancelled steps => exact .cancelled steps

theorem forall₂_unmatched : List.Forall₂ (fun u v => SameFault is js (.unmatched u) (.unmatched v))
    (unmatched is) (unmatched js) := by
  -- both lists are what is unmatched among the numbered instructions, relocated
  have hu := unmatched_relocate (siteIn is) (numbered (is.map Instruction.op))
  have hv := unmatched_relocate (siteIn js) (numbered (is.map Instruction.op))
  rw [relocate_numbered] at hu
  rw [relocate_numbered_of_map_op_eq hops] at hv
  rw [hu, hv, List.forall₂_map_left_iff, List.forall₂_map_right_iff, List.forall₂_same]
  intro u hmem
  exact sameFault_relocate hops (blames_of_mem_unmatched hmem)

theorem exists_ofInstructions_eq_ok_iff :
    (∃ p, Program.ofInstructions is = .ok p) ↔ ∃ q, Program.ofInstructions js = .ok q := by
  have hp := Program.ofInstructions_relocate (siteIn is) (numbered (is.map Instruction.op))
  have hq := Program.ofInstructions_relocate (siteIn js) (numbered (is.map Instruction.op))
  rw [relocate_numbered] at hp
  rw [relocate_numbered_of_map_op_eq hops] at hq
  rw [hp, hq]
  cases Program.ofInstructions (numbered (is.map Instruction.op)) with
  | ok p => exact iff_of_true ⟨_, rfl⟩ ⟨_, rfl⟩
  | error u => exact iff_of_false (fun ⟨_, h⟩ => nomatch h) (fun ⟨_, h⟩ => nomatch h)

/-- **Two lists of the same operations run alike**, wherever the instructions stand. -/
theorem runInstructions_sameOutcome {σ ι : Type} (w : Setting σ ι) (patience : Nat) (sink : σ) (input : ι) :
    Option.Rel (SameOutcome is js) (runInstructions w patience is sink input)
      (runInstructions w patience js sink input) := by
  have hrun := runInstructions_relocate (siteIn is) w patience (numbered (is.map Instruction.op)) sink input
  have hrun' := runInstructions_relocate (siteIn js) w patience (numbered (is.map Instruction.op)) sink input
  rw [relocate_numbered] at hrun
  rw [relocate_numbered_of_map_op_eq hops] at hrun'
  rw [hrun, hrun']
  cases ho : runInstructions w patience (numbered (is.map Instruction.op)) sink input with
  | none => exact .none
  | some o =>
    obtain ⟨result, out, rest⟩ := o
    cases result with
    | ok stats => exact .some (.completed stats out rest)
    | error e => exact .some (.failed (sameFault_relocate hops (blames_of_runInstructions ho rfl)) out rest)

end SameOperations

/-! ## Without a deadline the clock is not read -/

theorem lockstep_clock {σ ι : Type} {w : Setting σ ι} (hd : w.config.deadline = none) (clock : Nat → Nat) :
    Lockstep w { w with watch.elapsed := clock } Eq Eq where
  tape := rfl
  eof := rfl
  maxSteps := rfl
  stop hout hin := by
    subst hout hin
    exact Config.stop?_congr hd rfl _ _ _
  offer _ h := by subst h; exact ⟨rfl, rfl⟩
  next h := by subst h; exact ⟨rfl, rfl⟩

theorem runSource_clock {σ ι : Type} {w : Setting σ ι} (hd : w.config.deadline = none) (clock : Nat → Nat)
    (patience : Nat) (source : String) (sink : σ) (input : ι) :
    runSource { w with watch.elapsed := clock } patience source sink input =
      runSource w patience source sink input := by
  have hrel := runSource_lockstep (lockstep_clock hd clock) patience source (rfl : sink = sink) (rfl : input = input)
  generalize runSource w patience source sink input = o at hrel
  generalize runSource { w with watch.elapsed := clock } patience source sink input = o' at hrel
  cases hrel with
  | none => rfl
  | @some o o' h =>
    obtain ⟨result, out, rest⟩ := o
    obtain ⟨result', out', rest'⟩ := o'
    obtain ⟨rfl, rfl, rfl⟩ := h
    rfl

/-- **Comments cannot change what a program does.**  Of two texts with the same instruction characters both or neither
are programs; the same brackets are unmatched, in the same order; and two runs, with the same bounds and no deadline,
leave the sink and the input in the same states and end with the same statistics or with the same fault at the
instruction of the same number.  The site of a fault is that of the instruction in its own text, where no other
instruction has it. -/
theorem comments_change_nothing {a b : String} (h : instructionChars a = instructionChars b) :
    ((∃ p, Program.parse a = .ok p) ↔ ∃ q, Program.parse b = .ok q) ∧
    List.Forall₂ (fun u v => SameFault (instructionsOf a) (instructionsOf b) (.unmatched u) (.unmatched v))
      (diagnose a) (diagnose b) ∧
    (∀ {σ ι : Type} (w : Setting σ ι) (clock : Nat → Nat), w.config.deadline = none →
      ∀ (patience : Nat) (sink : σ) (input : ι), Option.Rel (SameOutcome (instructionsOf a) (instructionsOf b))
        (runSource w patience a sink input) (runSource { w with watch.elapsed := clock } patience b sink input)) ∧
    ((instructionsOf a).map Instruction.toSite).Nodup ∧ ((instructionsOf b).map Instruction.toSite).Nodup := by
  have hops : (instructionsOf a).map Instruction.op = (instructionsOf b).map Instruction.op := by
    rw [map_op_instructionsOf, map_op_instructionsOf, h]
  refine ⟨exists_ofInstructions_eq_ok_iff hops, forall₂_unmatched hops, ?_, nodup_sites a, nodup_sites b⟩
  intro σ ι w clock hd patience sink input
  rw [runSource_clock hd clock patience b, runSource_eq, runSource_eq]
  exact runInstructions_sameOutcome hops w patience sink input

theorem comments_change_nothing_underflow :
    let w : Setting (Array UInt8) (List UInt8) := ⟨{ tape := .fixed 1, maxSteps := some 9 }, .collecting, .bytes, .idle⟩
    let a := "+[.-]<"
    let b := "one é +\r\nloop [\n . - ]\n ( < )"
    instructionChars a = instructionChars b ∧ w.config.deadline = none ∧
      Option.Rel (SameOutcome (instructionsOf a) (instructionsOf b)) (runSource w 9 a #[] [])
        (runSource { w with watch.elapsed := id } 9 b #[] []) ∧
      (runSource w 9 a #[] []).map (fun o => (o.result, o.sink)) =
        some (.error (.underflow ⟨5, ⟨1, 6⟩⟩), #[1]) := by
  intro w a b
  have h : instructionChars a = instructionChars b := by decide +kernel
  exact ⟨h, rfl, (comments_change_nothing h).2.2.1 w id rfl 9 #[] [], by decide +kernel⟩

end Brainfuck
