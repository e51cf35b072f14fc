import Brainfuck.Proofs.Caret
import Brainfuck.Proofs.Relocation
import Brainfuck.Proofs.Structured
/-!
# Arithmetic wraps around, wherever it stands

A cell counts modulo 256, so a row of `+` and `-` that comes out even modulo 256 leaves the tape as it was.  Such a row
can be put anywhere into a program, into a loop as well as between loops: two blocks that end alike from every scene
(`Block.Alike`) can stand for each other in every block around them (`Block.Alike.basic`, `Block.Alike.loop`), so the
row is pushed down the tree to its place (`Block.exists_neutral_inserted`).  The jumps and the sites of all that follows
are others after an insertion; trees know no jumps, and a run carries sites on without looking at them.  What is left of
the insertion is the number of steps and the place that an error names (`wraparound_in_every_context`).
-/
namespace Brainfuck

/-! ## The current cell -/

namespace Tape

/-- The tape with `amount` added to the current cell, modulo 256. -/
def add (t : Tape) (amount : UInt8) : Tape := t.set (t.get + amount)

theorem get_set (t : Tape) (value : UInt8) : (t.set value).get = value := by
  obtain ⟨cells, pointer, limit, highWater, hp, hw⟩ := t
  simp [set, get]

theorem set_set (t : Tape) (a b : UInt8) : (t.set a).set b = t.set b := by
  obtain ⟨cells, pointer, limit, highWater, hp, hw⟩ := t
  simp [set]

theorem set_get (t : Tape) : t.set t.get = t := by
  obtain ⟨cells, pointer, limit, highWater, hp, hw⟩ := t
  simp [set, get]

theorem add_zero (t : Tape) : t.add 0 = t := by rw [add, UInt8.add_zero, set_get]

theorem add_add (t : Tape) (a b : UInt8) : (t.add a).add b = t.add (a + b) := by
  simp only [add, get_set, set_set, UInt8.add_assoc]

theorem decrement_eq (t : Tape) : t.decrement = t.add (-1) := by
  rw [add, ← UInt8.sub_eq_add_neg]
  rfl

end Tape

/-! ## Blocks that end alike -/

/-- A task ends so, in whatever number of steps. -/
def Task.Ends {σ ι : Type} (w : Setting σ ι) (task : Task) (s : Scene σ ι) (e : Ending σ ι) : Prop :=
  ∃ n, Runs w task s n e

namespace Block

/-- Wherever the first block ends, the second ends likewise. -/
def Mimics {σ ι : Type} (w : Setting σ ι) (b b' : Block) : Prop :=
  ∀ (s : Scene σ ι) (e : Ending σ ι), (Task.block b).Ends w s e → (Task.block b').Ends w s e

/-- Neither block can be told from the other by how it ends. -/
def Alike (b b' : Block) : Prop := ∀ {σ ι : Type} (w : Setting σ ι), b.Mimics w b' ∧ b'.Mimics w b

variable {σ ι : Type} {w : Setting σ ι} {b b' body body' rest rest' : Block}

theorem Mimics.basic (h : rest.Mimics w rest') (op : Basic) (site : Site) :
    (Block.basic op site rest).Mimics w (.basic op site rest') := by
  rintro s e ⟨n, hn⟩
  cases hn with
  | basic hd hr =>
    obtain ⟨m, hm⟩ := h _ _ ⟨_, hr⟩
    exact ⟨1 + m, .basic hd hm⟩
  | basicFails hf => exact ⟨0, .basicFails hf⟩

theorem Mimics.rounds (h : body.Mimics w body') {task : Task} {s : Scene σ ι} {n : Nat} {e : Ending σ ι}
    (hn : Runs w task s n e) (ht : task = .rounds body) : (Task.rounds body').Ends w s e := by
  induction hn with
  | exit hz => exact ⟨0, .exit hz⟩
  | round hz hb _ _ ih =>
    cases ht
    obtain ⟨k, hk⟩ := h _ _ ⟨_, hb⟩
    obtain ⟨m, hm⟩ := ih rfl
    exact ⟨k + 1 + m, .round hz hk hm⟩
  | roundFails hz hb =>
    cases ht
    obtain ⟨k, hk⟩ := h _ _ ⟨_, hb⟩
    exact ⟨k, .roundFails hz hk⟩
  | _ => cases ht

theorem Mimics.loop (hb : body.Mimics w body') (hr : rest.Mimics w rest') (opener closer : Site) :
    (Block.loop opener closer body rest).Mimics w (.loop opener closer body' rest') := by
  rintro s e ⟨n, hn⟩
  cases hn with
  | loop hl hrest =>
    obtain ⟨m, hm⟩ := hb.rounds hl rfl
    obtain ⟨k, hk⟩ := hr _ _ ⟨_, hrest⟩
    exact ⟨1 + m + k, .loop hm hk⟩
  | loopFails hl =>
    obtain ⟨m, hm⟩ := hb.rounds hl rfl
    exact ⟨1 + m, .loopFails hm⟩

theorem Mimics.refl (w : Setting σ ι) (b : Block) : b.Mimics w b := fun _ _ h => h

theorem Alike.basic (h : rest.Alike rest') (op : Basic) (site : Site) :
    (Block.basic op site rest).Alike (.basic op site rest') :=
  fun w => ⟨(h w).1.basic op site, (h w).2.basic op site⟩

theorem Alike.loop (hb : body.Alike body') (hr : rest.Alike rest') (opener closer : Site) :
    (Block.loop opener closer body rest).Alike (.loop opener closer body' rest') :=
  fun w => ⟨(hb w).1.loop (hr w).1 opener closer, (hb w).2.loop (hr w).2 opener closer⟩

theorem alike_refl (b : Block) : b.Alike b := fun w => ⟨Mimics.refl w b, Mimics.refl w b⟩

end Block

/-! ## Neutral arithmetic -/

/-- How much an operation adds to the current cell, modulo 256. -/
def Op.amount : Op → UInt8
  | .inc => 1
  | .dec => -1
  | _ => 0

/-- What some operations add to the current cell one after the other. -/
def drift (ops : List Op) : UInt8 := ops.foldr (fun op amount => op.amount + amount) 0

/-- Instructions that do nothing but arithmetic on the current cell, and leave it as it was in the end. -/
structure Neutral (pad : List Instruction) : Prop where
  arithmetic : ∀ i ∈ pad, i.op = .inc ∨ i.op = .dec
  drift_eq : drift (pad.map Instruction.op) = 0

namespace Block

variable {σ ι : Type} {w : Setting σ ι}

theorem ends_basic_iff {op : Basic} {site : Site} {rest : Block} {s t : Scene σ ι} {e : Ending σ ι}
    (h : op.perform w site s = .done t) :
    (Task.block (.basic op site rest)).Ends w s e ↔ (Task.block rest).Ends w t e := by
  constructor
  · rintro ⟨n, hn⟩
    cases hn with
    | basic hd hr =>
      rw [h] at hd
      cases hd
      exact ⟨_, hr⟩
    | basicFails hf =>
      rw [h] at hf
      cases hf
  · rintro ⟨n, hn⟩
    exact ⟨1 + n, .basic h hn⟩

/-- Arithmetic in front of a block is done first, all at once. -/
theorem exists_arithmetic_append (rest : Block) : ∀ (pad : List Instruction), (∀ i ∈ pad, i.op = .inc ∨ i.op = .dec) →
    ∃ b : Block, b.spell = pad ++ rest.spell ∧
      ∀ {σ ι : Type} (w : Setting σ ι) (s : Scene σ ι) (e : Ending σ ι), (Task.block b).Ends w s e ↔
        (Task.block rest).Ends w { s with tape := s.tape.add (drift (pad.map Instruction.op)) } e
  | [], _ => ⟨rest, rfl, fun w s e => by rw [show drift (List.map Instruction.op []) = 0 from rfl, Tape.add_zero]⟩
  | ⟨site, op⟩ :: pad, h => by
    obtain ⟨b, hb, hends⟩ := exists_arithmetic_append rest pad (fun i hi => h i (List.mem_cons_of_mem _ hi))
    have hdrift : drift (List.map Instruction.op (⟨site, op⟩ :: pad)) = op.amount + drift (pad.map Instruction.op) :=
      rfl
    rcases h _ List.mem_cons_self with rfl | rfl
    · refine ⟨.basic .inc site b, congrArg (List.cons _) hb, fun w s e => ?_⟩
      have hinc : Basic.inc.perform w site s = .done { s with tape := s.tape.add 1 } := rfl
      rw [ends_basic_iff hinc, hends, hdrift, ← Tape.add_add]
      rfl
    · refine ⟨.basic .dec site b, congrArg (List.cons _) hb, fun w s e => ?_⟩
      have hdec : Basic.dec.perform w site s = .done { s with tape := s.tape.add (-1) } := by
        rw [← Tape.decrement_eq]
        rfl
      rw [ends_basic_iff hdec, hends, hdrift, ← Tape.add_add]
      rfl

theorem exists_neutral_append {pad : List Instruction} (hpad : Neutral pad) (b : Block) :
    ∃ b' : Block, b'.spell = pad ++ b.spell ∧ b.Alike b' := by
  obtain ⟨b', hb', hends⟩ := exists_arithmetic_append b pad hpad.arithmetic
  refine ⟨b', hb', fun w => ?_⟩
  have hsame : ∀ s e, (Task.block b').Ends w s e ↔ (Task.block b).Ends w s e := by
    intro s e
    rw [hends, hpad.drift_eq, Tape.add_zero]
  exact ⟨fun s e => (hsame s e).2, fun s e => (hsame s e).1⟩

/-- **Neutral arithmetic can be put anywhere in a block.** -/
theorem exists_neutral_inserted {pad : List Instruction} (hpad : Neutral pad) :
    ∀ (b : Block) {before after : List Instruction}, b.spell = before ++ after →
      ∃ b' : Block, b'.spell = before ++ pad ++ after ∧ b.Alike b'
  | b, [], after, h => by
    obtain ⟨b', hb', halike⟩ := exists_neutral_append hpad b
    exact ⟨b', by rw [hb', h]; simp, halike⟩
  | .done, i :: before, after, h => by cases h
  | .basic op site rest, i :: before, after, h => by
    obtain ⟨rfl, htail⟩ := List.cons.inj h
    obtain ⟨rest', hrest', halike⟩ := exists_neutral_inserted hpad rest htail
    exact ⟨.basic op site rest', by rw [spell, hrest']; rfl, halike.basic op site⟩
  | .loop opener closer body rest, i :: before, after, h => by
    obtain ⟨rfl, htail⟩ := List.cons.inj h
    rcases List.append_eq_append_iff.1 htail with ⟨mid, rfl, hmid⟩ | ⟨mid, hbody, hmid⟩
    · rcases List.cons_eq_append_iff.1 hmid with ⟨rfl, rfl⟩ | ⟨mid, rfl, hrest⟩
      · -- directly before the `]`
        obtain ⟨body', hbody', halike⟩ := exists_neutral_inserted hpad body (List.append_nil body.spell).symm
        exact ⟨.loop opener closer body' rest, by simp [spell, hbody'], halike.loop (alike_refl rest) opener closer⟩
      · obtain ⟨rest', hrest', halike⟩ := exists_neutral_inserted hpad rest hrest
        exact ⟨.loop opener closer body rest', by simp [spell, hrest'],
          Alike.loop (alike_refl body) halike opener closer⟩
    · obtain ⟨body', hbody', halike⟩ := exists_neutral_inserted hpad body hbody
      refine ⟨.loop opener closer body' rest, ?_, halike.loop (alike_refl rest) opener closer⟩
      simp [spell, hbody', hmid]

end Block

/-! ## Programs -/

/-- Two results alike but for the number of steps and, as `f` tells, the site of an error. -/
inductive SameEnd (f : Site → Site) : Except RunError Stats → Except RunError Stats → Prop where
  | completed (steps steps' cells : Nat) : SameEnd f (.ok ⟨steps, cells⟩) (.ok ⟨steps', cells⟩)
  | failed (e : RunError) : SameEnd f (.error e) (.error (e.relocate f))

namespace Program

variable {σ ι : Type} {w : Setting σ ι} {p q : Program} {b b' : Block} {sink : σ} {input : ι} {r r' : Report σ ι}

theorem ends_of_mimics (hb : b.spell = p.instructions.toList) (hb' : b'.spell = q.instructions.toList)
    (h : b.Mimics w b') (hr : p.Ends w.unbounded (initial w sink input) r) :
    ∃ r', q.Ends w.unbounded (initial w sink input) r' ∧ ∃ m n e, Shows r m e ∧ Shows r' n e := by
  obtain ⟨c, hc, hp⟩ := p.exists_placed
  obtain rfl := Block.spell_injective (hc.trans hb.symm)
  obtain ⟨c', hc', hq⟩ := q.exists_placed
  obtain rfl := Block.spell_injective (hc'.trans hb'.symm)
  obtain ⟨m, e, hm⟩ := exists_runs_of_ends hp hr
  obtain ⟨r₀, hr₀, hshows⟩ := ends_of_runs hb hp hm
  obtain rfl := hr.unique hr₀
  obtain ⟨n, hn⟩ := h _ _ ⟨m, hm⟩
  obtain ⟨r', hr', hshows'⟩ := ends_of_runs hb' hq hn
  exact ⟨r', hr', m, n, e, hshows, hshows'⟩

theorem sameEnd_of_shows {f : Site → Site} {m n : Nat} {e : Ending σ ι} (h : Shows (r.relocate f) m e)
    (h' : Shows r' n e) : r'.final.scene = r.final.scene ∧ SameEnd f r.result r'.result := by
  obtain ⟨hresult, hscene, -⟩ := h
  obtain ⟨hresult', hscene', -⟩ := h'
  refine ⟨hscene'.trans hscene.symm, ?_⟩
  rw [hresult']
  obtain ⟨result, final⟩ := r
  cases e with
  | done s =>
    cases result with
    | ok stats => cases hresult; exact .completed m n _
    | error x => cases hresult
  | failed x s =>
    cases result with
    | ok stats => cases hresult
    | error y => cases hresult; exact .failed y

theorem run_relocate (f : Site → Site) (p : Program) (w : Setting σ ι) (patience : Nat) (sink : σ) (input : ι) :
    (p.relocate f).run w patience sink input = (p.run w patience sink input).map (Report.relocate f) :=
  runFor_relocate f p w _ _

/-- Without bounds, whatever the tape policy, the end-of-input rule, the sink and the source, both programs end or
neither does; and then with the same tape, sink and input and the same result, but for the steps and for where `f` puts
the site of an error. -/
def SameRuns (f : Site → Site) (p q : Program) : Prop :=
  ∀ {σ ι : Type} (w : Setting σ ι) (sink : σ) (input : ι),
    ((∃ patience r, p.run w.unbounded patience sink input = some r) ↔
      ∃ patience r, q.run w.unbounded patience sink input = some r) ∧
    ∀ {patience patience' : Nat} {r r' : Report σ ι}, p.run w.unbounded patience sink input = some r →
      q.run w.unbounded patience' sink input = some r' →
      r'.final.scene = r.final.scene ∧ SameEnd f r.result r'.result

theorem sameRuns_of_alike {f : Site → Site} (hb : b.spell = (p.relocate f).instructions.toList)
    (hb' : b'.spell = q.instructions.toList) (h : b.Alike b') : p.SameRuns f q := by
  intro σ ι w sink input
  have hforth : ∀ {patience r}, p.run w.unbounded patience sink input = some r →
      ∃ r', q.Ends w.unbounded (initial w sink input) r' ∧ r'.final.scene = r.final.scene ∧
        SameEnd f r.result r'.result := by
    intro patience r hr
    have hmoved := run_relocate f p w.unbounded patience sink input
    rw [hr] at hmoved
    obtain ⟨r', hr', m, n, e, hshows, hshows'⟩ := ends_of_mimics hb hb' (h w).1 (exists_run_iff.1 ⟨patience, hmoved⟩)
    exact ⟨r', hr', sameEnd_of_shows hshows hshows'⟩
  refine ⟨⟨?_, ?_⟩, ?_⟩
  · rintro ⟨patience, r, hr⟩
    obtain ⟨r', hr', -⟩ := hforth hr
    obtain ⟨patience', hq⟩ := exists_run_iff.2 hr'
    exact ⟨patience', r', hq⟩
  · rintro ⟨patience, r', hr'⟩
    obtain ⟨r, hr, -⟩ := ends_of_mimics hb' hb (h w).2 (exists_run_iff.1 ⟨patience, hr'⟩)
    obtain ⟨patience', hmoved⟩ := exists_run_iff.2 hr
    rw [run_relocate] at hmoved
    obtain ⟨r₀, hr₀, -⟩ := Option.map_eq_some_iff.1 hmoved
    exact ⟨patience', r₀, hr₀⟩
  · intro patience patience' r r' hr hr'
    obtain ⟨r₀, hr₀, hsame⟩ := hforth hr
    obtain rfl := hr₀.unique (exists_run_iff.1 ⟨patience', hr'⟩)
    exact hsame

end Program

/-! ## Texts -/

/-- A text with some characters put in before the character at `pos`, or at the end. -/
def insertAt (source : String) (pos : Nat) (pad : List Char) : String :=
  String.ofList (source.toList.take pos ++ pad ++ source.toList.drop pos)

/-- The site of a character after `added` characters were put in at `pos`, which has made the text `source`. -/
def Site.moved (source : String) (pos added : Nat) (s : Site) : Site :=
  let index := if s.index < pos then s.index else s.index + added
  ⟨index, locate source index⟩

theorem relocate_instructionsAt {source source' : String} {f : Site → Site} {index n : Nat} {cs : List Char}
    (h : ∀ k, index ≤ k → k < index + cs.length → f ⟨k, locate source k⟩ = ⟨k + n, locate source' (k + n)⟩) :
    (instructionsAt source index cs).map (Instruction.relocate f) = instructionsAt source' (index + n) cs := by
  unfold instructionsAt
  rw [Nat.add_comm, ← List.map_snd_add_zipIdx_eq_zipIdx, List.filterMap_map, List.map_filterMap]
  refine List.filterMap_congr (fun x hx => ?_)
  have hle := List.le_snd_of_mem_zipIdx hx
  have hlt := List.snd_lt_of_mem_zipIdx hx
  simp [instructionAt?, Instruction.relocate, Function.comp_def, h x.2 hle (by omega)]

theorem map_op_instructionsAt (source : String) (index : Nat) (cs : List Char) :
    (instructionsAt source index cs).map Instruction.op = cs.filterMap Op.ofChar? := by
  have hfst := List.filterMap_map (f := Prod.fst) (g := Op.ofChar?) (l := cs.zipIdx index)
  rw [List.zipIdx_map_fst] at hfst
  rw [hfst, instructionsAt, List.map_filterMap]
  simp [instructionAt?, Function.comp_def]

section Insertion

variable (source : String) (pos : Nat) (pad : List Char)

theorem instructionsOf_insertAt : instructionsOf (insertAt source pos pad) =
    instructionsAt (insertAt source pos pad) 0 (source.toList.take pos) ++
      instructionsAt (insertAt source pos pad) (source.toList.take pos).length pad ++
      instructionsAt (insertAt source pos pad) ((source.toList.take pos).length + pad.length)
        (source.toList.drop pos) := by
  have htext : (insertAt source pos pad).toList = source.toList.take pos ++ pad ++ source.toList.drop pos := by
    simp [insertAt]
  rw [instructionsOf_eq, htext, instructionsAt_append, instructionsAt_append, List.length_append, Nat.zero_add,
    Nat.zero_add]

/-- What was there before the insertion is there after it, at its new place. -/
theorem relocate_instructionsOf :
    (instructionsOf source).map (Instruction.relocate (.moved (insertAt source pos pad) pos pad.length)) =
      instructionsAt (insertAt source pos pad) 0 (source.toList.take pos) ++
        instructionsAt (insertAt source pos pad) ((source.toList.take pos).length + pad.length)
          (source.toList.drop pos) := by
  have hlength : (source.toList.take pos).length = min pos source.toList.length := List.length_take
  have hsplit : instructionsOf source = instructionsAt source 0 (source.toList.take pos) ++
      instructionsAt source (source.toList.take pos).length (source.toList.drop pos) := by
    rw [instructionsOf_eq, ← Nat.zero_add (source.toList.take pos).length, ← instructionsAt_append,
      List.take_append_drop]
  rw [hsplit, List.map_append]
  congr 1
  · refine relocate_instructionsAt (n := 0) (fun k _ hk => ?_)
    simp only [Site.moved, if_pos (show k < pos by omega), Nat.add_zero]
  · refine relocate_instructionsAt (fun k hk hlt => ?_)
    rw [List.length_drop] at hlt
    simp only [Site.moved, if_neg (show ¬ k < pos by omega)]

end Insertion

theorem drift_add_count : ∀ {pad : List Char}, (∀ c ∈ pad, c = '+' ∨ c = '-') →
    drift (pad.filterMap Op.ofChar?) + UInt8.ofNat (pad.count '-') = UInt8.ofNat (pad.count '+')
  | [], _ => rfl
  | c :: pad, h => by
    have ih := drift_add_count (fun c hc => h c (List.mem_cons_of_mem _ hc))
    rcases h c List.mem_cons_self with rfl | rfl
    · have hdrift : drift (('+' :: pad).filterMap Op.ofChar?) = 1 + drift (pad.filterMap Op.ofChar?) := rfl
      rw [hdrift, List.count_cons_of_ne (by decide), List.count_cons_self, UInt8.ofNat_add, ← ih]
      grind
    · have hdrift : drift (('-' :: pad).filterMap Op.ofChar?) = -1 + drift (pad.filterMap Op.ofChar?) := rfl
      rw [hdrift, List.count_cons_self, List.count_cons_of_ne (by decide), UInt8.ofNat_add, ← ih]
      grind

theorem neutral_instructionsAt {pad : List Char} (hpad : ∀ c ∈ pad, c = '+' ∨ c = '-')
    (hmod : pad.count '+' % 256 = pad.count '-' % 256) (source : String) (index : Nat) :
    Neutral (instructionsAt source index pad) where
  arithmetic i hi := by
    have hop : i.op ∈ pad.filterMap Op.ofChar? := by
      rw [← map_op_instructionsAt source index]
      exact List.mem_map_of_mem hi
    obtain ⟨c, hc, ho⟩ := List.mem_filterMap.1 hop
    rcases hpad c hc with rfl | rfl
    · exact .inl (Option.some.inj ho).symm
    · exact .inr (Option.some.inj ho).symm
  drift_eq := by
    have hcount := drift_add_count hpad
    have hsame : UInt8.ofNat (pad.count '+') = UInt8.ofNat (pad.count '-') := by
      rw [← UInt8.toNat_inj]
      simpa using hmod
    rw [map_op_instructionsAt]
    rw [hsame] at hcount
    grind

/-- **Cells count modulo 256, whatever the context.**  A row of `+` and `-` of which there are as many of the one as of
the other, modulo 256, is put anywhere into the text of a program.  The text is still that of a program, and the two
programs run alike: both end or neither does, with the same tape, sink and input, with as many cells touched, and with
the same error, if any, at the character that caused it before. -/
theorem wraparound_in_every_context {source : String} {p : Program} (hp : Program.parse source = .ok p) (pos : Nat)
    {pad : List Char} (hpad : ∀ c ∈ pad, c = '+' ∨ c = '-') (hmod : pad.count '+' % 256 = pad.count '-' % 256) :
    ∃ q, Program.parse (insertAt source pos pad) = .ok q ∧
      p.SameRuns (.moved (insertAt source pos pad) pos pad.length) q := by
  have hlist : (p.relocate (.moved (insertAt source pos pad) pos pad.length)).instructions.toList =
      (instructionsOf source).map (Instruction.relocate (.moved (insertAt source pos pad) pos pad.length)) := by
    rw [Program.relocate, Array.toList_map, Program.ofInstructions_eq_ok_iff.1 hp]
  rw [relocate_instructionsOf] at hlist
  obtain ⟨b, hb, -⟩ := Program.exists_placed (p.relocate (.moved (insertAt source pos pad) pos pad.length))
  obtain ⟨b', hb', halike⟩ := Block.exists_neutral_inserted
    (neutral_instructionsAt hpad hmod (insertAt source pos pad) (source.toList.take pos).length) b (hb.trans hlist)
  rw [← instructionsOf_insertAt] at hb'
  let q : Program := ⟨b'.spell.toArray, b'.jumps, Block.build_spell b'⟩
  exact ⟨q, Program.ofInstructions_eq_ok_iff.2 hb', Program.sameRuns_of_alike hb rfl halike⟩

/-- A whole turn of the cell, put into a loop before the `.`, in a program that then leaves the tape. -/
theorem wraparound_in_every_context_full_turn :
    let w : Setting (Array UInt8) (List UInt8) := ⟨{ tape := .fixed 1 }, .collecting, .bytes, .idle⟩
    let pad := List.replicate 256 '+'
    (∀ c ∈ pad, c = '+' ∨ c = '-') ∧ pad.count '+' % 256 = pad.count '-' % 256 ∧
      ∃ p q, Program.parse "+[.<]" = .ok p ∧ Program.parse (insertAt "+[.<]" 2 pad) = .ok q ∧
        ∃ patience r, q.run w.unbounded patience #[] [] = some r ∧ r.final.sink = #[1] ∧
          r.result = .error (.underflow ⟨259, 1, 260⟩) := by
  intro w pad
  have hpad : ∀ c ∈ pad, c = '+' ∨ c = '-' := fun c hc => .inl (List.eq_of_mem_replicate hc)
  have hmod : pad.count '+' % 256 = pad.count '-' % 256 := by decide +kernel
  have hrun : (runSource w.unbounded 9 "+[.<]" #[] []).map (fun o => (o.result, o.sink)) =
      some (.error (.underflow ⟨3, 1, 4⟩), #[1]) := by decide +kernel
  have hsite : Site.moved (insertAt "+[.<]" 2 pad) 2 pad.length ⟨3, 1, 4⟩ = ⟨259, 1, 260⟩ := by
    simp only [Site.moved, insertAt, locate, String.toList_ofList]
    decide +kernel
  refine ⟨hpad, hmod, ?_⟩
  cases hp : Program.parse "+[.<]" with
  | error u =>
    rw [runSource, hp] at hrun
    cases hrun
  | ok p =>
    obtain ⟨q, hq, hends⟩ := wraparound_in_every_context hp 2 hpad hmod
    rw [runSource, hp] at hrun
    obtain ⟨o, ho, hresult⟩ := Option.map_eq_some_iff.1 hrun
    obtain ⟨r, hr, rfl⟩ := Option.map_eq_some_iff.1 ho
    obtain ⟨hresult, hsink⟩ := Prod.mk.inj hresult
    obtain ⟨patience, r', hr'⟩ := (hends w #[] []).1.1 ⟨_, r, hr⟩
    obtain ⟨hscene, hsame⟩ := (hends w #[] []).2 hr hr'
    refine ⟨p, q, rfl, hq, patience, r', hr', ?_, ?_⟩
    · exact (congrArg Scene.sink hscene).trans hsink
    · rw [show r.result = .error (.underflow ⟨3, 1, 4⟩) from hresult] at hsame
      generalize r'.result = result at hsame ⊢
      cases hsame
      exact congrArg (fun s => Except.error (RunError.underflow s)) hsite

end Brainfuck
