import Brainfuck.Proofs.Matching
import Brainfuck.Proofs.Trajectory
/-!
# Loops as trees

The meaning of a block is said by recursion on its tree, without instruction numbers and without a jump table (`Runs`):
a loop runs its body as long as the current cell is not zero.  It costs one step for its `[` and one for each `]` that
is reached.  A run of a program is a run of its block: it ends exactly if the block does, in the same way, on the same
scene and after the same number of steps (`Program.run_iff_runs`).

One direction is an induction on the derivation (`Program.reaches_of_runs`): the block stands somewhere in the program
(`Placed`), and the run goes through it from its first instruction to just after its last.  The other is an induction on
how long the run takes (`Program.settled`).
-/
namespace Brainfuck

/-- What there is to run: a block, or the rounds of a loop that are still to come. -/
inductive Task where
  | block (b : Block)
  | rounds (body : Block)

/-- `Runs w task s n e`: from the scene `s` the task ends as `e`, after `n` steps. -/
inductive Runs {σ ι : Type} (w : Setting σ ι) : Task → Scene σ ι → Nat → Ending σ ι → Prop where
  | done {s : Scene σ ι} : Runs w (.block .done) s 0 (.done s)
  | basic {op : Basic} {site : Site} {rest : Block} {s t : Scene σ ι} {n : Nat} {e : Ending σ ι}
      (h : op.perform w site s = .done t) (hr : Runs w (.block rest) t n e) :
      Runs w (.block (.basic op site rest)) s (1 + n) e
  | basicFails {op : Basic} {site : Site} {rest : Block} {s t : Scene σ ι} {x : RunError}
      (h : op.perform w site s = .failed x t) : Runs w (.block (.basic op site rest)) s 0 (.failed x t)
  | loop {opener closer : Site} {body rest : Block} {s t : Scene σ ι} {m n : Nat} {e : Ending σ ι}
      (h : Runs w (.rounds body) s m (.done t)) (hr : Runs w (.block rest) t n e) :
      Runs w (.block (.loop opener closer body rest)) s (1 + m + n) e
  | loopFails {opener closer : Site} {body rest : Block} {s t : Scene σ ι} {m : Nat} {x : RunError}
      (h : Runs w (.rounds body) s m (.failed x t)) :
      Runs w (.block (.loop opener closer body rest)) s (1 + m) (.failed x t)
  | exit {body : Block} {s : Scene σ ι} (hz : s.tape.get = 0) : Runs w (.rounds body) s 0 (.done s)
  | round {body : Block} {s t : Scene σ ι} {m n : Nat} {e : Ending σ ι} (hz : s.tape.get ≠ 0)
      (h : Runs w (.block body) s m (.done t)) (hr : Runs w (.rounds body) t n e) :
      Runs w (.rounds body) s (m + 1 + n) e
  | roundFails {body : Block} {s t : Scene σ ι} {m : Nat} {x : RunError} (hz : s.tape.get ≠ 0)
      (h : Runs w (.block body) s m (.failed x t)) : Runs w (.rounds body) s m (.failed x t)

namespace Program

variable {σ ι : Type} {p : Program} {w : Setting σ ι} {base : Nat}

/-! ## A block inside a program -/

/-- The program has this block, with the table of it, from instruction `base` on. -/
structure Placed (p : Program) (base : Nat) (b : Block) : Prop where
  instruction : ∀ {k : Nat} {i : Instruction}, b.spell[k]? = some i → p.instructions[base + k]? = some i
  target : ∀ {k t : Nat}, (b.table base)[k]? = some (some t) → p.jumps.target (base + k) = some t

theorem exists_placed (p : Program) : ∃ b : Block, b.spell = p.instructions.toList ∧ p.Placed 0 b := by
  obtain ⟨b, hb, hj⟩ := Jumps.build_eq_ok_iff.1 p.resolved
  refine ⟨b, hb, ⟨fun {k i} hk => ?_, fun {k t} hk => ?_⟩⟩
  · rw [hb, Array.getElem?_toList] at hk
    rwa [Nat.zero_add]
  · rw [hj, Nat.zero_add]
    exact (Jumps.target_jumps b k).trans (by rw [hk]; rfl)

theorem Placed.head {op : Basic} {site : Site} {rest : Block} (h : p.Placed base (.basic op site rest)) :
    p.instructions[base]? = some ⟨site, op.toOp⟩ :=
  h.instruction (k := 0) rfl

theorem Placed.tail {op : Basic} {site : Site} {rest : Block} (h : p.Placed base (.basic op site rest)) :
    p.Placed (base + 1) rest := by
  refine ⟨fun {k i} hk => ?_, fun {k t} hk => ?_⟩
  · rw [Nat.add_right_comm]
    exact h.instruction (k := k + 1) hk
  · rw [Nat.add_right_comm]
    exact h.target (k := k + 1) hk

section Loop

variable {opener closer : Site} {body rest : Block} (h : p.Placed base (.loop opener closer body rest))
include h

theorem Placed.at_opener : p.instructions[base]? = some ⟨opener, .opening⟩ := h.instruction (k := 0) rfl

theorem Placed.at_closer : p.instructions[base + body.spell.length + 1]? = some ⟨closer, .closing⟩ :=
  h.instruction getElem?_ends_last

theorem Placed.landing_opener : Machine.landing p.jumps base = base + body.spell.length + 2 := by
  have ht : p.jumps.target base = some (base + body.spell.length + 1) := h.target (k := 0) rfl
  rw [Machine.landing, ht]
  rfl

theorem Placed.landing_closer : Machine.landing p.jumps (base + body.spell.length + 1) = base + 1 := by
  have ht : p.jumps.target (base + (body.spell.length + 1)) = some base := by
    refine h.target ?_
    rw [Block.table, ← body.length_table (base + 1), getElem?_ends_last]
  rw [Machine.landing, Nat.add_assoc, ht]
  rfl

theorem Placed.inner : p.Placed (base + 1) body := by
  refine ⟨fun {k i} hk => ?_, fun {k t} hk => ?_⟩
  · obtain ⟨hlt, -⟩ := List.getElem?_eq_some_iff.1 hk
    rw [Nat.add_right_comm]
    exact h.instruction (k := k + 1) (by rw [Block.spell, getElem?_ends_inside hlt, hk])
  · obtain ⟨hlt, -⟩ := List.getElem?_eq_some_iff.1 hk
    rw [Nat.add_right_comm]
    exact h.target (k := k + 1) (by rw [Block.table, getElem?_ends_inside hlt, hk])

theorem Placed.after : p.Placed (base + body.spell.length + 2) rest := by
  have hadd : ∀ k, base + body.spell.length + 2 + k = base + (k + (body.spell.length + 2)) := fun k => by omega
  refine ⟨fun {k i} hk => ?_, fun {k t} hk => ?_⟩
  · rw [hadd]
    exact h.instruction (by rw [Block.spell, getElem?_ends_after, hk])
  · rw [hadd]
    refine h.target ?_
    rw [Block.table, ← body.length_table (base + 1), getElem?_ends_after, body.length_table, hk]

/-- Both ends of a loop lead to its next round, if there is one, and else past its end. -/
theorem Placed.turn_opener (s : Scene σ ι) (steps : Nat) : p.turn w.unbounded (s.state base steps) =
    .next (s.state (if s.tape.get = 0 then base + body.spell.length + 2 else base + 1) (steps + 1)) := by
  rw [turn_unbounded h.at_opener, execute_opening, h.landing_opener]

theorem Placed.turn_closer (s : Scene σ ι) (steps : Nat) :
    p.turn w.unbounded (s.state (base + body.spell.length + 1) steps) =
      .next (s.state (if s.tape.get = 0 then base + body.spell.length + 2 else base + 1) (steps + 1)) := by
  rw [turn_unbounded h.at_closer, execute_closing, h.landing_closer]

end Loop

theorem Placed.turn_head {op : Basic} {site : Site} {rest : Block} (h : p.Placed base (.basic op site rest))
    (s : Scene σ ι) (steps : Nat) : p.turn w.unbounded (s.state base steps) = (op.perform w site s).turn base steps := by
  rw [turn_unbounded h.head, execute_basic]

/-! ## From the tree to the run -/

/-- From this state the run comes, in `n` steps, to instruction `ip` with the scene of the ending, or fails as the
ending says. -/
def Reaches (p : Program) (w : Setting σ ι) (s : State σ ι) (n ip : Nat) : Ending σ ι → Prop
  | .done t => p.stateAfter w n s = some (t.state ip (s.machine.steps + n))
  | .failed x t => ∃ u k, p.stateAfter w n s = some u ∧
      p.turn w u = .ended ⟨.error x, t.state k (s.machine.steps + n)⟩

theorem Reaches.trans {s : State σ ι} {t : Scene σ ι} {m n k ip : Nat} {e : Ending σ ι}
    (h : p.Reaches w s m k (.done t)) (h' : p.Reaches w (t.state k (s.machine.steps + m)) n ip e) :
    p.Reaches w s (m + n) ip e := by
  cases e with
  | done u =>
    refine (stateAfter_trans h h').trans ?_
    rw [← Nat.add_assoc]
    rfl
  | failed x u =>
    obtain ⟨v, l, hv, hx⟩ := h'
    refine ⟨v, l, stateAfter_trans h hv, ?_⟩
    rw [hx, ← Nat.add_assoc]
    rfl

theorem reaches_of_turn {s t : Scene σ ι} {k ip steps : Nat}
    (h : p.turn w (s.state k steps) = .next (t.state ip (steps + 1))) : p.Reaches w (s.state k steps) 1 ip (.done t) :=
  stateAfter_one.2 h

end Program

namespace Task

variable {σ ι : Type}

/-- Where in a program the task stands. -/
def Placed (p : Program) (base : Nat) : Task → Prop
  | .block b => p.Placed base b
  | .rounds body => ∃ opener closer rest, p.Placed base (.loop opener closer body rest)

/-- The first instruction of the task: the next round of a loop begins inside it, and if there is none, past its end. -/
def entry (base : Nat) (s : Scene σ ι) : Task → Nat
  | .block _ => base
  | .rounds body => if s.tape.get = 0 then base + body.spell.length + 2 else base + 1

/-- The instruction after the task. -/
def exit (base : Nat) : Task → Nat
  | .block b => base + b.spell.length
  | .rounds body => base + body.spell.length + 2

end Task

namespace Program

variable {σ ι : Type} {p : Program} {w : Setting σ ι}

/-- **A task that ends is run through from its entry to its exit**, in as many steps. -/
theorem reaches_of_runs {task : Task} {s : Scene σ ι} {n : Nat} {e : Ending σ ι} (h : Runs w task s n e) :
    ∀ (base steps : Nat), task.Placed p base →
      p.Reaches w.unbounded (s.state (task.entry base s) steps) n (task.exit base) e := by
  induction h with
  | done => intro base steps _; rfl
  | @basic op site rest s t n e hd _ ih =>
    intro base steps hp
    have hturn := Placed.turn_head (w := w) hp s steps
    rw [hd] at hturn
    have hrest := ih (base + 1) (steps + 1) (Placed.tail hp)
    have hexit : base + 1 + rest.spell.length = (Task.block (.basic op site rest)).exit base := by
      simp only [Task.exit, Block.spell, List.length_cons]
      omega
    rw [← hexit]
    exact (reaches_of_turn hturn).trans hrest
  | @basicFails op site rest s t x hf =>
    intro base steps hp
    have hturn := Placed.turn_head (w := w) hp s steps
    rw [hf] at hturn
    exact ⟨_, base, rfl, hturn⟩
  | @loop opener closer body rest s t m n e _ _ ihl ihr =>
    intro base steps hp
    have hturn := reaches_of_turn (Placed.turn_opener (w := w) hp s steps)
    have hloop := ihl base (steps + 1) ⟨_, _, _, hp⟩
    have hrest := ihr (base + body.spell.length + 2) (steps + (1 + m)) (Placed.after hp)
    have hexit : base + body.spell.length + 2 + rest.spell.length =
        (Task.block (.loop opener closer body rest)).exit base := by
      simp only [Task.exit, Block.spell, List.length_cons, List.length_append]
      omega
    rw [← hexit]
    exact (hturn.trans hloop).trans hrest
  | @loopFails opener closer body rest s t m x _ ih =>
    intro base steps hp
    have hturn := reaches_of_turn (Placed.turn_opener (w := w) hp s steps)
    obtain ⟨u, k, hu, hx⟩ := hturn.trans (ih base (steps + 1) ⟨_, _, _, hp⟩)
    exact ⟨u, k, hu, hx⟩
  | @exit body s hz =>
    intro base steps _
    simp only [Task.entry, Task.exit, if_pos hz]
    rfl
  | @round body s t m n e hz _ _ ihb ihr =>
    rintro base steps ⟨opener, closer, rest, hp⟩
    have hbody := ihb (base + 1) steps (Placed.inner hp)
    have hexit : (Task.block body).exit (base + 1) = base + body.spell.length + 1 := by
      simp only [Task.exit]
      omega
    rw [hexit] at hbody
    have hturn := reaches_of_turn (Placed.turn_closer (w := w) hp t (steps + m))
    have hnext := ihr base (steps + (m + 1)) ⟨_, _, _, hp⟩
    simp only [Task.entry, if_neg hz]
    exact (hbody.trans hturn).trans hnext
  | @roundFails body s t m x hz _ ih =>
    rintro base steps ⟨opener, closer, rest, hp⟩
    simp only [Task.entry, if_neg hz]
    exact ih (base + 1) steps (Placed.inner hp)

/-! ## From the run to the tree -/

/-- A task whose run ends within `fuel` rounds has a derivation. -/
def Settled (p : Program) (w : Setting σ ι) (fuel : Nat) (task : Task) : Prop :=
  ∀ (base steps : Nat) (s : Scene σ ι) (r : Report σ ι), task.Placed p base →
    p.runFor w.unbounded fuel (s.state (task.entry base s) steps) = some r → ∃ n e, Runs w task s n e

theorem settled_block {fuel : Nat} (ih : ∀ f < fuel, ∀ task, p.Settled w f task) (b : Block) :
    p.Settled w fuel (.block b) := by
  intro base steps s r hp hr
  cases b with
  | done => exact ⟨0, .done s, .done⟩
  | basic op site rest =>
    have hturn := Placed.turn_head (w := w) hp s steps
    cases hd : op.perform w site s with
    | failed x t => exact ⟨0, .failed x t, .basicFails hd⟩
    | done t =>
      rw [hd] at hturn
      obtain ⟨hlt, hrest⟩ := runFor_sub_of_stateAfter hr (stateAfter_one.2 hturn)
      obtain ⟨n, e, hn⟩ := ih (fuel - 1) (by omega) (.block rest) (base + 1) _ t r (Placed.tail hp) hrest
      exact ⟨1 + n, e, .basic hd hn⟩
  | loop opener closer body rest =>
    have hturn := stateAfter_one.2 (Placed.turn_opener (w := w) hp s steps)
    obtain ⟨hlt, hround⟩ := runFor_sub_of_stateAfter hr hturn
    obtain ⟨m, e, hm⟩ := ih (fuel - 1) (by omega) (.rounds body) base _ s r ⟨_, _, _, hp⟩ hround
    cases e with
    | failed x t => exact ⟨1 + m, .failed x t, .loopFails hm⟩
    | done t =>
      have hreach := reaches_of_runs hm base (steps + 1) ⟨_, _, _, hp⟩
      obtain ⟨-, hrest⟩ := runFor_sub_of_stateAfter hround hreach
      obtain ⟨n, e, hn⟩ := ih (fuel - 1 - m) (by omega) (.block rest) _ _ t r (Placed.after hp) hrest
      exact ⟨1 + m + n, e, .loop hm hn⟩

theorem settled_rounds {fuel : Nat} (ih : ∀ f < fuel, ∀ task, p.Settled w f task) (body : Block) :
    p.Settled w fuel (.rounds body) := by
  rintro base steps s r ⟨opener, closer, rest, hp⟩ hr
  by_cases hz : s.tape.get = 0
  · exact ⟨0, .done s, .exit hz⟩
  · simp only [Task.entry, if_neg hz] at hr
    obtain ⟨m, e, hm⟩ := settled_block ih body (base + 1) steps s r (Placed.inner hp) hr
    cases e with
    | failed x t => exact ⟨m, .failed x t, .roundFails hz hm⟩
    | done t =>
      have hreach := reaches_of_runs hm (base + 1) steps (Placed.inner hp)
      have hexit : (Task.block body).exit (base + 1) = base + body.spell.length + 1 := by
        simp only [Task.exit]
        omega
      rw [hexit] at hreach
      have hturn := stateAfter_one.2 (Placed.turn_closer (w := w) hp t (steps + m))
      obtain ⟨hlt, hround⟩ := runFor_sub_of_stateAfter hr (stateAfter_trans hreach hturn)
      obtain ⟨n, e, hn⟩ := ih (fuel - (m + 1)) (by omega) (.rounds body) base _ t r ⟨_, _, _, hp⟩ hround
      exact ⟨m + 1 + n, e, .round hz hm hn⟩

theorem settled (p : Program) (w : Setting σ ι) (fuel : Nat) : ∀ task, p.Settled w fuel task := by
  induction fuel using Nat.strongRecOn with
  | ind fuel ih =>
    intro task
    cases task with
    | block b => exact settled_block ih b
    | rounds body => exact settled_rounds ih body

/-! ## Whole programs -/

/-- A run reports this ending, after so many steps. -/
def Shows (r : Report σ ι) (n : Nat) (e : Ending σ ι) : Prop :=
  r.result = e.result n ∧ r.final.scene = e.scene ∧ r.final.machine.steps = n

theorem ends_of_runs {b : Block} (hb : b.spell = p.instructions.toList) (hp : p.Placed 0 b) {sink : σ} {input : ι}
    {n : Nat} {e : Ending σ ι} (h : Runs w (.block b) (.initial w sink input) n e) :
    ∃ r, p.Ends w.unbounded (initial w sink input) r ∧ Shows r n e := by
  have hreach := reaches_of_runs h 0 0 hp
  cases e with
  | failed x t =>
    obtain ⟨u, k, hu, hx⟩ := hreach
    exact ⟨_, ends_iff.2 ⟨n, u, hu, hx⟩, rfl, rfl, Nat.zero_add n⟩
  | done t =>
    have hend : p.instructions[(Task.block b).exit 0]? = none := by
      rw [Task.exit, hb, Array.length_toList, Nat.zero_add]
      exact Array.getElem?_size
    have hstats : (t.state ((Task.block b).exit 0) (0 + n)).machine.stats = ⟨n, t.tape.highWater + 1⟩ := by
      rw [Nat.zero_add]
      rfl
    exact ⟨_, ends_iff.2 ⟨n, _, hreach, turn_of_none hend⟩, congrArg Except.ok hstats, rfl, Nat.zero_add n⟩

theorem exists_runs_of_ends {b : Block} (hp : p.Placed 0 b) {sink : σ} {input : ι} {r : Report σ ι}
    (h : p.Ends w.unbounded (initial w sink input) r) :
    ∃ n e, Runs w (.block b) (.initial w sink input) n e := by
  obtain ⟨fuel, h⟩ := h
  exact settled p w fuel (.block b) 0 0 (.initial w sink input) r hp h

theorem Shows.unique {r : Report σ ι} {m n : Nat} {e f : Ending σ ι} (h : Shows r m e) (h' : Shows r n f) :
    m = n ∧ e = f := by
  obtain ⟨h₁, h₂, rfl⟩ := h
  obtain ⟨h₁', h₂', rfl⟩ := h'
  refine ⟨rfl, ?_⟩
  rw [h₁] at h₁'
  rw [h₂] at h₂'
  cases e with
  | done s =>
    cases f with
    | done t => exact congrArg Ending.done h₂'
    | failed x t => cases h₁'
  | failed x s =>
    cases f with
    | done t => cases h₁'
    | failed y t =>
      cases h₁'
      exact congrArg (Ending.failed x) h₂'

/-- **A run of a program is a run of its tree.**  A program has one block that spells it.  Without bounds, whatever the
tape policy, the end-of-input rule, the sink and the source, its run ends as the block does, on the same scene and after
the same number of steps, and has no end exactly if the block has none. -/
theorem run_iff_runs (p : Program) :
    ∃ b : Block, b.spell = p.instructions.toList ∧ (∀ b' : Block, b'.spell = p.instructions.toList → b' = b) ∧
      ∀ {σ ι : Type} (w : Setting σ ι) (sink : σ) (input : ι),
        (∀ n e, (∃ patience r, p.run w.unbounded patience sink input = some r ∧ Shows r n e) ↔
          Runs w (.block b) (.initial w sink input) n e) ∧
        ((∀ patience, p.run w.unbounded patience sink input = none) ↔
          ∀ n e, ¬ Runs w (.block b) (.initial w sink input) n e) := by
  obtain ⟨b, hb, hp⟩ := p.exists_placed
  refine ⟨b, hb, fun b' hb' => Block.spell_injective (hb'.trans hb.symm), fun {σ ι} w sink input => ⟨?_, ?_⟩⟩
  · intro n e
    constructor
    · rintro ⟨patience, r, hr, hs⟩
      have hends : p.Ends w.unbounded (initial w sink input) r := exists_run_iff.1 ⟨patience, hr⟩
      obtain ⟨m, f, hm⟩ := exists_runs_of_ends hp hends
      obtain ⟨r', hends', hs'⟩ := ends_of_runs hb hp hm
      rw [← hends.unique hends'] at hs'
      obtain ⟨rfl, rfl⟩ := hs.unique hs'
      exact hm
    · intro h
      obtain ⟨r, hends, hs⟩ := ends_of_runs hb hp h
      obtain ⟨patience, hr⟩ := exists_run_iff.2 hends
      exact ⟨patience, r, hr, hs⟩
  · constructor
    · intro h n e hn
      obtain ⟨r, hends, -⟩ := ends_of_runs hb hp hn
      obtain ⟨patience, hr⟩ := exists_run_iff.2 hends
      rw [h patience] at hr
      cases hr
    · intro h patience
      cases hr : p.run w.unbounded patience sink input with
      | none => rfl
      | some r =>
        obtain ⟨n, e, hn⟩ := exists_runs_of_ends hp (exists_run_iff.1 ⟨patience, hr⟩)
        exact absurd hn (h n e)

end Program

end Brainfuck
