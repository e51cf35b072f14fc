import Brainfuck.Proofs.Scene
/-!
# The states of a run

`Program.stateAfter` is the state of a run after a number of instructions, and `Program.Ends` says how a run ends,
however long that takes.  A run ends exactly if one of its states has a turn that ends it (`Program.ends_iff`), in one
way only (`Program.Ends.unique`), and `Program.run` finds that end (`Program.exists_run_iff`).  `Setting.unbounded` is
the setting without the bounds of its configuration: there a turn executes the next instruction whenever there is one
(`Program.turn_unbounded`).
-/
namespace Brainfuck

/-- The setting without a limit on steps, without a deadline and without a cancel flag. -/
def Setting.unbounded {σ ι : Type} (w : Setting σ ι) : Setting σ ι :=
  { w with config := { w.config with maxSteps := none, deadline := none, cancellable := false } }

/-- The bound that forbids the next instruction of a run, if any does. -/
def Setting.stop? {σ ι : Type} (w : Setting σ ι) (s : State σ ι) : Option RunError :=
  w.config.stop? s.machine.steps (w.watch.cancelled s.machine.steps s.sink s.input) (w.watch.elapsed s.machine.steps)

namespace Program

variable {σ ι : Type} {p : Program} {w : Setting σ ι} {s t u : State σ ι} {r : Report σ ι} {i : Instruction}

/-- The state after `n` instructions; none if the run has ended before. -/
def stateAfter (p : Program) (w : Setting σ ι) : Nat → State σ ι → Option (State σ ι)
  | 0, s => some s
  | n + 1, s =>
    match p.turn w s with
    | .next t => stateAfter p w n t
    | .ended _ => none

/-- A run that is in this state ends with this report. -/
def Ends (p : Program) (w : Setting σ ι) (s : State σ ι) (r : Report σ ι) : Prop := ∃ fuel, p.runFor w fuel s = some r

/-! ## One turn -/

theorem turn_of_none (h : p.instructions[s.machine.ip]? = none) : p.turn w s = .ended ⟨.ok s.machine.stats, s⟩ := by
  simp only [turn, h]

theorem turn_of_stop {e : RunError} (h : p.instructions[s.machine.ip]? = some i) (he : w.stop? s = some e) :
    p.turn w s = .ended ⟨.error e, s⟩ := by
  unfold Setting.stop? at he
  simp only [turn, h, he]

theorem turn_of_clear (h : p.instructions[s.machine.ip]? = some i) (hc : w.stop? s = none) :
    p.turn w s = p.execute w i s := by
  unfold Setting.stop? at hc
  simp only [turn, h, hc]

theorem exists_of_turn_eq_next (h : p.turn w s = .next t) :
    ∃ i, p.instructions[s.machine.ip]? = some i ∧ w.stop? s = none ∧ p.execute w i s = .next t := by
  cases hi : p.instructions[s.machine.ip]? with
  | none => rw [turn_of_none hi] at h; cases h
  | some i =>
    cases hc : w.stop? s with
    | some e => rw [turn_of_stop hi hc] at h; cases h
    | none => rw [turn_of_clear hi hc] at h; exact ⟨i, rfl, rfl, h⟩

/-- **What ends a run**: no instruction is left, a bound is reached, or an operation fails. -/
theorem turn_ended_cases (h : p.turn w s = .ended r) :
    (p.instructions[s.machine.ip]? = none ∧ r = ⟨.ok s.machine.stats, s⟩) ∨
    (∃ e, w.stop? s = some e ∧ r = ⟨.error e, s⟩) ∨
    ∃ (i : Instruction) (a : Basic) (e : RunError) (final : Scene σ ι), p.instructions[s.machine.ip]? = some i ∧
      i.op = a.toOp ∧ a.perform w i.toSite s.scene = .failed e final ∧
      r = ⟨.error e, final.state s.machine.ip s.machine.steps⟩ := by
  cases hi : p.instructions[s.machine.ip]? with
  | none =>
    rw [turn_of_none hi] at h
    cases h
    exact .inl ⟨rfl, rfl⟩
  | some i =>
    cases hc : w.stop? s with
    | some e =>
      rw [turn_of_stop hi hc] at h
      cases h
      exact .inr (.inl ⟨e, rfl, rfl⟩)
    | none =>
      rw [turn_of_clear hi hc] at h
      obtain ⟨ip, hx⟩ | ⟨a, ha, hx⟩ := execute_cases p w i s
      · rw [hx] at h
        cases h
      · rw [hx] at h
        obtain ⟨e, final, he, hr⟩ := Ending.exists_of_turn_eq_ended h
        exact .inr (.inr ⟨i, a, e, final, rfl, ha, he, hr⟩)

theorem stop?_unbounded (w : Setting σ ι) (s : State σ ι) : w.unbounded.stop? s = none := by
  simp [Setting.stop?, Setting.unbounded, Config.stop?]

theorem turn_unbounded (h : p.instructions[s.machine.ip]? = some i) : p.turn w.unbounded s = p.execute w i s :=
  turn_of_clear h (stop?_unbounded w s)

theorem steps_of_turn_eq_next (h : p.turn w s = .next t) : t.machine.steps = s.machine.steps + 1 := by
  obtain ⟨i, -, -, hx⟩ := exists_of_turn_eq_next h
  exact steps_of_execute_next hx

/-! ## Many turns -/

theorem stateAfter_add (p : Program) (w : Setting σ ι) : ∀ (m n : Nat) (s : State σ ι),
    p.stateAfter w (m + n) s = (p.stateAfter w m s).bind (p.stateAfter w n)
  | 0, n, s => by rw [Nat.zero_add]; rfl
  | m + 1, n, s => by
    rw [Nat.succ_add_eq_add_succ, Nat.add_succ]
    simp only [stateAfter]
    cases p.turn w s with
    | next t => exact stateAfter_add p w m n t
    | ended r => rfl

theorem stateAfter_trans {m n : Nat} (h : p.stateAfter w m s = some t) (h' : p.stateAfter w n t = some u) :
    p.stateAfter w (m + n) s = some u := by
  rw [stateAfter_add, h]
  exact h'

theorem stateAfter_one : p.stateAfter w 1 s = some t ↔ p.turn w s = .next t := by
  simp only [stateAfter]
  cases p.turn w s <;> simp

theorem stateAfter_succ_iff {n : Nat} :
    p.stateAfter w (n + 1) s = some t ↔ ∃ u, p.stateAfter w n s = some u ∧ p.turn w u = .next t := by
  rw [stateAfter_add, Option.bind_eq_some_iff]
  simp only [stateAfter_one]

theorem steps_of_stateAfter : ∀ {n : Nat} {t : State σ ι}, p.stateAfter w n s = some t →
    t.machine.steps = s.machine.steps + n
  | 0, t, h => by cases h; rfl
  | n + 1, t, h => by
    obtain ⟨u, hu, ht⟩ := stateAfter_succ_iff.1 h
    rw [steps_of_turn_eq_next ht, steps_of_stateAfter hu, Nat.add_assoc]

/-- As far as a run with bounds goes, the run without them goes the same way. -/
theorem stateAfter_unbounded : ∀ {n : Nat} {t : State σ ι}, p.stateAfter w n s = some t →
    p.stateAfter w.unbounded n s = some t
  | 0, t, h => h
  | n + 1, t, h => by
    obtain ⟨u, hu, ht⟩ := stateAfter_succ_iff.1 h
    obtain ⟨i, hi, -, hx⟩ := exists_of_turn_eq_next ht
    refine stateAfter_succ_iff.2 ⟨u, stateAfter_unbounded hu, ?_⟩
    rw [turn_unbounded hi, hx]

theorem runFor_of_stateAfter (fuel : Nat) : ∀ {n : Nat} {s : State σ ι}, p.stateAfter w n s = some t →
    p.runFor w (n + fuel) s = p.runFor w fuel t
  | 0, s, h => by cases h; rw [Nat.zero_add]
  | n + 1, s, h => by
    rw [Nat.succ_add_eq_add_succ, Nat.add_succ]
    simp only [stateAfter] at h
    simp only [runFor]
    cases hs : p.turn w s with
    | next v => rw [hs] at h; exact runFor_of_stateAfter fuel h
    | ended r => rw [hs] at h; cases h

theorem runFor_sub_of_stateAfter : ∀ {n fuel : Nat} {s : State σ ι}, p.runFor w fuel s = some r →
    p.stateAfter w n s = some t → n < fuel ∧ p.runFor w (fuel - n) t = some r
  | _, 0, _, h, _ => by cases h
  | 0, fuel + 1, s, h, ht => by
    cases ht
    exact ⟨Nat.succ_pos fuel, h⟩
  | n + 1, fuel + 1, s, h, ht => by
    simp only [stateAfter] at ht
    simp only [runFor] at h
    cases hs : p.turn w s with
    | ended r' => rw [hs] at ht; cases ht
    | next v =>
      rw [hs] at h ht
      obtain ⟨hlt, hr⟩ := runFor_sub_of_stateAfter h ht
      rw [Nat.add_sub_add_right]
      exact ⟨by omega, hr⟩

theorem runFor_eq_some_iff : ∀ {fuel : Nat} {s : State σ ι}, p.runFor w fuel s = some r ↔
    ∃ n < fuel, ∃ t, p.stateAfter w n s = some t ∧ p.turn w t = .ended r
  | 0, s => by simp [runFor]
  | fuel + 1, s => by
    constructor
    · intro h
      simp only [runFor] at h
      cases hs : p.turn w s with
      | ended r' =>
        rw [hs] at h
        cases h
        exact ⟨0, by omega, s, rfl, hs⟩
      | next v =>
        rw [hs] at h
        obtain ⟨n, hn, t, ht, hr⟩ := runFor_eq_some_iff.1 h
        refine ⟨n + 1, by omega, t, ?_, hr⟩
        simp only [stateAfter, hs]
        exact ht
    · rintro ⟨n, hn, t, ht, hr⟩
      obtain ⟨k, hk⟩ := Nat.exists_eq_add_of_lt hn
      rw [hk, Nat.add_assoc, runFor_of_stateAfter (k + 1) ht]
      simp only [runFor, hr]

/-- **A run ends where one of its states has a turn that ends it.** -/
theorem ends_iff : p.Ends w s r ↔ ∃ n t, p.stateAfter w n s = some t ∧ p.turn w t = .ended r := by
  constructor
  · rintro ⟨fuel, h⟩
    obtain ⟨n, -, t, ht, hr⟩ := runFor_eq_some_iff.1 h
    exact ⟨n, t, ht, hr⟩
  · rintro ⟨n, t, ht, hr⟩
    exact ⟨n + 1, runFor_eq_some_iff.2 ⟨n, Nat.lt_succ_self n, t, ht, hr⟩⟩

theorem runFor_of_le {m n : Nat} (h : p.runFor w m s = some r) (hmn : m ≤ n) : p.runFor w n s = some r := by
  obtain ⟨k, hk, t, ht, hr⟩ := runFor_eq_some_iff.1 h
  exact runFor_eq_some_iff.2 ⟨k, by omega, t, ht, hr⟩

theorem Ends.unique {r' : Report σ ι} (h : p.Ends w s r) (h' : p.Ends w s r') : r = r' := by
  obtain ⟨m, hm⟩ := h
  obtain ⟨n, hn⟩ := h'
  have h₁ := runFor_of_le hm (Nat.le_max_left m n)
  have h₂ := runFor_of_le hn (Nat.le_max_right m n)
  rw [h₁] at h₂
  exact Option.some.inj h₂

/-! ## Runs from the start -/

/-- The state in which a run begins. -/
def initial (w : Setting σ ι) (sink : σ) (input : ι) : State σ ι := ⟨Machine.start w.config.tape, sink, input⟩

theorem steps_eq_of_stateAfter_initial {sink : σ} {input : ι} {n : Nat}
    (h : p.stateAfter w n (initial w sink input) = some t) : t.machine.steps = n := by
  rw [steps_of_stateAfter h]
  exact Nat.zero_add n

theorem le_of_stateAfter_initial {sink : σ} {input : ι} {n m : Nat} (hm : w.config.maxSteps = some m)
    (h : p.stateAfter w n (initial w sink input) = some t) : n ≤ m := by
  cases n with
  | zero => exact Nat.zero_le m
  | succ n =>
    obtain ⟨u, hu, ht⟩ := stateAfter_succ_iff.1 h
    obtain ⟨i, -, hc, -⟩ := exists_of_turn_eq_next ht
    rw [Setting.stop?, steps_eq_of_stateAfter_initial hu] at hc
    by_cases hmn : m ≤ n
    · simp [Config.stop?, hm, hmn] at hc
    · omega

/-- **`run` finds the end of every run that has one.** -/
theorem exists_run_iff {sink : σ} {input : ι} :
    (∃ patience, p.run w patience sink input = some r) ↔ p.Ends w (initial w sink input) r := by
  constructor
  · rintro ⟨patience, h⟩
    exact ⟨_, h⟩
  · intro h
    obtain ⟨n, t, ht, hr⟩ := ends_iff.1 h
    refine ⟨n + 1, runFor_eq_some_iff.2 ⟨n, ?_, t, ht, hr⟩⟩
    cases hm : w.config.maxSteps with
    | none => exact Nat.lt_succ_self n
    | some m => exact Nat.lt_succ_of_le (le_of_stateAfter_initial hm ht)

end Program

end Brainfuck
