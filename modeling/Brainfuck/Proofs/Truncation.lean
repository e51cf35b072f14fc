import Brainfuck.Proofs.Trajectory
/-!
# Bounds only cut a run short

A run under a limit on steps, a deadline and a cancel flag goes through the same states as the run without them.  It
stops in the first of these states in which an instruction is due and a bound is reached, and executes nothing more
(`Program.run_truncates`).  If there is no such state, the bounds make no difference at all.

Which bound it was is told in a fixed order: the limit on steps, then the flag, then the clock (`Setting.Verdict`).
-/
namespace Brainfuck

namespace Setting

variable {σ ι : Type} {w : Setting σ ι} {k : Nat} {s : State σ ι} {e : RunError}

/-- The limit on steps is used up before instruction number `k`. -/
def OutOfSteps (w : Setting σ ι) (k : Nat) : Prop := ∃ m, w.config.maxSteps = some m ∧ m ≤ k

/-- There is a cancel flag, and it is up before instruction number `k`. -/
def Cancelled (w : Setting σ ι) (k : Nat) (s : State σ ι) : Prop :=
  w.config.cancellable = true ∧ w.watch.cancelled k s.sink s.input = true

/-- The clock is read before instruction number `k` and shows that the time is over. -/
def OutOfTime (w : Setting σ ι) (k : Nat) : Prop :=
  ∃ limit, w.config.deadline = some limit ∧ 4096 ∣ k ∧ limit ≤ w.watch.elapsed k

/-- A bound is reached before instruction number `k`. -/
def Reached (w : Setting σ ι) (k : Nat) (s : State σ ι) : Prop :=
  w.OutOfSteps k ∨ w.Cancelled k s ∨ w.OutOfTime k

/-- What a run that is stopped before instruction number `k` reports. -/
inductive Verdict (w : Setting σ ι) (k : Nat) (s : State σ ι) : RunError → Prop where
  | steps {m : Nat} (hm : w.config.maxSteps = some m) (hk : m ≤ k) : Verdict w k s (.stepLimit m)
  | flag (hs : ¬ w.OutOfSteps k) (hc : w.Cancelled k s) : Verdict w k s (.cancelled k)
  | clock {limit : Nat} (hs : ¬ w.OutOfSteps k) (hc : ¬ w.Cancelled k s) (hl : w.config.deadline = some limit)
      (hk : 4096 ∣ k) (ht : limit ≤ w.watch.elapsed k) : Verdict w k s (.deadline limit)

theorem outOfSteps_iff : w.OutOfSteps k ↔ w.config.maxSteps.any (· ≤ k) = true := by
  unfold OutOfSteps
  cases w.config.maxSteps <;> simp

theorem cancelled_iff :
    w.Cancelled k s ↔ (w.config.cancellable && w.watch.cancelled k s.sink s.input) = true := by
  rw [Bool.and_eq_true]
  rfl

theorem verdict_of_stop (h : w.stop? s = some e) : w.Verdict s.machine.steps s e := by
  unfold stop? Config.stop? at h
  split at h
  · rename_i hs
    obtain ⟨m, hm, hk⟩ := outOfSteps_iff.2 hs
    rw [hm] at h
    cases h
    exact .steps hm hk
  rename_i hs
  have hs : ¬ w.OutOfSteps s.machine.steps := fun h => hs (outOfSteps_iff.1 h)
  split at h
  · rename_i hc
    cases h
    exact .flag hs (cancelled_iff.2 hc)
  rename_i hc
  have hc : ¬ w.Cancelled s.machine.steps s := fun h => hc (cancelled_iff.1 h)
  split at h
  · cases h
  rename_i limit hl
  split at h
  · rename_i ht
    cases h
    exact .clock hs hc hl (Nat.dvd_of_mod_eq_zero ht.1) ht.2
  · cases h

theorem Verdict.stop?_eq (h : w.Verdict s.machine.steps s e) : w.stop? s = some e := by
  unfold stop? Config.stop?
  cases h with
  | @steps m hm hk =>
    rw [if_pos (outOfSteps_iff.1 ⟨m, hm, hk⟩), hm]
    rfl
  | flag hs hc => rw [if_neg (fun h => hs (outOfSteps_iff.2 h)), if_pos (cancelled_iff.1 hc)]
  | clock hs hc hl hk ht =>
    rw [if_neg (fun h => hs (outOfSteps_iff.2 h)), if_neg (fun h => hc (cancelled_iff.2 h)), hl]
    exact if_pos ⟨Nat.mod_eq_zero_of_dvd hk, ht⟩

/-- **The check before an instruction finds what there is to find.** -/
theorem stop?_eq_some_iff : w.stop? s = some e ↔ w.Verdict s.machine.steps s e := ⟨verdict_of_stop, Verdict.stop?_eq⟩

theorem exists_verdict_iff : (∃ e, w.Verdict k s e) ↔ w.Reached k s := by
  constructor
  · rintro ⟨_, ⟨hm, hk⟩ | ⟨-, hc⟩ | ⟨-, -, hl, hk, ht⟩⟩
    · exact .inl ⟨_, hm, hk⟩
    · exact .inr (.inl hc)
    · exact .inr (.inr ⟨_, hl, hk, ht⟩)
  · intro h
    by_cases hs : w.OutOfSteps k
    · obtain ⟨m, hm, hk⟩ := hs
      exact ⟨_, .steps hm hk⟩
    by_cases hc : w.Cancelled k s
    · exact ⟨_, .flag hs hc⟩
    obtain ⟨limit, hl, hk, ht⟩ := (h.resolve_left hs).resolve_left hc
    exact ⟨_, .clock hs hc hl hk ht⟩

theorem stop?_eq_none (h : ¬ w.Reached s.machine.steps s) : w.stop? s = none := by
  cases he : w.stop? s with
  | none => rfl
  | some e => exact absurd (exists_verdict_iff.1 ⟨e, stop?_eq_some_iff.1 he⟩) h

end Setting

namespace Program

variable {σ ι : Type} {p : Program} {w : Setting σ ι} {s : State σ ι} {sink : σ} {input : ι}

/-- Before instruction number `k` of the run without bounds, which is due in state `s`, a bound is reached. -/
def StopsAt (p : Program) (w : Setting σ ι) (sink : σ) (input : ι) (k : Nat) (s : State σ ι) : Prop :=
  p.stateAfter w.unbounded k (initial w sink input) = some s ∧ p.instructions[s.machine.ip]?.isSome ∧ w.Reached k s

theorem turn_eq_turn_unbounded (h : p.instructions[s.machine.ip]?.isSome → ¬ w.Reached s.machine.steps s) :
    p.turn w s = p.turn w.unbounded s := by
  cases hi : p.instructions[s.machine.ip]? with
  | none => rw [turn_of_none hi, turn_of_none hi]
  | some i =>
    rw [hi] at h
    rw [turn_unbounded hi, turn_of_clear hi (Setting.stop?_eq_none (h rfl))]

theorem turn_ne_sink (hw : ∀ out byte, (w.sink.offer out byte).2 = none) {site : Site} {cause : String}
    {final : State σ ι} : p.turn w s ≠ .ended ⟨.error (.sink site cause), final⟩ := by
  intro h
  cases hi : p.instructions[s.machine.ip]? with
  | none => rw [turn_of_none hi] at h; cases h
  | some i =>
    cases hc : w.stop? s with
    | some e =>
      rw [turn_of_stop hi hc] at h
      cases h
      cases Setting.stop?_eq_some_iff.1 hc
    | none =>
      rw [turn_of_clear hi hc] at h
      exact execute_ne_sink hw h

/-- Up to the first stop the bounds make no difference. -/
theorem stateAfter_eq_unbounded : ∀ (k : Nat), (∀ j < k, ∀ t, ¬ p.StopsAt w sink input j t) →
    p.stateAfter w k (initial w sink input) = p.stateAfter w.unbounded k (initial w sink input)
  | 0, _ => rfl
  | k + 1, h => by
    have ih := stateAfter_eq_unbounded k (fun j hj => h j (by omega))
    rw [stateAfter_add, stateAfter_add, ih]
    cases hk : p.stateAfter w.unbounded k (initial w sink input) with
    | none => rfl
    | some t =>
      have hsteps : t.machine.steps = k := steps_eq_of_stateAfter_initial (w := w.unbounded) hk
      have hturn : p.turn w t = p.turn w.unbounded t := turn_eq_turn_unbounded (fun hi hr => by
        rw [hsteps] at hr
        exact h k (by omega) t ⟨hk, hi, hr⟩)
      simp only [Option.bind_some, stateAfter, hturn]

/-- **Bounds only truncate.**  If before no instruction of the run without bounds a bound is reached, the run with
bounds ends as that run does.  Otherwise it ends in the first state where one is reached, with the verdict on that
state. -/
theorem run_truncates (p : Program) (w : Setting σ ι) (sink : σ) (input : ι) :
    ((∀ k s, ¬ p.StopsAt w sink input k s) → ∀ r,
      (∃ patience, p.run w patience sink input = some r) ↔
        ∃ patience, p.run w.unbounded patience sink input = some r) ∧
    ∀ k s, p.StopsAt w sink input k s → (∀ j < k, ∀ t, ¬ p.StopsAt w sink input j t) →
      s.machine.steps = k ∧
        ∃ e, w.Verdict k s e ∧ ∃ patience, p.run w patience sink input = some ⟨.error e, s⟩ := by
  constructor
  · intro hnone r
    have hstate : ∀ n, p.stateAfter w n (initial w sink input) = p.stateAfter w.unbounded n (initial w sink input) :=
      fun n => stateAfter_eq_unbounded n (fun j _ => hnone j)
    have hturn : ∀ n t, p.stateAfter w.unbounded n (initial w sink input) = some t →
        p.turn w t = p.turn w.unbounded t := by
      intro n t ht
      refine turn_eq_turn_unbounded (fun hi hr => ?_)
      rw [steps_eq_of_stateAfter_initial (w := w.unbounded) ht] at hr
      exact hnone n t ⟨ht, hi, hr⟩
    rw [exists_run_iff, exists_run_iff, ends_iff, ends_iff]
    constructor
    · rintro ⟨n, t, ht, hr⟩
      rw [hstate] at ht
      rw [hturn n t ht] at hr
      exact ⟨n, t, ht, hr⟩
    · rintro ⟨n, t, ht, hr⟩
      refine ⟨n, t, (hstate n).trans ht, ?_⟩
      rw [hturn n t ht, hr]
  · rintro k s ⟨hk, hi, hr⟩ hfirst
    have hsteps : s.machine.steps = k := steps_eq_of_stateAfter_initial (w := w.unbounded) hk
    obtain ⟨e, he⟩ := Setting.exists_verdict_iff.2 hr
    obtain ⟨i, hi⟩ := Option.isSome_iff_exists.1 hi
    have hstop : w.stop? s = some e := Setting.stop?_eq_some_iff.2 (by rw [hsteps]; exact he)
    refine ⟨hsteps, e, he, exists_run_iff.2 (ends_iff.2 ⟨k, s, ?_, turn_of_stop hi hstop⟩)⟩
    rw [stateAfter_eq_unbounded k hfirst]
    exact hk

theorem run_truncates_endless_loop :
    let w : Setting (Array UInt8) Unit := ⟨{ tape := .fixed 1, maxSteps := some 3 }, .collecting, .absent, .idle⟩
    ∃ p s, Program.parse "+[]" = .ok p ∧ p.StopsAt w #[] () 3 s ∧ s.machine.steps = 3 ∧
      ∃ e, w.Verdict 3 s e ∧ ∃ patience, p.run w patience #[] () = some ⟨.error e, s⟩ := by
  intro w
  let p : Program := ⟨(instructionsOf "+[]").toArray, ⟨#[none, some 2, some 1]⟩, rfl⟩
  have hstop : p.StopsAt w #[] () 3 _ := ⟨rfl, rfl, .inl ⟨3, rfl, Nat.le_refl 3⟩⟩
  have hfirst : ∀ j < 3, ∀ t, ¬ p.StopsAt w #[] () j t := by
    rintro j hj t ⟨-, -, ⟨m, hm, hmj⟩ | ⟨hc, -⟩ | ⟨limit, hl, -⟩⟩
    · cases hm
      omega
    · cases hc
    · cases hl
  exact ⟨p, _, rfl, hstop, (run_truncates p w #[] ()).2 3 _ hstop hfirst⟩

end Program

end Brainfuck
