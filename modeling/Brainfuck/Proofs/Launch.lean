import Brainfuck.Proofs.Delivery
/-!
# What a run was started on

A launch is what a background run is given when it is started: a source text, input bytes and a configuration.  Whatever
its watcher has taken from the run is the beginning of what the interpreter emits on the same (`Launch.Emits`), and the
result, once it is taken, comes after all bytes and is the interpreter's (`Launch.Reachable.taken_cases`).

The flag of a run is raised at most once.  The interpreter that is compared with finds it down until some instruction
and up from there on, or down for ever (`Launch.setting`).
-/
namespace Brainfuck

/-- What a run was started on, and whether it was asked to stop since. -/
structure Launch where
  source : String
  input : List UInt8
  config : Config
  clock : Nat → Nat
  escaped : Bool := false

namespace Launch

variable {l : Launch} {h : History} {result : Except RunError Stats} {out : Array UInt8}

/-- The interpreter on the same, which keeps all bytes it emits.  Its flag is up from instruction number `raised` on. -/
def setting (l : Launch) (raised : Option Nat) : Setting (Array UInt8) (List UInt8) :=
  ⟨{ l.config with cancellable := true }, .collecting, .bytes, ⟨fun k _ _ => raised.any (· ≤ k), l.clock⟩⟩

/-- The interpreter ends with this result and has then emitted these bytes.  Its flag is raised only if the run was
asked to stop. -/
def Gives (l : Launch) (result : Except RunError Stats) (out : Array UInt8) : Prop :=
  ∃ raised : Option Nat, (raised ≠ none → l.escaped = true) ∧
    ∃ patience rest, runSource (l.setting raised) patience l.source #[] l.input = some ⟨result, out, rest⟩

/-- The interpreter emits these bytes before any others. -/
def Emits (l : Launch) (bytes : List UInt8) : Prop :=
  bytes = [] ∨ ∃ p n s, Program.parse l.source = .ok p ∧
    p.stateAfter (l.setting none).unbounded n (Program.initial (l.setting none) #[] l.input) = some s ∧
    bytes <+: s.sink.toList

def escape (l : Launch) : Launch := { l with escaped := true }

theorem Gives.escape (h : l.Gives result out) : l.escape.Gives result out := by
  obtain ⟨raised, -, hrun⟩ := h
  exact ⟨raised, fun _ => rfl, hrun⟩

/-- What the worker of the run runs. -/
def job (l : Launch) : Job := (Worker.start l.source l.input l.config l.clock).2

theorem config_job (l : Launch) : l.job.config = { l.config with cancellable := true } := by
  unfold job Worker.start
  cases Program.parse l.source <;> rfl

theorem clock_job (l : Launch) : l.job.clock = l.clock := by
  unfold job Worker.start
  cases Program.parse l.source <;> rfl

theorem interpreter_job (l : Launch) (raised : Option Nat) :
    l.job.interpreter (fun k => raised.any (· ≤ k)) = l.setting raised := by
  rw [Job.interpreter, config_job, clock_job]
  rfl

end Launch

/-! ## A flag that is raised once -/

namespace Job

variable {job : Job} {p : Program} {flag flag' : Nat → Bool} {s t : State (Array UInt8) (List UInt8)}

/-- A turn looks at the flag once. -/
theorem turn_interpreter_congr (h : flag s.machine.steps = flag' s.machine.steps) :
    p.turn (job.interpreter flag) s = p.turn (job.interpreter flag') s := by
  have hexec : ∀ i, p.execute (job.interpreter flag) i s = p.execute (job.interpreter flag') i s := fun _ => rfl
  have hstop : (job.interpreter flag).stop? s = (job.interpreter flag').stop? s := by
    show job.config.stop? _ (flag s.machine.steps) _ = job.config.stop? _ (flag' s.machine.steps) _
    rw [h]
    rfl
  cases hi : p.instructions[s.machine.ip]? with
  | none => rw [Program.turn_of_none hi, Program.turn_of_none hi]
  | some i =>
    cases hs : (job.interpreter flag').stop? s with
    | some e => rw [Program.turn_of_stop hi (hstop.trans hs), Program.turn_of_stop hi hs]
    | none => rw [Program.turn_of_clear hi (hstop.trans hs), Program.turn_of_clear hi hs, hexec]

theorem flag_of_turn_next (hc : job.config.cancellable = true) (h : p.turn (job.interpreter flag) s = .next t) :
    flag s.machine.steps = false := by
  obtain ⟨i, -, hstop, -⟩ := Program.exists_of_turn_eq_next h
  cases hf : flag s.machine.steps with
  | false => rfl
  | true =>
    simp only [Setting.stop?, interpreter, Config.stop?, hc, hf, Bool.and_self, if_true] at hstop
    split at hstop <;> cases hstop

/-- A run that has gone so far has found the flag down, so it goes as far with any other flag that is down until then.
-/
theorem stateAfter_of_down (hc : job.config.cancellable = true) : ∀ {n : Nat} {t : State (Array UInt8) (List UInt8)},
    p.stateAfter (job.interpreter flag) n s = some t → (∀ k < t.machine.steps, flag' k = false) →
      p.stateAfter (job.interpreter flag') n s = some t
  | 0, t, h, _ => h
  | n + 1, t, h, hdown => by
    obtain ⟨u, hu, hturn⟩ := Program.stateAfter_succ_iff.1 h
    have hsteps : t.machine.steps = u.machine.steps + 1 := Program.steps_of_turn_eq_next hturn
    have hflag : flag u.machine.steps = flag' u.machine.steps := by
      rw [flag_of_turn_next hc hturn, hdown u.machine.steps (by omega)]
    refine Program.stateAfter_succ_iff.2 ⟨u, stateAfter_of_down hc hu (fun k hk => hdown k (by omega)), ?_⟩
    rw [← turn_interpreter_congr hflag]
    exact hturn

end Job

namespace Launch

variable {l : Launch} {h : History} {result : Except RunError Stats} {out : Array UInt8}

theorem gives_of_reports {raised : Bool} (hr : l.job.Reports l.source l.input raised result out)
    (hesc : raised = true → l.escaped = true) : l.Gives result out := by
  obtain ⟨flag, hup, patience, rest, hrun⟩ := hr
  unfold runSource at hrun
  cases hp : Program.parse l.source with
  | error u =>
    rw [hp] at hrun
    refine ⟨none, fun hne => absurd rfl hne, patience, rest, ?_⟩
    unfold runSource
    rw [hp]
    exact hrun
  | ok p =>
    rw [hp] at hrun
    obtain ⟨r, hr, he⟩ := Option.map_eq_some_iff.1 hrun
    obtain ⟨n, t, ht, hturn⟩ := Program.ends_iff.1 (Program.exists_run_iff.1 ⟨patience, hr⟩)
    have hc : l.job.config.cancellable = true := by rw [config_job]
    -- the flag matters only where the run ends: it goes up there, or never
    obtain ⟨raised', hraised, hdown, hend⟩ : ∃ raised' : Option Nat, (raised' ≠ none → raised = true) ∧
        (∀ k < t.machine.steps, raised'.any (· ≤ k) = false) ∧
        raised'.any (· ≤ t.machine.steps) = flag t.machine.steps := by
      cases hf : flag t.machine.steps with
      | true => exact ⟨some t.machine.steps, fun _ => hup _ hf, by simp, by simp⟩
      | false => exact ⟨none, fun hne => absurd rfl hne, fun _ _ => rfl, rfl⟩
    have hends : p.Ends (l.setting raised') (Program.initial (l.setting raised') #[] l.input) r := by
      rw [← interpreter_job]
      refine Program.ends_iff.2 ⟨n, t, Job.stateAfter_of_down hc ht hdown, ?_⟩
      rw [Job.turn_interpreter_congr hend]
      exact hturn
    obtain ⟨patience', hrun'⟩ := Program.exists_run_iff.2 hends
    refine ⟨raised', fun hne => hesc (hraised hne), patience', rest, ?_⟩
    unfold runSource
    rw [hp]
    exact Option.map_eq_some_iff.2 ⟨r, hrun', he⟩

/-! ## What the watcher has taken -/

/-- The histories of the run that was started so. -/
def Reachable (l : Launch) (h : History) : Prop := History.Reachable l.source l.input l.config l.clock h

theorem Reachable.tracked (hr : l.Reachable h) : h.Tracked l.source l.input l.job := History.tracked_of_reachable hr

theorem stateAfter_empty {σ ι : Type} {w : Setting σ ι} {n : Nat} {s t : State σ ι}
    (h : Program.empty.stateAfter w n s = some t) : t = s := by
  cases n with
  | zero => exact (Option.some.inj h).symm
  | succ n =>
    have hend : Program.empty.turn w s = .ended ⟨.ok s.machine.stats, s⟩ := Program.turn_of_none rfl
    simp only [Program.stateAfter, hend] at h
    cases h

theorem Reachable.emits (hr : l.Reachable h) : l.Emits (h.taken.flatMap Event.bytes) := by
  have t := hr.tracked
  have hpre : h.taken.flatMap Event.bytes <+: h.emitted := by
    rw [← t.bytes, History.events, List.flatMap_append, List.append_assoc]
    exact List.prefix_append _ _
  obtain ⟨n, s, hs, hsink⟩ := t.emitted
  have hset : l.job.interpreter (fun _ => false) = l.setting none := interpreter_job l none
  have hinit : l.job.initial l.input = Program.initial (l.setting none) #[] l.input := by
    rw [Job.initial, config_job]
    rfl
  rw [hset, hinit] at hs
  cases hp : Program.parse l.source with
  | ok p =>
    have hprogram : l.job.program = p := by
      unfold job Worker.start
      rw [hp]
    rw [hprogram] at hs
    refine .inr ⟨p, n, s, hp, hs, ?_⟩
    rw [hsink]
    exact hpre
  | error u =>
    have hprogram : l.job.program = Program.empty := by
      unfold job Worker.start
      rw [hp]
    rw [hprogram] at hs
    have hempty : h.emitted.toArray = #[] := by
      rw [← hsink, stateAfter_empty hs]
      rfl
    have hnil : h.emitted = [] := by simpa using hempty
    rw [hnil] at hpre
    exact .inl (List.prefix_nil.1 hpre)

/-- **What the watcher has taken** is output, or all the output there is and then the result. -/
theorem Reachable.taken_cases (hr : l.Reachable h) (hesc : h.run.channel.cancelled = true → l.escaped = true) :
    (∃ chunks : List (Array UInt8), h.taken = chunks.map .output) ∨
      ∃ (chunks : List (Array UInt8)) (result : Except RunError Stats),
        h.taken = chunks.map .output ++ [.finished result] ∧ l.Gives result (h.taken.flatMap Event.bytes).toArray := by
  have t := hr.tracked
  by_cases hw : h.run.worker = .ended
  · obtain ⟨chunks, result, hev, hrep⟩ := t.finished hw
    rw [History.events] at hev
    rcases List.append_eq_append_iff.1 hev with ⟨mid, htaken, -⟩ | ⟨mid, htaken, hlast⟩
    · obtain ⟨chunks', -, -, hc, -⟩ := List.map_eq_append_iff.1 htaken
      exact .inl ⟨chunks', hc.symm⟩
    · cases mid with
      | nil => exact .inl ⟨chunks, by rw [htaken, List.append_nil]⟩
      | cons e mid =>
        obtain ⟨rfl, hnil⟩ := List.cons.inj hlast
        obtain ⟨rfl, hqueue⟩ := List.append_eq_nil_iff.1 hnil.symm
        have hbytes := t.bytes
        rw [History.events, hqueue, hw, List.append_nil] at hbytes
        simp only [Worker.pending, List.append_nil] at hbytes
        refine .inr ⟨chunks, result, htaken, ?_⟩
        rw [hbytes]
        exact gives_of_reports hrep hesc
  · obtain ⟨chunks, hev⟩ := t.outputs hw
    obtain ⟨chunks', -, -, hc, -⟩ := List.map_eq_append_iff.1 hev.symm
    exact .inl ⟨chunks', hc.symm⟩

end Launch

end Brainfuck
