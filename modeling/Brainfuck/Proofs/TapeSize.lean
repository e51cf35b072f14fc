import Mathlib.Data.List.Basic
import Brainfuck.Proofs.InStep
import Brainfuck.Proofs.Safety
import Brainfuck.Proofs.Blame
/-!
# A larger tape changes nothing

Two runs of a program that differ in their tapes alone have tapes of different sizes, which grow at different moments.
As ideal tapes they are the same (`SameView`), for a command that the smaller bound permits is permitted by the larger
(`IdealTape.perform_of_le`).  So the runs keep in step until a `>` finds the end of the smaller tape
(`Program.run_on_larger_tape`).  Where the bounds are equal nothing tells the tapes apart.
-/
namespace Brainfuck

variable {σ ι : Type}

/-- The same setting, but for its tape. -/
def Setting.onTape (w : Setting σ ι) (policy : TapePolicy) : Setting σ ι := { w with config.tape := policy }

/-- A policy permits no more cells than another; none at all is the largest bound. -/
def TapePolicy.AtMost (small large : TapePolicy) : Prop :=
  ∀ n, IdealTape.bound large = some n → ∃ m, IdealTape.bound small = some m ∧ m ≤ n

theorem TapePolicy.atMost_of_bound_eq {small large : TapePolicy} (h : IdealTape.bound small = IdealTape.bound large) :
    small.AtMost large :=
  fun n hn => ⟨n, h.trans hn, Nat.le_refl n⟩

/-! ## Tapes that look the same -/

/-- A larger bound refuses no more, and only `>` depends on it. -/
theorem IdealTape.perform_of_le {bound bound' : Option Nat} (h : ∀ n, bound' = some n → ∃ m, bound = some m ∧ m ≤ n)
    {s : IdealTape} {c : Tape.Command} (hc : c = .right → (s.perform bound c).1 = none) :
    s.perform bound' c = s.perform bound c := by
  cases c with
  | right =>
    have hc := hc rfl
    cases bound with
    | none =>
      cases bound' with
      | none => rfl
      | some n =>
        obtain ⟨m, hm, -⟩ := h n rfl
        cases hm
    | some m =>
      simp only [perform] at hc ⊢
      by_cases hm : m ≤ s.pointer + 1
      · rw [if_pos hm] at hc
        cases hc
      · rw [if_neg hm]
        cases bound' with
        | none => rfl
        | some n =>
          obtain ⟨m', hm', hle⟩ := h n rfl
          cases hm'
          exact if_neg (by omega)
  | _ => rfl

theorem Tape.limit_perform (t : Tape) (c : Tape.Command) : (t.perform c).2.limit = t.limit := by
  have hdoes := perform_does t c
  generalize t.perform c = after at hdoes
  cases hdoes <;> rfl

theorem Tape.perform_of_ideal_eq {t t' : Tape} (hi : t'.ideal = t.ideal)
    (hl : ∀ n, t'.limit = some n → ∃ m, t.limit = some m ∧ m ≤ n) {c : Tape.Command}
    (hc : c = .right → (t.perform c).1 = none ∨ t'.limit = t.limit) :
    (t'.perform c).1 = (t.perform c).1 ∧ (t'.perform c).2.ideal = (t.perform c).2.ideal := by
  have h := ideal_perform t c
  have h' := ideal_perform t' c
  have hsame : t.ideal.perform t'.limit c = t.ideal.perform t.limit c := by
    by_cases heq : t'.limit = t.limit
    · rw [heq]
    · refine IdealTape.perform_of_le hl (fun hr => ?_)
      rw [h]
      exact (hc hr).resolve_right heq
  rw [hi, hsame, h] at h'
  obtain ⟨hfault, hideal⟩ := Prod.mk.inj h'
  exact ⟨hfault.symm, hideal.symm⟩

/-- Two scenes that differ in the size of their tapes alone. -/
structure SameView (small large : TapePolicy) (s s' : Scene σ ι) : Prop where
  ideal_eq : s'.tape.ideal = s.tape.ideal
  limit_small : s.tape.limit = IdealTape.bound small
  limit_large : s'.tape.limit = IdealTape.bound large
  sink_eq : s'.sink = s.sink
  input_eq : s'.input = s.input

/-- A `>` finds the end of the smaller tape, where the larger goes on. -/
def RunsOut (small large : TapePolicy) (a : Basic) (s : Scene σ ι) : Prop :=
  IdealTape.bound small ≠ IdealTape.bound large ∧ a = .right ∧ ∃ fault, s.tape.moveRight = .error fault

namespace SameView

variable {small large : TapePolicy} {s s' : Scene σ ι} {c : Tape.Command}

theorem get_eq (h : SameView small large s s') : s'.tape.get = s.tape.get := by
  rw [← Tape.ideal_get, ← Tape.ideal_get, h.ideal_eq]

theorem initial (w : Setting σ ι) (sink : σ) (input : ι) :
    SameView small large (.initial (w.onTape small) sink input) (.initial (w.onTape large) sink input) where
  ideal_eq := by
    show (Tape.new large).ideal = (Tape.new small).ideal
    rw [Tape.ideal_new, Tape.ideal_new]
  limit_small := Tape.limit_new small
  limit_large := Tape.limit_new large
  sink_eq := rfl
  input_eq := rfl

section

variable (hle : small.AtMost large) (h : SameView small large s s')
include hle h

theorem tape (hc : c = .right → (s.tape.perform c).1 = none ∨ IdealTape.bound small = IdealTape.bound large) :
    (s'.tape.perform c).1 = (s.tape.perform c).1 ∧
      SameView small large { s with tape := (s.tape.perform c).2 } { s' with tape := (s'.tape.perform c).2 } := by
  have hl : ∀ n, s'.tape.limit = some n → ∃ m, s.tape.limit = some m ∧ m ≤ n := by
    rw [h.limit_small, h.limit_large]
    exact hle
  have hc : c = .right → (s.tape.perform c).1 = none ∨ s'.tape.limit = s.tape.limit := by
    rw [h.limit_small, h.limit_large]
    exact fun hr => (hc hr).imp id Eq.symm
  obtain ⟨hfault, hideal⟩ := Tape.perform_of_ideal_eq h.ideal_eq hl hc
  refine ⟨hfault, hideal, ?_, ?_, h.sink_eq, h.input_eq⟩
  · exact (Tape.limit_perform s.tape c).trans h.limit_small
  · exact (Tape.limit_perform s'.tape c).trans h.limit_large

theorem set (value : UInt8) :
    SameView small large { s with tape := s.tape.set value } { s' with tape := s'.tape.set value } :=
  (h.tape hle (c := .set value) nofun).2

theorem move {move : Tape → Except TapeFault Tape} (hmove : ∀ t : Tape, t.perform c = t.settle (move t))
    (hc : c = .right → (∃ tape, move s.tape = .ok tape) ∨ IdealTape.bound small = IdealTape.bound large) :
    (∃ tape tape', move s.tape = .ok tape ∧ move s'.tape = .ok tape' ∧
      SameView small large { s with tape } { s' with tape := tape' }) ∨
    ∃ fault, move s.tape = .error fault ∧ move s'.tape = .error fault := by
  have hc : c = .right → (s.tape.perform c).1 = none ∨ IdealTape.bound small = IdealTape.bound large := by
    refine fun hr => (hc hr).imp (fun ⟨tape, ht⟩ => ?_) id
    rw [hmove, ht]
    rfl
  obtain ⟨hfault, hview⟩ := h.tape hle hc
  rw [hmove, hmove] at hfault hview
  cases hm : move s.tape with
  | ok tape =>
    cases hm' : move s'.tape with
    | ok tape' =>
      rw [hm, hm'] at hview
      exact .inl ⟨tape, tape', rfl, rfl, hview⟩
    | error fault => rw [hm, hm'] at hfault; cases hfault
  | error fault =>
    cases hm' : move s'.tape with
    | ok tape' => rw [hm, hm'] at hfault; cases hfault
    | error fault' =>
      rw [hm, hm'] at hfault
      cases hfault
      exact .inr ⟨fault, rfl, rfl⟩

theorem perform (w : Setting σ ι) (a : Basic) (site : Site) (ha : ¬ RunsOut small large a s) :
    Ending.InStep (SameView small large) (a.perform (w.onTape small) site s) (a.perform (w.onTape large) site s') := by
  cases a with
  | right =>
    have hc : (∃ tape, s.tape.moveRight = .ok tape) ∨ IdealTape.bound small = IdealTape.bound large := by
      refine Classical.or_iff_not_imp_right.2 (fun hne => ?_)
      cases hm : s.tape.moveRight with
      | ok tape => exact ⟨tape, rfl⟩
      | error fault => exact absurd ⟨hne, rfl, fault, hm⟩ ha
    simp only [Basic.perform]
    obtain ⟨tape, tape', hm, hm', hview⟩ | ⟨fault, hm, hm'⟩ := h.move hle (c := .right) (fun _ => rfl) (fun _ => hc)
    · rw [hm, hm']
      exact .done hview
    · rw [hm, hm']
      exact .failed _ h
  | left =>
    simp only [Basic.perform]
    obtain ⟨tape, tape', hm, hm', hview⟩ | ⟨fault, hm, hm'⟩ := h.move hle (c := .left) (fun _ => rfl) (by simp)
    · rw [hm, hm']
      exact .done hview
    · rw [hm, hm']
      exact .failed _ h
  | inc => exact .done (h.tape hle (c := .increment) (by simp)).2
  | dec => exact .done (h.tape hle (c := .decrement) (by simp)).2
  | output =>
    simp only [Basic.perform, Setting.onTape, h.sink_eq, h.get_eq]
    rcases w.sink.offer s.sink s.tape.get with ⟨sink, _ | cause⟩
    · exact .done ⟨h.ideal_eq, h.limit_small, h.limit_large, rfl, h.input_eq⟩
    · exact .failed _ ⟨h.ideal_eq, h.limit_small, h.limit_large, rfl, h.input_eq⟩
  | input =>
    have hset := h.set hle (w.config.eof.resolve s.tape.get (w.source.next s.input).2)
    simp only [Basic.perform, h.input_eq, h.get_eq]
    exact .done ⟨hset.ideal_eq, hset.limit_small, hset.limit_large, h.sink_eq, rfl⟩

end

end SameView

theorem parallel_onTape {small large : TapePolicy} (hle : small.AtMost large) (w : Setting σ ι) :
    Parallel (w.onTape small) (w.onTape large) (SameView small large) (RunsOut small large) where
  get h := h.get_eq
  highWater h := congrArg IdealTape.highWater h.ideal_eq
  stop ip steps h := by
    simp only [Setting.stop?, Scene.state, h.sink_eq, h.input_eq]
    rfl
  perform a site h ha := h.perform hle w a site ha

/-- Two runs ended alike and left their sinks and inputs in the same states. -/
structure Report.Same (r r' : Report σ ι) : Prop where
  sameEnd : r.SameEnd r'
  sink_eq : r'.final.sink = r.final.sink
  input_eq : r'.final.input = r.final.input

theorem Program.initial_onTape (w : Setting σ ι) (small large : TapePolicy) (sink : σ) (input : ι) :
    (Program.initial (w.onTape small) sink input).InStep (SameView small large)
      (Program.initial (w.onTape large) sink input) :=
  .mk 0 0 (SameView.initial w sink input)

theorem Program.run_onTape {p : Program} {w : Setting σ ι} {small large : TapePolicy} {sink : σ} {input : ι}
    (hle : small.AtMost large)
    (ht : ∀ n, p.Together (w.onTape small) (RunsOut small large) n (initial (w.onTape small) sink input))
    (patience : Nat) : Option.Rel Report.Same (p.run (w.onTape small) patience sink input)
      (p.run (w.onTape large) patience sink input) :=
  rel_mono (fun _ _ hr => ⟨hr.1, hr.2.sink_eq, hr.2.input_eq⟩)
    (run_inStep (parallel_onTape hle w) rfl (SameView.initial w sink input) ht patience)

/-! ## Where the smaller tape ends -/

namespace Program

variable {p : Program} {w : Setting σ ι} {small large : TapePolicy} {s t : State σ ι} {r : Report σ ι} {sink : σ}
  {input : ι} {site : Site} {limit : Nat}

/-- The run ends with a `>` on the last cell. -/
def Overflows (p : Program) (w : Setting σ ι) (sink : σ) (input : ι) : Prop :=
  ∃ patience r site limit, p.run w patience sink input = some r ∧ r.result = .error (.overflow site limit)

/-- Only a `>` that the tape refuses ends a run so, and it leaves everything as it is. -/
theorem moveRight_of_overflow (h : p.turn w t = .ended r) (he : r.result = .error (.overflow site limit)) :
    t.machine.tape.moveRight = .error (.overflow limit) ∧ r.final = t := by
  obtain ⟨-, rfl⟩ | ⟨e, hc, rfl⟩ | ⟨i, a, e, final, -, -, hp, rfl⟩ := turn_ended_cases h
  · cases he
  · cases he
    cases Setting.stop?_eq_some_iff.1 hc
  · cases he
    obtain ⟨fault, -, hm, hf, rfl⟩ | ⟨fault, -, hm, hf, -⟩ | ⟨out, cause, -, -, hf, -⟩ := Basic.failed_cases hp
    · cases fault with
      | underflow => cases hf
      | overflow most =>
        cases hf
        exact ⟨hm, rfl⟩
    · obtain rfl := Tape.eq_of_moveLeft_eq_error hm
      cases hf
    · cases hf

theorem turn_of_runsOut (h : p.Parts w (RunsOut small large) s) :
    ∃ r site limit, p.turn w s = .ended r ∧ r.result = .error (.overflow site limit) := by
  obtain ⟨⟨site, op⟩, a, hi, hc, ha, -, rfl, fault, hm⟩ := h
  obtain ⟨limit, rfl⟩ := Tape.exists_of_moveRight_eq_error hm
  cases ha
  have hx : p.execute w ⟨site, .right⟩ s = _ :=
    execute_basic (p := p) (w := w) .right site s.scene s.machine.ip s.machine.steps
  refine ⟨⟨.error (.overflow site limit), s⟩, site, limit, ?_, rfl⟩
  rw [turn_of_clear hi hc, hx, Basic.perform, hm]
  rfl

theorem turn_ne_next_of_runsOut (u v : State σ ι) (h : p.Parts w (RunsOut small large) u) : p.turn w u ≠ .next v := by
  obtain ⟨r, site, limit, hturn, -⟩ := turn_of_runsOut h
  rw [hturn]
  exact nofun

theorem together_of_not_overflows (h : ¬ p.Overflows w sink input) (n : Nat) :
    p.Together w (RunsOut small large) n (initial w sink input) := by
  intro k _ t ht hparts
  obtain ⟨r, site, limit, hturn, he⟩ := turn_of_runsOut hparts
  obtain ⟨patience, hr⟩ := exists_run_iff.2 (ends_iff.2 ⟨k, t, ht, hturn⟩)
  exact h ⟨patience, r, site, limit, hr, he⟩

/-- A run overflows on the last cell its policy permits. -/
theorem pointer_of_overflow {patience : Nat} (h : p.run w patience sink input = some r)
    (he : r.result = .error (.overflow site limit)) :
    IdealTape.bound w.config.tape = some limit ∧ r.final.machine.tape.pointer + 1 = limit ∧
      p.stateAfter w r.final.machine.steps (initial w sink input) = some r.final := by
  obtain ⟨n, -, t, ht, hturn⟩ := runFor_eq_some_iff.1 h
  obtain ⟨hm, hfinal⟩ := moveRight_of_overflow hturn he
  obtain ⟨is, -, hleads⟩ := stateAfter_iff_leads.1 ht
  have hfault : (t.machine.tape.perform .right).1 = some (.overflow limit) := by
    rw [Tape.perform, hm]
    rfl
  obtain ⟨-, hblocked⟩ := hleads.inRange.tape.blocked hfault
  rw [hfinal, steps_eq_of_stateAfter_initial ht]
  cases hblocked with
  | overflow hb hp => exact ⟨hb, hp, ht⟩

theorem summary_overflow {pointer : Nat} (h : pointer + 1 = limit) :
    RunError.summary (.overflow site limit) = "Tape overflow: moved right past cell " ++ toString pointer := by
  subst h
  rfl

/-- **A larger tape changes nothing in a run that fits on the smaller.**  Two runs differ in their tapes alone, of any
kinds and initial sizes.  Whatever the one on the smaller tape offers to its sink, the other offers too, as far as both
are followed.  If the first does not overflow, the runs offer the same and end alike, or neither ends.  If it does, its
pointer stands on the last cell the policy permits, which the message names, and the other run comes to the same sink
and input after as many instructions.  A fixed tape and one that grows to the same size cannot be told apart. -/
theorem run_on_larger_tape (p : Program) (w : Setting σ ι) {small large : TapePolicy} (hle : small.AtMost large)
    (sink : σ) (input : ι) :
    let a := w.onTape small
    let b := w.onTape large
    (∀ n, p.offered a n (initial a sink input) <+: p.offered b n (initial b sink input)) ∧
    (¬ p.Overflows a sink input →
      (∀ n, p.offered b n (initial b sink input) = p.offered a n (initial a sink input)) ∧
      ∀ patience, Option.Rel Report.Same (p.run a patience sink input) (p.run b patience sink input)) ∧
    (∀ patience r site limit, p.run a patience sink input = some r → r.result = .error (.overflow site limit) →
      IdealTape.bound small = some limit ∧ r.final.machine.tape.pointer + 1 = limit ∧
      RunError.summary (.overflow site limit) =
        "Tape overflow: moved right past cell " ++ toString r.final.machine.tape.pointer ∧
      ∃ t, p.stateAfter b r.final.machine.steps (initial b sink input) = some t ∧ t.sink = r.final.sink ∧
        t.input = r.final.input) ∧
    ∀ cells first patience, Option.Rel Report.Same (p.run (w.onTape (.fixed cells)) patience sink input)
      (p.run (w.onTape (.growable first (some cells))) patience sink input) := by
  intro a b
  have hpar : Parallel a b (SameView small large) (RunsOut small large) := parallel_onTape hle w
  have hstart := initial_onTape w small large sink input
  refine ⟨offered_isPrefix hpar turn_ne_next_of_runsOut hstart, fun hfits => ?_, ?_, ?_⟩
  · have ht : ∀ n, p.Together a (RunsOut small large) n (initial a sink input) := together_of_not_overflows hfits
    exact ⟨fun n => offered_inStep hpar hstart (ht n), run_onTape hle ht⟩
  · intro patience r site limit hr he
    obtain ⟨hb, hp, ht⟩ := pointer_of_overflow hr he
    obtain ⟨t, ht', hstep⟩ :=
      exists_stateAfter_inStep hpar hstart (together_of_stateAfter turn_ne_next_of_runsOut ht) ht
    exact ⟨hb, hp, summary_overflow hp, t, ht', hstep.scene.sink_eq, hstep.scene.input_eq⟩
  · intro cells first
    have hbound : IdealTape.bound (.fixed cells) = IdealTape.bound (.growable first (some cells)) := rfl
    exact run_onTape (TapePolicy.atMost_of_bound_eq hbound)
      (fun n => together_of_never (fun _ _ h => h.1 hbound) n _)

/-- Two cells are too few for the last `>`, and a tape that starts with none grows to three. -/
theorem run_on_larger_tape_third_cell :
    let w : Setting (Array UInt8) Unit := ⟨{ maxSteps := some 9 }, .collecting, .absent, .idle⟩
    let a := w.onTape (.fixed 2)
    let b := w.onTape (.growable 0 none)
    (TapePolicy.fixed 2).AtMost (.growable 0 none) ∧ ∃ p r, Program.parse "+.>.>-." = .ok p ∧
      p.run a 0 #[] () = some r ∧ r.result = .error (.overflow ⟨4, ⟨1, 5⟩⟩ 2) ∧ r.final.machine.tape.pointer + 1 = 2 ∧
      [1, 0] <+: p.offered b 9 (initial b #[] ()) ∧
      (p.run b 0 #[] ()).map (fun r => (r.result, r.final.sink)) = some (.ok ⟨7, 3⟩, #[1, 0, 255]) := by
  intro w a b
  let p : Program := ⟨(instructionsOf "+.>.>-.").toArray, ⟨Array.replicate 7 none⟩, rfl⟩
  have hle : (TapePolicy.fixed 2).AtMost (.growable 0 none) := nofun
  have hresult : (p.run a 0 #[] ()).map (·.result) = some (.error (.overflow ⟨4, ⟨1, 5⟩⟩ 2)) := by decide +kernel
  have hoffered : p.offered a 9 (initial a #[] ()) = [1, 0] := by decide +kernel
  obtain ⟨r, hr, he⟩ := Option.map_eq_some_iff.1 hresult
  obtain ⟨hoffers, -, hover, -⟩ := run_on_larger_tape p w hle #[] ()
  refine ⟨hle, p, r, rfl, hr, he, (hover 0 r _ 2 hr he).2.1, ?_, by decide +kernel⟩
  rw [← hoffered]
  exact hoffers 9

end Program

end Brainfuck
