import Mathlib.Data.List.Basic
import Brainfuck.Proofs.InStep
import Brainfuck.Proofs.Safety
/-!
# Input is seen through its answers

A `,` puts a byte into a cell, and that byte is all a program learns of its input.  Two runs keep in step whose inputs
lead to the same bytes, be they given or made up at the end of the input (`Program.parallel_reading`).  So zeros at the
end of an input are not seen if the end reads as zero, an absent input is an empty one, and nothing that comes after
the last byte that was asked for matters (`Program.input_seen_through_answers`).
-/
namespace Brainfuck

variable {σ ι ι' : Type}

/-- A run that reads from this source, with this behaviour at its end.  The flag and the clock know nothing of the
input. -/
def Setting.reading (config : Config) (sink : Sink σ) (flag : Nat → σ → Bool) (clock : Nat → Nat) (eof : EofBehavior)
    (source : Source ι) : Setting σ ι :=
  ⟨{ config with eof }, sink, source, ⟨fun k out _ => flag k out, clock⟩⟩

theorem Basic.input_perform {w : Setting σ ι} {s : Scene σ ι} {a : Basic} (site : Site) :
    (a.perform w site s).scene.input = if a = .input then (w.source.next s.input).1 else s.input := by
  cases a with
  | right =>
    simp only [perform]
    cases s.tape.moveRight <;> rfl
  | left =>
    simp only [perform]
    cases s.tape.moveLeft <;> rfl
  | output =>
    simp only [perform]
    rcases w.sink.offer s.sink s.tape.get with ⟨out, _ | cause⟩ <;> rfl
  | _ => rfl

namespace Program

variable {p : Program} {w : Setting σ ι} {s t : State σ ι} {r : Report σ ι}

/-! ## How often a run asks -/

theorem reads_add {n : Nat} (h : p.stateAfter w n s = some t) (m : Nat) :
    p.reads w (n + m) s = p.reads w n s + p.reads w m t := by
  rw [reads, attempted_add m h, List.countP_append]
  rfl

theorem reads_one {i : Instruction} (h : p.turn w s = .next t) (hi : p.instructions[s.machine.ip]? = some i) :
    p.reads w 1 s = if i.op = .input then 1 else 0 := by
  obtain ⟨j, hj, hattempt, -⟩ := attempt?_of_turn_eq_next h
  rw [hi] at hj
  cases hj
  rw [reads, attempted_succ_of_next h, hattempt]
  simp [attempted]

theorem input_of_turn_next {i : Instruction} (h : p.turn w s = .next t) (hi : p.instructions[s.machine.ip]? = some i) :
    t.input = if i.op = .input then (w.source.next s.input).1 else s.input := by
  obtain ⟨j, hj, -, hx⟩ := exists_of_turn_eq_next h
  rw [hi] at hj
  cases hj
  obtain ⟨site, op⟩ := i
  rcases op.cases_basic with rfl | rfl | ⟨a, rfl⟩
  · cases hx
    rfl
  · cases hx
    rfl
  · have hbasic : p.execute w ⟨site, a.toOp⟩ s = _ := execute_basic a site s.scene s.machine.ip s.machine.steps
    rw [hbasic] at hx
    obtain ⟨u, hu, rfl⟩ := Ending.exists_of_turn_eq_next hx
    have hinput := a.input_perform (w := w) (s := s.scene) site
    rw [hu] at hinput
    have hop : a.toOp = .input ↔ a = .input := by cases a <;> decide
    simp only [hop]
    exact hinput

theorem input_of_turn_ended (h : p.turn w s = .ended r) : r.final.input = s.input := by
  obtain ⟨-, rfl⟩ | ⟨e, -, rfl⟩ | ⟨i, a, e, final, -, -, hp, rfl⟩ := turn_ended_cases h
  · rfl
  · rfl
  · obtain ⟨-, -, -, -, rfl⟩ | ⟨-, -, -, -, rfl⟩ | ⟨-, -, -, -, -, rfl⟩ := Basic.failed_cases hp <;> rfl

/-- A run that reads bytes has used up as many as it asked for, as far as there were any. -/
theorem input_eq_drop {w : Setting σ (List UInt8)} (hw : w.source = .bytes) : ∀ {n : Nat} {s t : State σ (List UInt8)},
    p.stateAfter w n s = some t → t.input = s.input.drop (p.reads w n s)
  | 0, s, t, h => by
    cases h
    rfl
  | n + 1, s, t, h => by
    rw [Nat.add_comm, stateAfter_add, Option.bind_eq_some_iff] at h
    obtain ⟨u, hu, hrest⟩ := h
    have hturn := stateAfter_one.1 hu
    obtain ⟨i, hi, -, -⟩ := exists_of_turn_eq_next hturn
    rw [input_eq_drop hw hrest, input_of_turn_next hturn hi, Nat.add_comm n 1, reads_add hu, reads_one hturn hi, hw]
    by_cases hop : i.op = .input
    · rw [if_pos hop, if_pos hop, ← List.drop_drop]
      cases s.input <;> rfl
    · rw [if_neg hop, if_neg hop, Nat.zero_add]

/-! ## Inputs that answer alike -/

section Readers

variable {config : Config} {sink : Sink σ} {flag : Nat → σ → Bool} {clock : Nat → Nat} {eof eof' : EofBehavior}
  {source : Source ι} {source' : Source ι'}

/-- Sources that lead to the same bytes keep two runs in step, but where `E` exempts them from it. -/
theorem parallel_reading {I : ι → ι' → Prop} {E : ι → Prop}
    (h : ∀ input input', I input input' → ¬ E input →
      (∀ old, eof'.resolve old (source'.next input').2 = eof.resolve old (source.next input).2) ∧
        I (source.next input).1 (source'.next input').1) :
    Parallel (.reading config sink flag clock eof source) (.reading config sink flag clock eof' source')
      (Tied (fun out out' => out' = out) I) (fun a s => a = .input ∧ E s.input) := by
  refine parallel_tied (fun ip steps hR => ?_) (fun hout _ => ?_) (fun hin hd => h _ _ hin (fun he => hd ⟨rfl, he⟩))
  · simp only [Setting.stop?, Setting.reading, Scene.state, hR.sink]
    rfl
  · subst hout
    exact ⟨rfl, rfl⟩

/-- Two runs offer the same bytes and end alike, with their sinks in the same state, or neither ends. -/
structure Agree (p : Program) (w : Setting σ ι) (w' : Setting σ ι') (out : σ) (input : ι) (input' : ι') : Prop where
  offered_eq : ∀ n, p.offered w' n (initial w' out input') = p.offered w n (initial w out input)
  ends : ∀ patience, Option.Rel (fun r r' => r.SameEnd r' ∧ r'.final.sink = r.final.sink)
    (p.run w patience out input) (p.run w' patience out input')

theorem agree_reading {I : ι → ι' → Prop} {D : Basic → Scene σ ι → Prop} {out : σ} {input : ι} {input' : ι'}
    (h : Parallel (.reading config sink flag clock eof source) (.reading config sink flag clock eof' source')
      (Tied (fun out out' => out' = out) I) D) (hin : I input input')
    (ht : ∀ n, p.Together (.reading config sink flag clock eof source) D n
      (initial (.reading config sink flag clock eof source) out input)) :
    p.Agree (.reading config sink flag clock eof source) (.reading config sink flag clock eof' source') out input
      input' := by
  have hR : Tied (fun out out' => out' = out) I (.initial (.reading config sink flag clock eof source) out input)
      (.initial (.reading config sink flag clock eof' source') out input') := ⟨rfl, rfl, hin⟩
  refine ⟨fun n => offered_inStep h (.mk 0 0 hR) (ht n), fun patience => ?_⟩
  exact rel_mono (fun _ _ hr => ⟨hr.1, hr.2.sink⟩) (run_inStep h rfl hR ht patience)

theorem agree_padded {filler : UInt8} (hfill : ∀ old, eof.resolve old none = filler) (out : σ) (input : List UInt8)
    (k : Nat) : p.Agree (.reading config sink flag clock eof .bytes) (.reading config sink flag clock eof .bytes) out
      input (input ++ List.replicate k filler) := by
  have hpar : Parallel (.reading config sink flag clock eof .bytes) (.reading config sink flag clock eof .bytes)
      (Tied (fun out out' => out' = out) (fun input input' => ∃ k, input' = input ++ List.replicate k filler))
      (fun a _ => a = .input ∧ False) := by
    refine parallel_reading (E := fun _ => False) (fun input input' hin _ => ?_)
    obtain ⟨k, rfl⟩ := hin
    cases input with
    | cons byte rest => exact ⟨fun _ => rfl, k, rfl⟩
    | nil =>
      -- the end of the one input, and a byte of the padding or the end of the other
      cases k with
      | zero => exact ⟨fun _ => rfl, 0, rfl⟩
      | succ k => exact ⟨fun old => (hfill old).symm, k, rfl⟩
  exact agree_reading hpar ⟨k, rfl⟩ (fun n => together_of_never (fun _ _ h => h.2) n _)

theorem agree_absent (out : σ) :
    p.Agree (.reading config sink flag clock eof .absent) (.reading config sink flag clock eof .bytes) out () [] := by
  have hpar : Parallel (.reading config sink flag clock eof .absent) (.reading config sink flag clock eof .bytes)
      (Tied (fun out out' => out' = out) (fun _ input' => input' = [])) (fun a _ => a = .input ∧ False) := by
    refine parallel_reading (E := fun _ => False) (fun _ _ hin _ => ?_)
    subst hin
    exact ⟨fun _ => rfl, rfl⟩
  exact agree_reading hpar rfl (fun n => together_of_never (fun _ _ h => h.2) n _)

theorem parallel_extended (extra : List UInt8) :
    Parallel (.reading config sink flag clock eof .bytes) (.reading config sink flag clock eof' .bytes)
      (Tied (fun out out' => out' = out) (fun input input' => input' = input ++ extra))
      (fun a s => a = .input ∧ s.input = []) := by
  refine parallel_reading (E := fun input => input = []) (fun input input' hin hne => ?_)
  subst hin
  cases input with
  | nil => exact absurd rfl hne
  | cons byte rest => exact ⟨fun _ => rfl, rfl⟩

/-- A run that asks no more often than there are bytes never asks in vain. -/
theorem together_of_reads_le {w : Setting σ (List UInt8)} (hw : w.source = .bytes) {out : σ} {input : List UInt8}
    {patience : Nat} {r : Report σ (List UInt8)} (hr : p.run w patience out input = some r)
    (hle : p.reads w r.final.machine.steps (initial w out input) ≤ input.length) (n : Nat) :
    p.Together w (fun a s => a = .input ∧ s.input = []) n (initial w out input) := by
  obtain ⟨last, -, t, ht, hend⟩ := runFor_eq_some_iff.1 hr
  rw [(machine_of_turn_ended hend).1, steps_eq_of_stateAfter_initial ht] at hle
  rintro k - u hu ⟨⟨site, op⟩, a, hi, hc, ha, rfl, hempty⟩
  cases ha
  have hturn : p.turn w u = .next _ := turn_of_clear hi hc
  have hnext := stateAfter_trans hu (stateAfter_one.2 hturn)
  -- the run goes on after this `,`, so it ends later, and this `,` is one too many
  have hrun : p.runFor w (last + 1) (initial w out input) = some r :=
    runFor_eq_some_iff.2 ⟨last, Nat.lt_succ_self last, t, ht, hend⟩
  have hlt := (runFor_sub_of_stateAfter hrun hnext).1
  obtain ⟨m, rfl⟩ : ∃ m, last = k + 1 + m := ⟨last - (k + 1), by omega⟩
  have hdrop : u.input = input.drop (p.reads w k (initial w out input)) := input_eq_drop hw hu
  have hall : input.length ≤ p.reads w k (initial w out input) := List.drop_eq_nil_iff.1 (hdrop.symm.trans hempty)
  rw [reads_add hnext, reads_add hu, reads_one hturn hi, if_pos rfl] at hle
  omega

end Readers

/-- **Input is seen only through the answers to `,`.**  Zeros at the end of the input make no difference if the end
reads as zero, nor bytes 255 if it reads as these.  No input is an empty input.  If a run asks no more often than there
are bytes, then neither what the end reads as nor what comes after these bytes makes a difference.  And a run leaves the
input without as many bytes as it asked for, or without all. -/
theorem input_seen_through_answers (p : Program) (config : Config) (sink : Sink σ) (flag : Nat → σ → Bool)
    (clock : Nat → Nat) (out : σ) (input : List UInt8) :
    let w := fun eof => Setting.reading config sink flag clock eof .bytes
    (∀ k, p.Agree (w .zero) (w .zero) out input (input ++ List.replicate k 0) ∧
      p.Agree (w .ones) (w .ones) out input (input ++ List.replicate k 255)) ∧
    (∀ eof, p.Agree (.reading config sink flag clock eof .absent) (w eof) out () []) ∧
    (∀ eof patience r, p.run (w eof) patience out input = some r →
      p.reads (w eof) r.final.machine.steps (initial (w eof) out input) ≤ input.length →
      ∀ eof' extra, p.Agree (w eof) (w eof') out input (input ++ extra)) ∧
    ∀ eof patience r, p.run (w eof) patience out input = some r → r.final.input =
      input.drop (min input.length (p.reads (w eof) r.final.machine.steps (initial (w eof) out input))) := by
  intro w
  refine ⟨fun k => ⟨agree_padded (fun _ => rfl) out input k, agree_padded (fun _ => rfl) out input k⟩,
    fun eof => agree_absent out, ?_, ?_⟩
  · intro eof patience r hr hle eof' extra
    exact agree_reading (parallel_extended extra) rfl (together_of_reads_le rfl hr hle)
  · intro eof patience r hr
    obtain ⟨n, -, t, ht, hend⟩ := runFor_eq_some_iff.1 hr
    rw [input_of_turn_ended hend, (machine_of_turn_ended hend).1, steps_eq_of_stateAfter_initial ht,
      input_eq_drop rfl ht, Nat.min_comm]
    exact List.drop_eq_drop_min

/-- Of three bytes two are asked for: the third stays, and what the end would read as is not seen. -/
theorem input_seen_through_answers_two_bytes :
    let config : Config := { tape := .fixed 1, maxSteps := some 9 }
    let w := fun eof => Setting.reading config .collecting (fun _ _ => false) (fun _ => 0) eof .bytes
    ∃ p r, Program.parse ",.,." = .ok p ∧ p.run (w .zero) 0 #[] [104, 105, 7] = some r ∧ r.final.machine.steps = 4 ∧
      p.reads (w .zero) 4 (initial (w .zero) #[] [104, 105, 7]) = 2 ∧
      p.Agree (w .zero) (w .unchanged) #[] [104, 105, 7] [104, 105, 7, 0] ∧ r.final.input = [7] := by
  intro config w
  let p : Program := ⟨(instructionsOf ",.,.").toArray, ⟨#[none, none, none, none]⟩, rfl⟩
  have hsteps : (p.run (w .zero) 0 #[] [104, 105, 7]).map (·.final.machine.steps) = some 4 := by decide +kernel
  have hreads : p.reads (w .zero) 4 (initial (w .zero) #[] [104, 105, 7]) = 2 := by decide +kernel
  obtain ⟨r, hr, hsteps⟩ := Option.map_eq_some_iff.1 hsteps
  obtain ⟨-, -, hmore, hrest⟩ :=
    input_seen_through_answers p config .collecting (fun _ _ => false) (fun _ => 0) #[] [104, 105, 7]
  have hle : p.reads (w .zero) r.final.machine.steps (initial (w .zero) #[] [104, 105, 7]) ≤ 3 := by
    rw [hsteps, hreads]
    decide
  have hinput := hrest .zero 0 r hr
  rw [hsteps, hreads] at hinput
  exact ⟨p, r, rfl, hr, hsteps, hreads, hmore .zero 0 r hr hle .unchanged [0], hinput⟩

end Program

end Brainfuck
