import Brainfuck.Proofs.Trajectory
/-!
# Runs that keep in step

Two runs of one program under different settings keep in step if they are at the same instruction after the same number
of steps, in scenes that some relation ties together.  `Parallel` says what a relation has to do for that: the current
cells are equal, the same bound forbids the next instruction, and an operation leads to related scenes again.  Some
operations may be exempt: there the runs may part, but until one of them is executed the runs keep in step
(`Program.stateAfter_inStep`, `Program.run_inStep`).

What a run does for others to see is the list of the operations it attempts, each with the cell it finds
(`Program.attempted`): the bytes it offers to its sink and the number of its requests for input are read off that list.
-/
namespace Brainfuck

variable {σ ι σ' ι' : Type}

/-! ## What a run attempts -/

namespace Program

variable {p : Program} {w : Setting σ ι} {s t : State σ ι} {r : Report σ ι}

/-- The operation that the next turn attempts, with the cell it finds; none if the run ends before that. -/
def attempt? (p : Program) (w : Setting σ ι) (s : State σ ι) : Option (Op × UInt8) :=
  match w.stop? s with
  | some _ => none
  | none => p.instructions[s.machine.ip]?.map (fun i => (i.op, s.machine.tape.get))

/-- The operations that `n` turns attempt, in order; the last of them may have failed. -/
def attempted (p : Program) (w : Setting σ ι) : Nat → State σ ι → List (Op × UInt8)
  | 0, _ => []
  | n + 1, s =>
    (p.attempt? w s).toList ++
      match p.turn w s with
      | .next t => attempted p w n t
      | .ended _ => []

/-- The bytes that `n` turns offer to the sink. -/
def offered (p : Program) (w : Setting σ ι) (n : Nat) (s : State σ ι) : List UInt8 :=
  (p.attempted w n s).filterMap (fun a => if a.1 = .output then some a.2 else none)

/-- How often `n` turns ask for input. -/
def reads (p : Program) (w : Setting σ ι) (n : Nat) (s : State σ ι) : Nat :=
  (p.attempted w n s).countP (fun a => a.1 = .input)

theorem attempt?_of_turn_eq_next (h : p.turn w s = .next t) :
    ∃ i, p.instructions[s.machine.ip]? = some i ∧ p.attempt? w s = some (i.op, s.machine.tape.get) ∧
      p.execute w i s = .next t := by
  obtain ⟨i, hi, hc, hx⟩ := exists_of_turn_eq_next h
  refine ⟨i, hi, ?_, hx⟩
  rw [attempt?, hc, hi]
  rfl

theorem attempted_succ_of_next (h : p.turn w s = .next t) (n : Nat) :
    p.attempted w (n + 1) s = (p.attempt? w s).toList ++ p.attempted w n t := by
  simp only [attempted, h]

theorem attempted_succ_of_ended (h : p.turn w s = .ended r) (n : Nat) :
    p.attempted w (n + 1) s = (p.attempt? w s).toList := by
  simp only [attempted, h, List.append_nil]

theorem attempted_add (m : Nat) : ∀ {n : Nat} {s : State σ ι}, p.stateAfter w n s = some t →
    p.attempted w (n + m) s = p.attempted w n s ++ p.attempted w m t
  | 0, s, h => by
    cases h
    rw [Nat.zero_add]
    rfl
  | n + 1, s, h => by
    simp only [stateAfter] at h
    cases hs : p.turn w s with
    | ended r => rw [hs] at h; cases h
    | next u =>
      rw [hs] at h
      rw [Nat.succ_add_eq_add_succ, Nat.add_succ, attempted_succ_of_next hs, attempted_succ_of_next hs,
        attempted_add m h, List.append_assoc]

theorem attempted_succ (p : Program) (w : Setting σ ι) : ∀ (n : Nat) (s : State σ ι),
    p.attempted w (n + 1) s = p.attempted w n s ++ ((p.stateAfter w n s).bind (p.attempt? w)).toList
  | 0, s => by
    cases hs : p.turn w s with
    | ended r => exact attempted_succ_of_ended hs 0
    | next t => exact (attempted_succ_of_next hs 0).trans (List.append_nil _)
  | n + 1, s => by
    cases hs : p.turn w s with
    | ended r =>
      rw [attempted_succ_of_ended hs, attempted_succ_of_ended hs, stateAfter, hs]
      exact (List.append_nil _).symm
    | next t =>
      rw [attempted_succ_of_next hs, attempted_succ_of_next hs, attempted_succ p w n t, List.append_assoc, stateAfter,
        hs]

theorem attempted_of_stateAfter_eq_none {n : Nat} (h : p.stateAfter w n s = none) : ∀ k : Nat,
    p.attempted w (n + k) s = p.attempted w n s
  | 0 => rfl
  | k + 1 => by
    rw [← Nat.add_assoc, attempted_succ, attempted_of_stateAfter_eq_none h k, stateAfter_add, h]
    exact List.append_nil _

end Program

/-! ## States in step -/

/-- Two runs at the same instruction after as many steps, in related scenes. -/
inductive State.InStep (R : Scene σ ι → Scene σ' ι' → Prop) : State σ ι → State σ' ι' → Prop where
  | mk {s : Scene σ ι} {s' : Scene σ' ι'} (ip steps : Nat) (h : R s s') : InStep R (s.state ip steps) (s'.state ip steps)

theorem State.InStep.scene {R : Scene σ ι → Scene σ' ι' → Prop} {s : State σ ι} {s' : State σ' ι'}
    (h : s.InStep R s') : R s.scene s'.scene := by
  obtain ⟨ip, steps, hR⟩ := h
  exact hR

inductive Ending.InStep (R : Scene σ ι → Scene σ' ι' → Prop) : Ending σ ι → Ending σ' ι' → Prop where
  | done {s : Scene σ ι} {s' : Scene σ' ι'} (h : R s s') : InStep R (.done s) (.done s')
  | failed {s : Scene σ ι} {s' : Scene σ' ι'} (e : RunError) (h : R s s') : InStep R (.failed e s) (.failed e s')

structure Report.InStep (R : Scene σ ι → Scene σ' ι' → Prop) (r : Report σ ι) (r' : Report σ' ι') : Prop where
  result : r'.result = r.result
  final : r.final.InStep R r'.final

inductive Turn.InStep (R : Scene σ ι → Scene σ' ι' → Prop) : Turn σ ι → Turn σ' ι' → Prop where
  | next {s : State σ ι} {s' : State σ' ι'} (h : s.InStep R s') : InStep R (.next s) (.next s')
  | ended {r : Report σ ι} {r' : Report σ' ι'} (h : r.InStep R r') : InStep R (.ended r) (.ended r')

/-- Two runs ended with the same result, after as many steps and with as many cells touched. -/
structure Report.SameEnd (r : Report σ ι) (r' : Report σ' ι') : Prop where
  result_eq : r'.result = r.result
  stats_eq : r'.final.machine.stats = r.final.machine.stats

/-- `R` ties two runs together under these settings, as long as the first executes no operation in a scene where `D`
lets them part. -/
structure Parallel (w : Setting σ ι) (w' : Setting σ' ι') (R : Scene σ ι → Scene σ' ι' → Prop)
    (D : Basic → Scene σ ι → Prop) : Prop where
  get : ∀ {s : Scene σ ι} {s' : Scene σ' ι'}, R s s' → s'.tape.get = s.tape.get
  highWater : ∀ {s : Scene σ ι} {s' : Scene σ' ι'}, R s s' → s'.tape.highWater = s.tape.highWater
  stop : ∀ {s : Scene σ ι} {s' : Scene σ' ι'} (ip steps : Nat), R s s' →
    w'.stop? (s'.state ip steps) = w.stop? (s.state ip steps)
  perform : ∀ {s : Scene σ ι} {s' : Scene σ' ι'} (a : Basic) (site : Site), R s s' → ¬ D a s →
    Ending.InStep R (a.perform w site s) (a.perform w' site s')

theorem Parallel.stats_eq {w : Setting σ ι} {w' : Setting σ' ι'} {R : Scene σ ι → Scene σ' ι' → Prop}
    {D : Basic → Scene σ ι → Prop} (h : Parallel w w' R D) {s : Scene σ ι} {s' : Scene σ' ι'} (hR : R s s')
    (ip steps : Nat) : (s'.state ip steps).machine.stats = (s.state ip steps).machine.stats :=
  congrArg (fun high => Stats.mk steps (high + 1)) (h.highWater hR)

theorem Parallel.sameEnd {w : Setting σ ι} {w' : Setting σ' ι'} {R : Scene σ ι → Scene σ' ι' → Prop}
    {D : Basic → Scene σ ι → Prop} (h : Parallel w w' R D) {r : Report σ ι} {r' : Report σ' ι'} (hr : r.InStep R r') :
    r.SameEnd r' ∧ R r.final.scene r'.final.scene := by
  obtain ⟨result, final⟩ := r
  obtain ⟨result', final'⟩ := r'
  obtain ⟨hresult, hfinal⟩ := hr
  cases hfinal with
  | mk ip steps hR => exact ⟨⟨hresult, h.stats_eq hR ip steps⟩, hR⟩

/-- Two scenes with the same tape, whose sinks and inputs are related. -/
structure Tied (S : σ → σ' → Prop) (I : ι → ι' → Prop) (s : Scene σ ι) (s' : Scene σ' ι') : Prop where
  tape_eq : s'.tape = s.tape
  sink : S s.sink s'.sink
  input : I s.input s'.input

/-- Sinks that give the same answers and inputs that lead to the same bytes tie two runs together. -/
theorem parallel_tied {w : Setting σ ι} {w' : Setting σ' ι'} {S : σ → σ' → Prop} {I : ι → ι' → Prop}
    {D : Basic → Scene σ ι → Prop}
    (hstop : ∀ {s : Scene σ ι} {s' : Scene σ' ι'} (ip steps : Nat), Tied S I s s' →
      w'.stop? (s'.state ip steps) = w.stop? (s.state ip steps))
    (hoffer : ∀ {s : Scene σ ι} {out' : σ'}, S s.sink out' → ¬ D .output s →
      (w'.sink.offer out' s.tape.get).2 = (w.sink.offer s.sink s.tape.get).2 ∧
        S (w.sink.offer s.sink s.tape.get).1 (w'.sink.offer out' s.tape.get).1)
    (hnext : ∀ {s : Scene σ ι} {input' : ι'}, I s.input input' → ¬ D .input s →
      (∀ old, w'.config.eof.resolve old (w'.source.next input').2 = w.config.eof.resolve old (w.source.next s.input).2) ∧
        I (w.source.next s.input).1 (w'.source.next input').1) :
    Parallel w w' (Tied S I) D where
  get h := by rw [h.tape_eq]
  highWater h := by rw [h.tape_eq]
  stop := hstop
  perform {s s'} a site h hd := by
    obtain ⟨tape', out', input'⟩ := s'
    obtain ⟨rfl, hS, hI⟩ := h
    cases a with
    | right =>
      simp only [Basic.perform]
      cases s.tape.moveRight with
      | ok moved => exact .done ⟨rfl, hS, hI⟩
      | error fault => exact .failed _ ⟨rfl, hS, hI⟩
    | left =>
      simp only [Basic.perform]
      cases s.tape.moveLeft with
      | ok moved => exact .done ⟨rfl, hS, hI⟩
      | error fault => exact .failed _ ⟨rfl, hS, hI⟩
    | inc => exact .done ⟨rfl, hS, hI⟩
    | dec => exact .done ⟨rfl, hS, hI⟩
    | output =>
      obtain ⟨hanswer, hlater⟩ := hoffer hS hd
      simp only [Basic.perform]
      generalize w.sink.offer s.sink s.tape.get = answer at hanswer hlater
      generalize w'.sink.offer out' s.tape.get = answer' at hanswer hlater
      obtain ⟨later, cause⟩ := answer
      obtain ⟨later', cause'⟩ := answer'
      cases hanswer
      cases cause with
      | none => exact .done ⟨rfl, hlater, hI⟩
      | some cause => exact .failed _ ⟨rfl, hlater, hI⟩
    | input =>
      obtain ⟨hbyte, hlater⟩ := hnext hI hd
      exact .done ⟨by simp only [hbyte], hS, hlater⟩

theorem rel_mono {α β : Type} {P Q : α → β → Prop} (h : ∀ a b, P a b → Q a b) {a : Option α} {b : Option β} :
    Option.Rel P a b → Option.Rel Q a b
  | .none => .none
  | .some hab => .some (h _ _ hab)

namespace Program

variable {p : Program} {w : Setting σ ι} {w' : Setting σ' ι'} {R : Scene σ ι → Scene σ' ι' → Prop}
  {D : Basic → Scene σ ι → Prop} {s t : State σ ι} {s' : State σ' ι'} {n : Nat}

/-- The next turn executes an operation in a scene where the runs may part; `Together` says that none of the next `n`
turns does. -/
def Parts (p : Program) (w : Setting σ ι) (D : Basic → Scene σ ι → Prop) (s : State σ ι) : Prop :=
  ∃ (i : Instruction) (a : Basic), p.instructions[s.machine.ip]? = some i ∧ w.stop? s = none ∧ i.op = a.toOp ∧
    D a s.scene

def Together (p : Program) (w : Setting σ ι) (D : Basic → Scene σ ι → Prop) (n : Nat) (s : State σ ι) : Prop :=
  ∀ k < n, ∀ t, p.stateAfter w k s = some t → ¬ p.Parts w D t

theorem Together.here (h : p.Together w D (n + 1) s) : ¬ p.Parts w D s := h 0 (Nat.succ_pos n) s rfl

theorem Together.next (h : p.Together w D (n + 1) s) (ht : p.turn w s = .next t) : p.Together w D n t := by
  intro k hk u hu
  refine h (k + 1) (Nat.succ_lt_succ hk) u ?_
  simp only [stateAfter, ht]
  exact hu

theorem together_of_never (hD : ∀ a s, ¬ D a s) (n : Nat) (s : State σ ι) : p.Together w D n s := by
  rintro k - t - ⟨i, a, -, -, -, hd⟩
  exact hD a _ hd

/-- If the run ends wherever it might part from the other, then it has not parted as long as it goes on. -/
theorem together_of_stateAfter (hend : ∀ u v, p.Parts w D u → p.turn w u ≠ .next v)
    (h : p.stateAfter w n s = some t) : p.Together w D n s := by
  intro k hk u hu hparts
  obtain ⟨m, rfl⟩ : ∃ m, n = k + (1 + m) := ⟨n - k - 1, by omega⟩
  rw [stateAfter_add, hu, Option.bind_some, stateAfter_add] at h
  obtain ⟨v, hv, -⟩ := Option.bind_eq_some_iff.1 h
  exact hend u v hparts (stateAfter_one.1 hv)

/-! ## One turn -/

theorem execute_inStep (h : Parallel w w' R D) {s : Scene σ ι} {s' : Scene σ' ι'} (hR : R s s') (i : Instruction)
    (hd : ∀ a : Basic, i.op = a.toOp → ¬ D a s) (ip steps : Nat) :
    Turn.InStep R (p.execute w i (s.state ip steps)) (p.execute w' i (s'.state ip steps)) := by
  obtain ⟨site, op⟩ := i
  rcases op.cases_basic with rfl | rfl | ⟨a, rfl⟩
  · rw [execute_opening, execute_opening, h.get hR]
    exact .next (.mk _ _ hR)
  · rw [execute_closing, execute_closing, h.get hR]
    exact .next (.mk _ _ hR)
  · rw [execute_basic, execute_basic]
    have hperform := h.perform a site hR (hd a rfl)
    generalize a.perform w site s = e at hperform
    generalize a.perform w' site s' = e' at hperform
    cases hperform with
    | done hR => exact .next (.mk _ _ hR)
    | failed e hR => exact .ended ⟨rfl, .mk _ _ hR⟩

/-- **One turn**: two runs in step stay in step, or end alike, unless they part here. -/
theorem turn_inStep (h : Parallel w w' R D) (hs : s.InStep R s') (hd : ¬ p.Parts w D s) :
    Turn.InStep R (p.turn w s) (p.turn w' s') := by
  obtain ⟨ip, steps, hR⟩ := hs
  rename_i s s'
  have hstop := h.stop ip steps hR
  have hfetch : p.instructions[(s'.state ip steps).machine.ip]? = p.instructions[(s.state ip steps).machine.ip]? := rfl
  cases hi : p.instructions[(s.state ip steps).machine.ip]? with
  | none =>
    rw [turn_of_none hi, turn_of_none (hfetch.trans hi), h.stats_eq hR]
    exact .ended ⟨rfl, .mk _ _ hR⟩
  | some i =>
    cases hc : w.stop? (s.state ip steps) with
    | some e =>
      rw [turn_of_stop hi hc, turn_of_stop (hfetch.trans hi) (hstop.trans hc)]
      exact .ended ⟨rfl, .mk _ _ hR⟩
    | none =>
      rw [turn_of_clear hi hc, turn_of_clear (hfetch.trans hi) (hstop.trans hc)]
      exact execute_inStep h hR i (fun a ha hda => hd ⟨i, a, hi, hc, ha, hda⟩) ip steps

theorem attempt?_inStep (h : Parallel w w' R D) (hs : s.InStep R s') : p.attempt? w' s' = p.attempt? w s := by
  obtain ⟨ip, steps, hR⟩ := hs
  rename_i s s'
  have hget : (s'.state ip steps).machine.tape.get = (s.state ip steps).machine.tape.get := h.get hR
  rw [attempt?, attempt?, h.stop ip steps hR, hget]
  rfl

/-! ## Many turns -/

theorem stateAfter_inStep (h : Parallel w w' R D) : ∀ (n : Nat) {s : State σ ι} {s' : State σ' ι'}, s.InStep R s' →
    p.Together w D n s → Option.Rel (State.InStep R) (p.stateAfter w n s) (p.stateAfter w' n s')
  | 0, _, _, hs, _ => .some hs
  | n + 1, s, s', hs, ht => by
    have hturn := turn_inStep h hs ht.here
    have hrest := fun t (htn : p.turn w s = .next t) => ht.next htn
    simp only [stateAfter]
    generalize p.turn w s = a at hturn hrest
    generalize p.turn w' s' = b at hturn
    cases hturn with
    | next hnext => exact stateAfter_inStep h n hnext (hrest _ rfl)
    | ended _ => exact .none

theorem exists_stateAfter_inStep (h : Parallel w w' R D) (hs : s.InStep R s') (ht : p.Together w D n s)
    (hn : p.stateAfter w n s = some t) : ∃ t', p.stateAfter w' n s' = some t' ∧ t.InStep R t' := by
  have hrel := stateAfter_inStep h n hs ht
  rw [hn] at hrel
  generalize p.stateAfter w' n s' = after at hrel
  cases hrel with
  | some hstep => exact ⟨_, rfl, hstep⟩

theorem runFor_inStep (h : Parallel w w' R D) : ∀ (fuel : Nat) {s : State σ ι} {s' : State σ' ι'}, s.InStep R s' →
    p.Together w D fuel s → Option.Rel (Report.InStep R) (p.runFor w fuel s) (p.runFor w' fuel s')
  | 0, _, _, _, _ => .none
  | fuel + 1, s, s', hs, ht => by
    have hturn := turn_inStep h hs ht.here
    have hrest := fun t (htn : p.turn w s = .next t) => ht.next htn
    simp only [runFor]
    generalize p.turn w s = a at hturn hrest
    generalize p.turn w' s' = b at hturn
    cases hturn with
    | next hnext => exact runFor_inStep h fuel hnext (hrest _ rfl)
    | ended hr => exact .some hr

theorem attempted_inStep (h : Parallel w w' R D) : ∀ (n : Nat) {s : State σ ι} {s' : State σ' ι'}, s.InStep R s' →
    p.Together w D n s → p.attempted w' n s' = p.attempted w n s
  | 0, _, _, _, _ => rfl
  | n + 1, s, s', hs, ht => by
    have hturn := turn_inStep h hs ht.here
    have hrest := fun t (htn : p.turn w s = .next t) => ht.next htn
    simp only [attempted, attempt?_inStep h hs]
    generalize p.turn w s = a at hturn hrest
    generalize p.turn w' s' = b at hturn
    cases hturn with
    | next hnext => exact congrArg _ (attempted_inStep h n hnext (hrest _ rfl))
    | ended _ => rfl

/-- **A run that ends where it might part attempts no more than the other**, and up to there the same. -/
theorem attempted_isPrefix (h : Parallel w w' R D) (hend : ∀ u v, p.Parts w D u → p.turn w u ≠ .next v) :
    ∀ (n : Nat) {s : State σ ι} {s' : State σ' ι'}, s.InStep R s' → p.attempted w n s <+: p.attempted w' n s'
  | 0, _, _, _ => List.nil_prefix
  | n + 1, s, s', hs => by
    cases hturn : p.turn w s with
    | ended r =>
      rw [attempted_succ_of_ended hturn, attempted, attempt?_inStep h hs]
      exact List.prefix_append _ _
    | next t =>
      have hstep := turn_inStep h hs (fun hparts => hend s t hparts hturn)
      rw [hturn] at hstep
      cases hturn' : p.turn w' s' with
      | ended r => rw [hturn'] at hstep; cases hstep
      | next t' =>
        rw [hturn'] at hstep
        cases hstep with
        | next hnext =>
          rw [attempted_succ_of_next hturn, attempted_succ_of_next hturn', attempt?_inStep h hs]
          exact (List.prefix_append_right_inj _).2 (attempted_isPrefix h hend n hnext)

theorem offered_inStep (h : Parallel w w' R D) (hs : s.InStep R s') (ht : p.Together w D n s) :
    p.offered w' n s' = p.offered w n s := by
  rw [offered, offered, attempted_inStep h n hs ht]

theorem offered_isPrefix (h : Parallel w w' R D) (hend : ∀ u v, p.Parts w D u → p.turn w u ≠ .next v)
    (hs : s.InStep R s') (n : Nat) : p.offered w n s <+: p.offered w' n s' :=
  (attempted_isPrefix h hend n hs).filterMap _

/-- **Two runs that never part end alike**, or neither ends. -/
theorem run_inStep (h : Parallel w w' R D) (hm : w'.config.maxSteps = w.config.maxSteps) {out : σ} {out' : σ'}
    {input : ι} {input' : ι'} (hR : R (.initial w out input) (.initial w' out' input'))
    (ht : ∀ n, p.Together w D n (initial w out input)) (patience : Nat) :
    Option.Rel (fun r r' => r.SameEnd r' ∧ R r.final.scene r'.final.scene) (p.run w patience out input)
      (p.run w' patience out' input') := by
  rw [run, run, hm]
  exact rel_mono (fun _ _ hr => h.sameEnd hr) (runFor_inStep h _ (.mk 0 0 hR) (ht _))

end Program

end Brainfuck
