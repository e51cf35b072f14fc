import Brainfuck.Proofs.IdealTape
import Brainfuck.Proofs.Matching
import Brainfuck.Proofs.Trajectory
/-!
# Nothing a run looks up is missing

A `Tape` carries the proof that its pointer stands on a cell, and `Machine.landing` has an answer also for a bracket
without a partner, so in a `Machine` nothing can be missing.  `Bare` is the machine without these precautions: an array
and some numbers, where a pointer that stands on no cell and a bracket without a partner end everything (`Panic`).  It
does in every run what the machine does (`Program.bareAfter_bare`), so no panic is ever reached.

`Program.Leads` keeps with each state of a run the instructions executed on the way to it.  What they keep in range is
`InRange`: a step keeps it (`InRange.step`), hence a run does (`Program.Leads.inRange`).
-/
namespace Brainfuck

inductive Panic where
  /-- The pointer stands on no cell. -/
  | noCell (pointer : Nat)
  /-- A bracket that is to jump has no partner. -/
  | noPartner (ip : Nat)
  deriving DecidableEq, Repr

/-- A machine whose tape is plain data. -/
structure Bare where
  cells : Array UInt8
  pointer : Nat
  limit : Option Nat
  highWater : Nat
  ip : Nat
  steps : Nat

structure BareState (σ ι : Type) where
  machine : Bare
  sink : σ
  input : ι

namespace Bare

def start (policy : TapePolicy) : Bare := ⟨Array.replicate policy.initialCells 0, 0, policy.limit, 0, 0, 0⟩

def get (m : Bare) : Except Panic UInt8 :=
  match m.cells[m.pointer]? with
  | some value => .ok value
  | none => .error (.noCell m.pointer)

def set (m : Bare) (value : UInt8) : Except Panic Bare :=
  if m.pointer < m.cells.size then .ok { m with cells := m.cells.setIfInBounds m.pointer value }
  else .error (.noCell m.pointer)

/-- The machine with its pointer one cell further right; none if the limit forbids that. -/
def moveRight (m : Bare) : Option Bare :=
  if m.limit.any (· ≤ m.pointer + 1) then none
  else some { m with
    cells := Tape.reach m.cells m.limit (m.pointer + 1)
    pointer := m.pointer + 1
    highWater := max m.highWater (m.pointer + 1) }

def moveLeft (m : Bare) : Option Bare :=
  if m.pointer = 0 then none else some { m with pointer := m.pointer - 1 }

def goTo (m : Bare) (ip : Nat) : Bare := { m with ip, steps := m.steps + 1 }

def proceed (m : Bare) : Bare := m.goTo (m.ip + 1)

def jump (jumps : Jumps) (m : Bare) : Except Panic Bare :=
  match jumps.target m.ip with
  | some partner => .ok (m.goTo (partner + 1))
  | none => .error (.noPartner m.ip)

def receive (eof : EofBehavior) (m : Bare) (byte? : Option UInt8) : Except Panic Bare :=
  match byte?, eof with
  | some byte, _ => m.set byte
  | none, .zero => m.set 0
  | none, .ones => m.set 255
  | none, .unchanged => .ok m

/-- Executes an operation; no state is left if it fails. -/
def execute {σ ι : Type} (jumps : Jumps) (w : Setting σ ι) (s : BareState σ ι) :
    Op → Except Panic (Option (BareState σ ι))
  | .right => .ok (s.machine.moveRight.map (fun m => { s with machine := m.proceed }))
  | .left => .ok (s.machine.moveLeft.map (fun m => { s with machine := m.proceed }))
  | .inc => do
    let m ← s.machine.set ((← s.machine.get) + 1)
    return some { s with machine := m.proceed }
  | .dec => do
    let m ← s.machine.set ((← s.machine.get) - 1)
    return some { s with machine := m.proceed }
  | .output => do
    match w.sink.offer s.sink (← s.machine.get) with
    | (sink, none) => return some { s with machine := s.machine.proceed, sink }
    | (_, some _) => return none
  | .input => do
    match w.source.next s.input with
    | (input, byte?) =>
      let m ← s.machine.receive w.config.eof byte?
      return some { s with machine := m.proceed, input }
  | .opening => do
    if (← s.machine.get) = 0 then return some { s with machine := ← s.machine.jump jumps }
    else return some { s with machine := s.machine.proceed }
  | .closing => do
    if (← s.machine.get) ≠ 0 then return some { s with machine := ← s.machine.jump jumps }
    else return some { s with machine := s.machine.proceed }

end Bare

namespace Program

variable {σ ι : Type}

/-- The state after one more instruction; none if the run ends here. -/
def bareStep (p : Program) (w : Setting σ ι) (s : BareState σ ι) : Except Panic (Option (BareState σ ι)) :=
  match p.instructions[s.machine.ip]? with
  | none => .ok none
  | some i =>
    match w.config.stop? s.machine.steps (w.watch.cancelled s.machine.steps s.sink s.input)
        (w.watch.elapsed s.machine.steps) with
    | some _ => .ok none
    | none => Bare.execute p.jumps w s i.op

def bareAfter (p : Program) (w : Setting σ ι) : Nat → BareState σ ι → Except Panic (Option (BareState σ ι))
  | 0, s => .ok (some s)
  | n + 1, s =>
    match p.bareStep w s with
    | .error panic => .error panic
    | .ok none => .ok none
    | .ok (some t) => bareAfter p w n t

end Program

/-! ## A machine laid bare -/

def Machine.bare (m : Machine) : Bare :=
  ⟨m.tape.cells, m.tape.pointer, m.tape.limit, m.tape.highWater, m.ip, m.steps⟩

def State.bare {σ ι : Type} (s : State σ ι) : BareState σ ι := ⟨s.machine.bare, s.sink, s.input⟩

def Turn.next? {σ ι : Type} : Turn σ ι → Option (State σ ι)
  | .next s => some s
  | .ended _ => none

namespace Machine

theorem bare_get (m : Machine) : m.bare.get = .ok m.tape.get := by
  have h := m.tape.pointer_lt
  simp [Bare.get, bare, Tape.get, h]

theorem bare_set (m : Machine) (value : UInt8) : m.bare.set value = .ok { m with tape := m.tape.set value }.bare := by
  have h := m.tape.pointer_lt
  simp [Bare.set, bare, Tape.set, h, Array.setIfInBounds]

theorem bare_moveRight (m : Machine) :
    m.bare.moveRight = m.tape.moveRight.toOption.map (fun tape => { m with tape }.bare) := by
  have hdoes := Tape.does_right m.tape
  cases hm : m.tape.moveRight with
  | error fault =>
    rw [hm] at hdoes
    cases hdoes with
    | overflow hl hle =>
      have hany : m.bare.limit.any (· ≤ m.bare.pointer + 1) = true := by simp [bare, hl, hle]
      rw [Bare.moveRight, if_pos hany]
      rfl
  | ok tape =>
    rw [hm] at hdoes
    cases hdoes with
    | advance hp =>
      have hany : m.bare.limit.any (· ≤ m.bare.pointer + 1) = false := by
        cases hl : m.tape.limit with
        | none => simp [bare, hl]
        | some most =>
          rw [hl] at hp
          simp only [bare, hl, Option.any_some, decide_eq_false_iff_not]
          exact Nat.not_le.2 hp
      rw [Bare.moveRight, if_neg (by simp [hany])]
      rfl

theorem bare_moveLeft (m : Machine) :
    m.bare.moveLeft = m.tape.moveLeft.toOption.map (fun tape => { m with tape }.bare) := by
  obtain ⟨⟨cells, pointer, limit, highWater, hp, hw⟩, ip, steps⟩ := m
  cases pointer <;> rfl

theorem bare_receive (eof : EofBehavior) (m : Machine) (byte? : Option UInt8) :
    m.bare.receive eof byte? = .ok { m with tape := m.tape.set (eof.resolve m.tape.get byte?) }.bare := by
  cases byte? with
  | some byte => exact bare_set m byte
  | none =>
    cases eof with
    | zero => exact bare_set m 0
    | ones => exact bare_set m 255
    | unchanged =>
      -- storing the value that is there changes nothing
      have hcells : (m.tape.set m.tape.get).cells = m.tape.cells := by
        simp [Tape.set, Tape.get]
      simp only [Bare.receive, bare, EofBehavior.resolve, hcells]
      rfl

end Machine

namespace Program

variable {σ ι : Type} {p : Program} {w : Setting σ ι}

theorem matches_jumps (p : Program) : p.jumps.Matches p.instructions.toList := by
  obtain ⟨b, hb, hj⟩ := Jumps.build_eq_ok_iff.1 p.resolved
  rw [hj, ← hb]
  exact Jumps.jumps_matches b

theorem exists_partner {ip : Nat} {i : Instruction} (hi : p.instructions[ip]? = some i) (hb : i.op.isBracket = true) :
    ∃ partner, p.jumps.target ip = some partner ∧ partner + 1 ≤ p.size := by
  have hop : opAt p.instructions.toList ip = some i.op := by
    rw [opAt, Array.getElem?_toList, hi]
    rfl
  obtain ⟨partner, hpartner⟩ := Option.isSome_iff_exists.1 ((p.matches_jumps.isSome_target_iff ip).2 ⟨i.op, hop, hb⟩)
  have hback := p.matches_jumps.target_target ip partner hpartner
  obtain ⟨op, hop', -⟩ := (p.matches_jumps.isSome_target_iff partner).1 (by rw [hback]; rfl)
  obtain ⟨site, hsite⟩ := opAt_eq_some_iff.1 hop'
  obtain ⟨hlt, -⟩ := List.getElem?_eq_some_iff.1 hsite
  rw [Array.length_toList] at hlt
  exact ⟨partner, hpartner, hlt⟩

theorem bare_jump {i : Instruction} {m : Machine} (hi : p.instructions[m.ip]? = some i) (hb : i.op.isBracket = true) :
    m.bare.jump p.jumps = .ok { m with ip := Machine.landing p.jumps m.ip, steps := m.steps + 1 }.bare := by
  obtain ⟨partner, hpartner, -⟩ := exists_partner hi hb
  have hbare : p.jumps.target m.bare.ip = some partner := hpartner
  simp only [Bare.jump, hbare, Machine.landing, hpartner, Option.getD_some]
  rfl

theorem bare_basic (a : Basic) (site : Site) (s : State σ ι) : Bare.execute p.jumps w s.bare a.toOp =
    .ok (((a.perform w site s.scene).turn s.machine.ip s.machine.steps).next?.map State.bare) := by
  obtain ⟨m, out, input⟩ := s
  cases a with
  | right =>
    simp only [Bare.execute, Basic.toOp, Basic.perform, State.bare, State.scene, Machine.bare_moveRight]
    cases m.tape.moveRight <;> rfl
  | left =>
    simp only [Bare.execute, Basic.toOp, Basic.perform, State.bare, State.scene, Machine.bare_moveLeft]
    cases m.tape.moveLeft <;> rfl
  | inc =>
    simp only [Bare.execute, Basic.toOp, State.bare, Machine.bare_get, bind, Except.bind, Machine.bare_set]
    rfl
  | dec =>
    simp only [Bare.execute, Basic.toOp, State.bare, Machine.bare_get, bind, Except.bind, Machine.bare_set]
    rfl
  | output =>
    simp only [Bare.execute, Basic.toOp, Basic.perform, State.bare, State.scene, Machine.bare_get, bind, Except.bind]
    obtain ⟨out, cause⟩ := w.sink.offer out m.tape.get
    cases cause <;> rfl
  | input =>
    simp only [Bare.execute, Basic.toOp, Basic.perform, State.bare, State.scene, bind, Except.bind,
      Machine.bare_receive]
    rfl

/-- **An instruction does to a bare machine what it does to a machine.** -/
theorem bare_execute {i : Instruction} {s : State σ ι} (hi : p.instructions[s.machine.ip]? = some i) :
    Bare.execute p.jumps w s.bare i.op = .ok ((p.execute w i s).next?.map State.bare) := by
  have hget : s.bare.machine.get = .ok s.machine.tape.get := Machine.bare_get s.machine
  obtain ⟨site, op⟩ := i
  rcases op.cases_basic with rfl | rfl | ⟨a, rfl⟩
  · have hjump : s.bare.machine.jump p.jumps = _ := bare_jump hi rfl
    have hx : p.execute w ⟨site, .opening⟩ s = _ := execute_opening site s.scene s.machine.ip s.machine.steps
    rw [hx]
    simp only [Bare.execute, hget, hjump, bind, Except.bind]
    by_cases hz : s.machine.tape.get = 0
    · rw [if_pos hz, if_pos (show s.scene.tape.get = 0 from hz)]
      rfl
    · rw [if_neg hz, if_neg (show s.scene.tape.get ≠ 0 from hz)]
      rfl
  · have hjump : s.bare.machine.jump p.jumps = _ := bare_jump hi rfl
    have hx : p.execute w ⟨site, .closing⟩ s = _ := execute_closing site s.scene s.machine.ip s.machine.steps
    rw [hx]
    simp only [Bare.execute, hget, hjump, bind, Except.bind]
    by_cases hz : s.machine.tape.get = 0
    · rw [if_neg (fun h => h hz), if_pos (show s.scene.tape.get = 0 from hz)]
      rfl
    · rw [if_pos hz, if_neg (show s.scene.tape.get ≠ 0 from hz)]
      rfl
  · have hx : p.execute w ⟨site, a.toOp⟩ s = _ := execute_basic a site s.scene s.machine.ip s.machine.steps
    rw [hx]
    exact bare_basic a site s

theorem bareStep_bare (s : State σ ι) : p.bareStep w s.bare = .ok ((p.turn w s).next?.map State.bare) := by
  have hfetch : p.instructions[s.bare.machine.ip]? = p.instructions[s.machine.ip]? := rfl
  have hstop : w.config.stop? s.bare.machine.steps
      (w.watch.cancelled s.bare.machine.steps s.bare.sink s.bare.input) (w.watch.elapsed s.bare.machine.steps) =
      w.stop? s := rfl
  unfold bareStep
  rw [hfetch, hstop]
  cases hi : p.instructions[s.machine.ip]? with
  | none =>
    rw [turn_of_none hi]
    rfl
  | some i =>
    cases hc : w.stop? s with
    | some e =>
      rw [turn_of_stop hi hc]
      rfl
    | none =>
      rw [turn_of_clear hi hc]
      exact bare_execute hi

/-- **No run panics**: as long as it goes on, and when it ends, the bare machine does the same. -/
theorem bareAfter_bare (p : Program) (w : Setting σ ι) : ∀ (n : Nat) (s : State σ ι),
    p.bareAfter w n s.bare = .ok ((p.stateAfter w n s).map State.bare)
  | 0, _ => rfl
  | n + 1, s => by
    simp only [bareAfter, stateAfter, bareStep_bare]
    cases p.turn w s with
    | next t => exact bareAfter_bare p w n t
    | ended r => rfl

end Program

/-! ## What a run keeps to -/

theorem Tape.highWater_perform_le (t : Tape) (c : Tape.Command) :
    (t.perform c).2.highWater ≤ t.highWater + if c = .right then 1 else 0 := by
  have hdoes := perform_does t c
  generalize t.perform c = after at hdoes
  cases hdoes with
  | advance hp =>
    have hadvance : (t.advance hp).highWater = max t.highWater (t.pointer + 1) := rfl
    have hle := t.pointer_le
    simp only [hadvance, if_true]
    omega
  | _ => exact Nat.le_add_right t.highWater _

/-- Of the operations only `>` commands a tape to move right. -/
theorem Basic.exists_command_of_done {σ ι : Type} {w : Setting σ ι} {site : Site} {s t : Scene σ ι} {a : Basic}
    (h : a.perform w site s = .done t) :
    t.tape = s.tape ∨ ∃ c, t.tape = (s.tape.perform c).2 ∧ (c = .right → a = .right) := by
  cases a with
  | right =>
    refine .inr ⟨.right, ?_, fun _ => rfl⟩
    simp only [perform] at h
    cases hm : s.tape.moveRight with
    | ok tape => rw [hm] at h; cases h; rw [Tape.perform, hm]; rfl
    | error fault => rw [hm] at h; cases h
  | left =>
    refine .inr ⟨.left, ?_, fun hc => by cases hc⟩
    simp only [perform] at h
    cases hm : s.tape.moveLeft with
    | ok tape => rw [hm] at h; cases h; rw [Tape.perform, hm]; rfl
    | error fault => rw [hm] at h; cases h
  | inc => cases h; exact .inr ⟨.increment, rfl, fun hc => by cases hc⟩
  | dec => cases h; exact .inr ⟨.decrement, rfl, fun hc => by cases hc⟩
  | output =>
    refine .inl ?_
    simp only [perform] at h
    rcases ho : w.sink.offer s.sink s.tape.get with ⟨out, _ | cause⟩
    · rw [ho] at h
      cases h
      rfl
    · rw [ho] at h
      cases h
  | input => cases h; exact .inr ⟨.set _, rfl, fun hc => by cases hc⟩

theorem Basic.tape_of_failed {σ ι : Type} {w : Setting σ ι} {site : Site} {s t : Scene σ ι} {a : Basic} {e : RunError}
    (h : a.perform w site s = .failed e t) : t.tape = s.tape := by
  obtain ⟨-, -, -, -, rfl⟩ | ⟨-, -, -, -, rfl⟩ | ⟨-, -, -, -, -, rfl⟩ := failed_cases h <;> rfl

namespace Program

variable {σ ι : Type} {p : Program} {w : Setting σ ι} {s t : State σ ι} {is : List Instruction} {i : Instruction}
  {policy : TapePolicy}

/-- From `s` a run comes to `t`, and executes these instructions on the way. -/
inductive Leads (p : Program) (w : Setting σ ι) (s : State σ ι) : List Instruction → State σ ι → Prop where
  | here : Leads p w s [] s
  | step {is : List Instruction} {i : Instruction} {t u : State σ ι} (h : Leads p w s is t)
      (hi : p.instructions[t.machine.ip]? = some i) (ht : p.turn w t = .next u) : Leads p w s (is ++ [i]) u

theorem stateAfter_iff_leads : ∀ {n : Nat} {t : State σ ι},
    p.stateAfter w n s = some t ↔ ∃ is, is.length = n ∧ p.Leads w s is t
  | 0, t => by
    constructor
    · intro h
      cases h
      exact ⟨[], rfl, .here⟩
    · rintro ⟨is, hn, hl⟩
      cases hl with
      | here => rfl
      | step h hi ht => simp at hn
  | n + 1, t => by
    -- `Leads` grows at its end, so it is the last step that is split off
    rw [stateAfter_succ_iff]
    constructor
    · rintro ⟨u, hu, ht⟩
      obtain ⟨is, hn, hl⟩ := stateAfter_iff_leads.1 hu
      obtain ⟨i, hi, -, -⟩ := exists_of_turn_eq_next ht
      exact ⟨is ++ [i], by simp [hn], hl.step hi ht⟩
    · rintro ⟨is, hn, hl⟩
      cases hl with
      | here => cases hn
      | @step is i u _ h hi ht => exact ⟨u, stateAfter_iff_leads.2 ⟨is, by simpa using hn, h⟩, ht⟩

def movesRight (is : List Instruction) : Nat := is.countP (fun i => decide (i.op = .right))

theorem movesRight_concat (is : List Instruction) (i : Instruction) :
    movesRight (is ++ [i]) = movesRight is + if i.op = .right then 1 else 0 := by
  simp [movesRight, List.countP_append, List.countP_singleton]

/-- What is in range in a state to which these instructions led. -/
structure InRange (p : Program) (policy : TapePolicy) (is : List Instruction) (s : State σ ι) : Prop where
  ip_le : s.machine.ip ≤ p.size
  tape : s.machine.tape.Sound policy
  steps_eq : s.machine.steps = is.length
  highWater_le : s.machine.tape.highWater ≤ movesRight is

theorem inRange_initial (p : Program) (w : Setting σ ι) (sink : σ) (input : ι) :
    p.InRange w.config.tape [] (initial w sink input) :=
  ⟨Nat.zero_le _, Tape.sound_new w.config.tape, rfl, Nat.le_refl 0⟩

theorem landing_le {ip : Nat} (hi : p.instructions[ip]? = some i) (hb : i.op.isBracket = true) :
    Machine.landing p.jumps ip ≤ p.size := by
  obtain ⟨partner, hpartner, hle⟩ := exists_partner hi hb
  rw [Machine.landing, hpartner]
  exact hle

theorem InRange.bracket (h : p.InRange policy is s) {ip : Nat} (hip : ip ≤ p.size) (i : Instruction) :
    p.InRange policy (is ++ [i]) (s.scene.state ip (s.machine.steps + 1)) := by
  refine ⟨hip, h.tape, ?_, ?_⟩
  · rw [List.length_append, ← h.steps_eq]
    rfl
  · rw [movesRight_concat]
    exact Nat.le_trans h.highWater_le (Nat.le_add_right _ _)

theorem InRange.basic (h : p.InRange policy is s) (hip : s.machine.ip + 1 ≤ p.size) {a : Basic} {site : Site}
    {u : Scene σ ι} (ha : a.perform w site s.scene = .done u) :
    p.InRange policy (is ++ [⟨site, a.toOp⟩]) (u.state (s.machine.ip + 1) (s.machine.steps + 1)) := by
  have hold := h.highWater_le
  have hmore := movesRight_concat is ⟨site, a.toOp⟩
  have hsteps : s.machine.steps + 1 = (is ++ [(⟨site, a.toOp⟩ : Instruction)]).length := by
    rw [List.length_append, ← h.steps_eq]
    rfl
  obtain hsame | ⟨c, hc, hright⟩ := Basic.exists_command_of_done ha
  · have hsound : u.tape.Sound policy := by
      rw [hsame]
      exact h.tape
    refine ⟨hip, hsound, hsteps, ?_⟩
    have hhigh : u.tape.highWater = s.machine.tape.highWater := congrArg Tape.highWater hsame
    show u.tape.highWater ≤ _
    omega
  · have hsound : u.tape.Sound policy := by
      rw [hc]
      exact h.tape.perform c
    refine ⟨hip, hsound, hsteps, ?_⟩
    have hhigh : u.tape.highWater ≤ s.machine.tape.highWater + if c = .right then 1 else 0 := by
      rw [hc]
      exact Tape.highWater_perform_le _ c
    show u.tape.highWater ≤ _
    by_cases hr : c = .right
    · have hop : a.toOp = .right := by rw [hright hr]; rfl
      rw [if_pos hr] at hhigh
      rw [if_pos hop] at hmore
      omega
    · rw [if_neg hr] at hhigh
      omega

/-- **A step keeps everything in range.** -/
theorem InRange.step (h : p.InRange policy is s) (hi : p.instructions[s.machine.ip]? = some i)
    (ht : p.turn w s = .next t) : p.InRange policy (is ++ [i]) t := by
  have hnext : s.machine.ip + 1 ≤ p.size := (Array.getElem?_eq_some_iff.1 hi).1
  obtain ⟨i', hi', -, hx⟩ := exists_of_turn_eq_next ht
  rw [hi, Option.some.injEq] at hi'
  subst hi'
  obtain ⟨site, op⟩ := i
  rcases op.cases_basic with rfl | rfl | ⟨a, rfl⟩
  · have hto : p.execute w ⟨site, .opening⟩ s = _ := execute_opening site s.scene s.machine.ip s.machine.steps
    rw [hto] at hx
    cases hx
    refine h.bracket ?_ _
    split
    · exact landing_le hi rfl
    · exact hnext
  · have hto : p.execute w ⟨site, .closing⟩ s = _ := execute_closing site s.scene s.machine.ip s.machine.steps
    rw [hto] at hx
    cases hx
    refine h.bracket ?_ _
    split
    · exact hnext
    · exact landing_le hi rfl
  · have hto : p.execute w ⟨site, a.toOp⟩ s = _ := execute_basic a site s.scene s.machine.ip s.machine.steps
    rw [hto] at hx
    obtain ⟨u, hu, rfl⟩ := Ending.exists_of_turn_eq_next hx
    exact h.basic hnext hu

theorem Leads.inRange {sink : σ} {input : ι} (h : p.Leads w (initial w sink input) is t) :
    p.InRange w.config.tape is t := by
  induction h with
  | here => exact inRange_initial p w sink input
  | step _ hi ht ih => exact ih.step hi ht

/-- A run that ends leaves the machine as it was before the turn that ended it, and reports what that machine shows. -/
theorem machine_of_turn_ended {r : Report σ ι} (h : p.turn w s = .ended r) :
    r.final.machine = s.machine ∧ ∀ stats, r.result = .ok stats → stats = s.machine.stats := by
  obtain ⟨-, rfl⟩ | ⟨e, -, rfl⟩ | ⟨i, a, e, final, -, -, he, rfl⟩ := turn_ended_cases h
  · exact ⟨rfl, fun stats hr => (Except.ok.inj hr).symm⟩
  · exact ⟨rfl, nofun⟩
  · have htape : final.tape = s.machine.tape := Basic.tape_of_failed he
    refine ⟨?_, nofun⟩
    rw [Scene.state, htape]

theorem InRange.cellsTouched_le (h : p.InRange policy is s) :
    s.machine.stats.cellsTouched ≤ 1 + movesRight is ∧
      ∀ most, IdealTape.bound policy = some most → s.machine.stats.cellsTouched ≤ most := by
  have hcells : s.machine.stats.cellsTouched = s.machine.tape.highWater + 1 := rfl
  have hhigh := h.highWater_le
  have hlt := h.tape.highWater_lt
  refine ⟨by omega, fun most hb => ?_⟩
  have hsize := h.tape.size_le most hb
  omega

/-- **A run cannot panic.**  The bare machine goes through the same states, without a panic, however far the run is
followed.  In each of them the next instruction is in range or the run is at its end, a bracket has its partner, the
pointer stands on a cell, and the steps are the instructions executed so far.  A run that ends has touched one cell more
than `>` was executed at most, and no more than the policy permits. -/
theorem run_never_panics (p : Program) (w : Setting σ ι) (sink : σ) (input : ι) :
    (∀ n, p.bareAfter w n ⟨Bare.start w.config.tape, sink, input⟩ =
      .ok ((p.stateAfter w n (initial w sink input)).map State.bare)) ∧
    (∀ n t, p.stateAfter w n (initial w sink input) = some t ↔
      ∃ is, is.length = n ∧ p.Leads w (initial w sink input) is t) ∧
    (∀ is t, p.Leads w (initial w sink input) is t →
      t.machine.ip ≤ p.size ∧
      (∀ i, p.instructions[t.machine.ip]? = some i → i.op.isBracket = true →
        ∃ partner, p.jumps.target t.machine.ip = some partner ∧ partner + 1 ≤ p.size) ∧
      t.machine.tape.pointer < t.machine.tape.size ∧ t.machine.steps = is.length) ∧
    ∀ patience r, p.run w patience sink input = some r → ∃ is t, p.Leads w (initial w sink input) is t ∧
      r.final.machine = t.machine ∧ (∀ stats, r.result = .ok stats → stats = r.final.machine.stats) ∧
      r.final.machine.stats.steps = is.length ∧
      r.final.machine.stats.cellsTouched = r.final.machine.tape.highWater + 1 ∧
      1 ≤ r.final.machine.stats.cellsTouched ∧ r.final.machine.stats.cellsTouched ≤ 1 + movesRight is ∧
      ∀ most, IdealTape.bound w.config.tape = some most → r.final.machine.stats.cellsTouched ≤ most := by
  refine ⟨fun n => bareAfter_bare p w n (initial w sink input), fun n t => stateAfter_iff_leads, ?_, ?_⟩
  · intro is t h
    have hrange := h.inRange
    exact ⟨hrange.ip_le, fun i hi hb => exists_partner hi hb, t.machine.tape.pointer_lt, hrange.steps_eq⟩
  · intro patience r hr
    obtain ⟨n, -, t, ht, hend⟩ := runFor_eq_some_iff.1 hr
    obtain ⟨is, -, hleads⟩ := stateAfter_iff_leads.1 ht
    obtain ⟨hmachine, hstats⟩ := machine_of_turn_ended hend
    obtain ⟨hright, hlimit⟩ := hleads.inRange.cellsTouched_le
    rw [hmachine]
    exact ⟨is, t, hleads, rfl, hstats, hleads.inRange.steps_eq, rfl, Nat.le_add_left 1 _, hright, hlimit⟩

/-- A loop that is entered, repeated and left, on a tape that it fills. -/
theorem run_never_panics_loop :
    let w : Setting (Array UInt8) Unit := ⟨{ tape := .fixed 2, maxSteps := some 20 }, .collecting, .absent, .idle⟩
    ∃ p is t, Program.parse "++[>+<-]" = .ok p ∧ p.Leads w (initial w #[] ()) is t ∧ is.length = 7 ∧
      t.machine.tape.pointer < t.machine.tape.size ∧
      ∃ r, p.run w 0 #[] () = some r ∧ r.final.machine.stats.cellsTouched ≤ 2 := by
  intro w
  let p : Program :=
    ⟨(instructionsOf "++[>+<-]").toArray, ⟨#[none, none, some 7, none, none, none, none, some 2]⟩, rfl⟩
  have hstate : (p.stateAfter w 7 (initial w #[] ())).isSome = true := by decide +kernel
  have hrun : (p.run w 0 #[] ()).isSome = true := by decide +kernel
  obtain ⟨t, ht⟩ := Option.isSome_iff_exists.1 hstate
  obtain ⟨r, hr⟩ := Option.isSome_iff_exists.1 hrun
  obtain ⟨-, hstates, hrange, hend⟩ := run_never_panics p w #[] ()
  obtain ⟨is, hlength, hleads⟩ := (hstates 7 t).1 ht
  obtain ⟨-, -, -, -, -, -, -, -, -, hlimit⟩ := hend 0 r hr
  exact ⟨p, is, t, rfl, hleads, hlength, (hrange is t hleads).2.2.1, r, hr, hlimit 2 rfl⟩

end Program

end Brainfuck
