import Mathlib.Data.List.Basic
import Brainfuck.Proofs.InStep
import Brainfuck.Proofs.Lockstep
import Brainfuck.Proofs.Safety
import Brainfuck.Stream.Device
/-!
# What a refusal cuts off

A sink may be any state machine, and all that a program learns of it is that a byte was refused, after which nothing is
executed.  So a run with a sink of its own keeps in step with the run whose sink takes everything, up to the first byte
that is refused (`Program.parallel_collecting`), and the refusal cuts the run off there (`Program.sink_only_truncates`).
A sink over a device can fail twice, in its write and in its flush: the byte is on the device exactly in the second
case.
-/
namespace Brainfuck

variable {σ ι : Type}

def Setting.collecting (w : Setting σ ι) : Setting (Array UInt8) ι := ⟨w.config, .collecting, w.source, .idle⟩

namespace Sink

variable {sink : Sink σ} {bytes : List UInt8}

/-- The sink after these bytes; none if it refuses one of them. -/
def takeAll (sink : Sink σ) : σ → List UInt8 → Option σ
  | out, [] => some out
  | out, byte :: rest =>
    match sink.offer out byte with
    | (out, none) => takeAll sink out rest
    | (_, some _) => none

/-- Of these bytes the sink takes the first `k`, which leaves it as `mid`, and refuses the next, which leaves it as
`later`. -/
def Rejects (sink : Sink σ) (out : σ) (bytes : List UInt8) (k : Nat) (cause : String) (mid later : σ) : Prop :=
  sink.takeAll out (bytes.take k) = some mid ∧
    ∃ byte, bytes[k]? = some byte ∧ sink.offer mid byte = (later, some cause)

theorem takeAll_append (sink : Sink σ) : ∀ (out : σ) (first second : List UInt8),
    sink.takeAll out (first ++ second) = (sink.takeAll out first).bind (fun out => sink.takeAll out second)
  | out, [], second => rfl
  | out, byte :: rest, second => by
    rw [List.cons_append, takeAll, takeAll]
    rcases sink.offer out byte with ⟨next, _ | cause⟩
    · exact takeAll_append sink next rest second
    · rfl

/-- A sink that shows each byte it takes shows all of them. -/
theorem view_of_takeAll (view : σ → List UInt8)
    (h : ∀ {out byte later}, sink.offer out byte = (later, none) → view later = view out ++ [byte]) :
    ∀ {bytes : List UInt8} {out later : σ}, sink.takeAll out bytes = some later → view later = view out ++ bytes
  | [], out, later, htake => by
    cases htake
    exact (List.append_nil _).symm
  | byte :: rest, out, later, htake => by
    rw [takeAll] at htake
    rcases ho : sink.offer out byte with ⟨next, _ | cause⟩
    · rw [ho] at htake
      rw [view_of_takeAll view h htake, h ho, List.append_assoc]
      rfl
    · rw [ho] at htake
      cases htake

theorem toList_of_takeAll_collecting {out later : Array UInt8} (h : collecting.takeAll out bytes = some later) :
    later.toList = out.toList ++ bytes := by
  refine view_of_takeAll Array.toList (fun {out byte later} ho => ?_) h
  cases ho
  exact Array.toList_push

end Sink

namespace Program

variable {p : Program} {w : Setting σ ι} {s t : State σ ι} {r : Report σ ι} {byte : UInt8} {n k : Nat}

/-! ## The bytes a run offers -/

/-- The byte that the next turn offers to the sink, if it offers one. -/
def emits? (p : Program) (w : Setting σ ι) (s : State σ ι) : Option UInt8 :=
  (p.attempt? w s).bind (fun a => if a.1 = .output then some a.2 else none)

theorem offered_succ (p : Program) (w : Setting σ ι) (n : Nat) (s : State σ ι) :
    p.offered w (n + 1) s = p.offered w n s ++ ((p.stateAfter w n s).bind (p.emits? w)).toList := by
  rw [offered, attempted_succ, List.filterMap_append, ← offered]
  cases p.stateAfter w n s with
  | none => rfl
  | some t =>
    rw [Option.bind_some, Option.bind_some, emits?]
    cases p.attempt? w t with
    | none => rfl
    | some a =>
      obtain ⟨op, cell⟩ := a
      by_cases hop : op = .output <;> simp [hop]

theorem turn_of_output {i : Instruction} (hi : p.instructions[s.machine.ip]? = some i) (hop : i.op = .output)
    (hc : w.stop? s = none) : p.turn w s =
      match w.sink.offer s.sink s.machine.tape.get with
      | (out, none) => .next ⟨s.machine.proceed, out, s.input⟩
      | (out, some cause) => .ended ⟨.error (.sink i.toSite cause), ⟨s.machine, out, s.input⟩⟩ := by
  rw [turn_of_clear hi hc, execute, hop]
  rfl

theorem exists_of_emits? (h : p.emits? w s = some byte) : byte = s.machine.tape.get ∧ w.stop? s = none ∧
    ∃ i, p.instructions[s.machine.ip]? = some i ∧ i.op = .output := by
  unfold emits? attempt? at h
  cases hc : w.stop? s with
  | some e => rw [hc] at h; cases h
  | none =>
    cases hi : p.instructions[s.machine.ip]? with
    | none => rw [hc, hi] at h; cases h
    | some i =>
      simp only [hc, hi, Option.map_some, Option.bind_some] at h
      split at h
      · rename_i hop
        exact ⟨(Option.some.inj h).symm, rfl, i, rfl, hop⟩
      · cases h

theorem emits?_of_output {i : Instruction} (hi : p.instructions[s.machine.ip]? = some i) (hop : i.op = .output)
    (hc : w.stop? s = none) : p.emits? w s = some s.machine.tape.get := by
  simp [emits?, attempt?, hc, hi, hop]

/-- **One turn** gives the sink what it offers. -/
theorem takeAll_of_turn_next (h : p.turn w s = .next t) :
    w.sink.takeAll s.sink (p.emits? w s).toList = some t.sink := by
  obtain ⟨i, hi, hc, hx⟩ := exists_of_turn_eq_next h
  by_cases hop : i.op = .output
  · rw [turn_of_output hi hop hc] at h
    rw [emits?_of_output hi hop hc, Option.toList_some, Sink.takeAll]
    rcases ho : w.sink.offer s.sink s.machine.tape.get with ⟨out, _ | cause⟩
    · rw [ho] at h
      cases h
      rfl
    · rw [ho] at h
      cases h
  · have hnone : p.emits? w s = none := by simp [emits?, attempt?, hc, hi, hop]
    rw [hnone, sink_of_execute_next hop hx]
    rfl

/-- A run that goes on has given its sink all it offered, and the sink has taken it. -/
theorem takeAll_offered : ∀ {n : Nat} {t : State σ ι}, p.stateAfter w n s = some t →
    w.sink.takeAll s.sink (p.offered w n s) = some t.sink
  | 0, t, h => by
    cases h
    rfl
  | n + 1, t, h => by
    obtain ⟨u, hu, ht⟩ := stateAfter_succ_iff.1 h
    rw [offered_succ, hu, Sink.takeAll_append, takeAll_offered hu]
    exact takeAll_of_turn_next ht

/-- Each byte that is offered is offered by some turn, after the bytes before it. -/
theorem exists_of_getElem?_offered : ∀ {n : Nat}, (p.offered w n s)[k]? = some byte →
    ∃ j < n, ∃ t, p.stateAfter w j s = some t ∧ p.emits? w t = some byte ∧
      p.offered w j s = (p.offered w n s).take k
  | 0, h => by cases h
  | n + 1, h => by
    by_cases hk : k < (p.offered w n s).length
    · rw [offered_succ, List.getElem?_append_left hk] at h
      obtain ⟨j, hj, t, ht, hbyte, htake⟩ := exists_of_getElem?_offered h
      refine ⟨j, by omega, t, ht, hbyte, ?_⟩
      rw [htake, offered_succ, List.take_append_of_le_length (Nat.le_of_lt hk)]
    · rw [offered_succ, List.getElem?_append_right (Nat.le_of_not_lt hk)] at h
      cases hb : (p.stateAfter w n s).bind (p.emits? w) with
      | none => rw [hb] at h; cases h
      | some last =>
        obtain ⟨t, ht, hlast⟩ := Option.bind_eq_some_iff.1 hb
        rw [hb, Option.toList_some, List.getElem?_singleton] at h
        split at h
        · have hlength : k = (p.offered w n s).length := by omega
          cases h
          refine ⟨n, Nat.lt_succ_self n, t, ht, hlast, ?_⟩
          rw [offered_succ, hlength, List.take_left]
        · cases h

/-! ## Against a sink that takes everything -/

def Refused (w : Setting σ ι) (a : Basic) (s : Scene σ ι) : Prop :=
  a = .output ∧ ∃ later cause, w.sink.offer s.sink s.tape.get = (later, some cause)

def SameButSink : Scene σ ι → Scene (Array UInt8) ι → Prop := Tied (fun _ _ => True) (fun input input' => input' = input)

theorem parallel_collecting (hd : w.config.deadline = none) (hc : w.config.cancellable = false) :
    Parallel w w.collecting SameButSink (Refused w) := by
  refine parallel_tied (fun ip steps hR => ?_) (fun {s _} _ hrefused => ?_) (fun hin _ => ?_)
  · have hflag : ∀ flag flag', (w.config.cancellable && flag) = (w.config.cancellable && flag') := by simp [hc]
    exact Config.stop?_congr hd (hflag _ _) steps _ _
  · refine ⟨?_, trivial⟩
    rcases ho : w.sink.offer s.sink s.tape.get with ⟨later, _ | cause⟩
    · rfl
    · exact absurd ⟨rfl, later, cause, ho⟩ hrefused
  · subst hin
    exact ⟨fun _ => rfl, rfl⟩

theorem turn_ne_next_of_refused (u v : State σ ι) (h : p.Parts w (Refused w) u) : p.turn w u ≠ .next v := by
  obtain ⟨i, a, hi, hc, ha, rfl, later, cause, ho⟩ := h
  have hoffer : w.sink.offer u.sink u.machine.tape.get = (later, some cause) := ho
  rw [turn_of_output hi ha hc, hoffer]
  exact nofun

theorem machine_of_inStep {s' : State (Array UInt8) ι} (h : s.InStep SameButSink s') :
    s'.machine = s.machine ∧ s'.input = s.input := by
  obtain ⟨ip, steps, htape, -, hinput⟩ := h
  rename_i s s'
  refine ⟨?_, hinput⟩
  show (⟨s'.tape, ip, steps⟩ : Machine) = ⟨s.tape, ip, steps⟩
  rw [htape]

theorem initial_collecting (w : Setting σ ι) (out : σ) (input : ι) :
    (initial w out input).InStep SameButSink (initial w.collecting #[] input) := by
  have hstart : SameButSink (.initial w out input) (.initial w.collecting #[] input) := ⟨rfl, trivial, rfl⟩
  exact .mk 0 0 hstart

theorem toList_sink_collecting {t : State (Array UInt8) ι} {input : ι}
    (h : p.stateAfter w.collecting n (initial w.collecting #[] input) = some t) :
    t.sink.toList = p.offered w.collecting n (initial w.collecting #[] input) :=
  Sink.toList_of_takeAll_collecting (takeAll_offered h)

theorem offered_of_silent_end (h : p.stateAfter w n s = some t) (hr : p.turn w t = .ended r)
    (hsilent : p.emits? w t = none) : ∀ m, p.offered w (n + m) s = p.offered w n s
  | 0 => rfl
  | m + 1 => by
    have hmore : (p.stateAfter w (n + m) s).bind (p.emits? w) = none := by
      rw [stateAfter_add, h, Option.bind_some]
      cases m with
      | zero => exact hsilent
      | succ m => rw [stateAfter, hr]; rfl
    rw [← Nat.add_assoc, offered_succ, offered_of_silent_end h hr hsilent m, hmore]
    exact List.append_nil _

/-- What a sink that takes everything holds in the end is all that was offered. -/
theorem offered_of_run_collecting {r : Report (Array UInt8) ι} {input : ι} {patience : Nat}
    (h : p.run w.collecting patience #[] input = some r) (hn : r.final.machine.steps ≤ n) :
    p.offered w.collecting n (initial w.collecting #[] input) = r.final.sink.toList := by
  obtain ⟨last, -, t, ht, hend⟩ := runFor_eq_some_iff.1 h
  have hsilent : p.emits? w.collecting t = none := by
    cases he : p.emits? w.collecting t with
    | none => rfl
    | some byte =>
      obtain ⟨-, hc, i, hi, hop⟩ := exists_of_emits? he
      rw [turn_of_output hi hop hc] at hend
      cases hend
  have hsink : r.final.sink = t.sink := by
    obtain ⟨-, rfl⟩ | ⟨e, -, rfl⟩ | ⟨i, a, e, final, -, -, hp, rfl⟩ := turn_ended_cases hend
    · rfl
    · rfl
    · obtain ⟨-, -, -, -, rfl⟩ | ⟨-, -, -, -, rfl⟩ | ⟨out, cause, -, ho, -, -⟩ := Basic.failed_cases hp
      · rfl
      · rfl
      · cases ho
  rw [(machine_of_turn_ended hend).1, steps_eq_of_stateAfter_initial ht] at hn
  obtain ⟨m, rfl⟩ := Nat.exists_eq_add_of_le hn
  rw [hsink, toList_sink_collecting ht]
  exact offered_of_silent_end ht hend hsilent m

/-! ## Where a refusal cuts a run off -/

/-- The sink refuses byte number `k` for this cause, which leaves it as `later`.  By then the run that is never refused
is in state `t` after `j` instructions and has emitted as many bytes, and it goes on by emitting the next at instruction
`i`.  There this run ends, with the same machine and the same input; what it attempted, the refused byte included, is
what the other attempts up to there. -/
structure CutShort (p : Program) (w : Setting σ ι) (out : σ) (input : ι) (k : Nat) (cause : String) (later : σ)
    (i : Instruction) (j : Nat) (t : State (Array UInt8) ι) : Prop where
  reached : p.stateAfter w.collecting j (initial w.collecting #[] input) = some t
  emitted : t.sink.size = k
  instruction : p.instructions[t.machine.ip]? = some i
  output : i.op = .output
  goes_on : p.turn w.collecting t = .next ⟨t.machine.proceed, t.sink.push t.machine.tape.get, t.input⟩
  ends : ∃ patience, p.run w patience out input = some ⟨.error (.sink i.toSite cause), ⟨t.machine, later, t.input⟩⟩
  attempted : ∀ m, p.attempted w (j + 1 + m) (initial w out input) =
    p.attempted w.collecting (j + 1) (initial w.collecting #[] input)
  offered : ∀ m, p.offered w (j + 1 + m) (initial w out input) = t.sink.toList ++ [t.machine.tape.get]

theorem exists_cutShort (hd : w.config.deadline = none) (hc : w.config.cancellable = false) {out mid later : σ}
    {input : ι} {cause : String} (h : w.sink.Rejects out (p.offered w n (initial w out input)) k cause mid later) :
    ∃ i j t, p.CutShort w out input k cause later i j t := by
  have hpar := parallel_collecting hd hc
  have hstart := initial_collecting w out input
  obtain ⟨htake, byte, hbyte, hoffer⟩ := h
  obtain ⟨j, -, u, hu, hemits, hbefore⟩ := exists_of_getElem?_offered hbyte
  rw [← hbefore] at htake
  obtain rfl : u.sink = mid := Option.some.inj ((takeAll_offered hu).symm.trans htake)
  -- the runs keep in step up to here, so the other run offers the same byte
  have htogether := together_of_stateAfter turn_ne_next_of_refused hu
  obtain ⟨t, ht, hstep⟩ := exists_stateAfter_inStep hpar hstart htogether hu
  obtain ⟨hmachine, hinput⟩ := machine_of_inStep hstep
  have hattempt := attempt?_inStep (p := p) hpar hstep
  have hemits' : p.emits? w.collecting t = some byte := by rwa [emits?, hattempt]
  have hlist : t.sink.toList = p.offered w j (initial w out input) :=
    (toList_sink_collecting ht).trans (offered_inStep hpar hstart htogether)
  obtain ⟨hget, hclear, i, hi, hop⟩ := exists_of_emits? hemits
  obtain ⟨hget', hclear', -⟩ := exists_of_emits? hemits'
  have hi' : p.instructions[t.machine.ip]? = some i := by rwa [hmachine]
  have hturn : p.turn w u = .ended ⟨.error (.sink i.toSite cause), ⟨t.machine, later, t.input⟩⟩ := by
    rw [turn_of_output hi hop hclear, ← hget, hoffer, hmachine, hinput]
  have hgone : p.stateAfter w (j + 1) (initial w out input) = none := by
    rw [stateAfter_add, hu, Option.bind_some, stateAfter, hturn]
  have hattempted : ∀ m, p.attempted w (j + 1 + m) (initial w out input) =
      p.attempted w.collecting (j + 1) (initial w.collecting #[] input) := by
    intro m
    rw [attempted_of_stateAfter_eq_none hgone, attempted_succ, attempted_succ, hu, ht, Option.bind_some,
      Option.bind_some, hattempt, attempted_inStep hpar j hstart htogether]
  refine ⟨i, j, t, ht, ?_, hi', hop, ?_, ?_, hattempted, ?_⟩
  · have hk := (List.getElem?_eq_some_iff.1 hbyte).1
    rw [← Array.length_toList, hlist, hbefore, List.length_take, Nat.min_eq_left (Nat.le_of_lt hk)]
  · exact turn_of_output hi' hop hclear'
  · exact exists_run_iff.2 (ends_iff.2 ⟨j, u, hu, hturn⟩)
  · intro m
    rw [offered, hattempted, ← offered, offered_succ, ← toList_sink_collecting ht, ht, Option.bind_some, hemits', hget']
    rfl

theorem together_of_no_rejection {out : σ} {input : ι} (h : ∀ n k cause mid later,
    ¬ w.sink.Rejects out (p.offered w n (initial w out input)) k cause mid later) (n : Nat) :
    p.Together w (Refused w) n (initial w out input) := by
  rintro j - t ht ⟨i, a, hi, hclear, hop, rfl, later, cause, hoffer⟩
  -- the byte that is refused here comes after all that was offered and taken before
  refine h (j + 1) (p.offered w j (initial w out input)).length cause t.sink later ⟨?_, t.machine.tape.get, ?_, hoffer⟩
  · rw [offered_succ, List.take_left]
    exact takeAll_offered ht
  · rw [offered_succ, ht, Option.bind_some, emits?_of_output hi hop hclear]
    exact List.getElem?_concat_length

end Program

/-! ## A device that fails -/

namespace OutputDevice

variable {d mid later : OutputDevice} {byte : UInt8} {bytes : List UInt8} {k : Nat} {cause : String}

/-- **What becomes of a byte**: it is written unless the write fails, and then the flush decides. -/
theorem emit_cases (d : OutputDevice) (byte : UInt8) :
    (∃ cause, (writeOutcome d.writes).2 = some cause ∧ (d.emit byte).2 = some cause ∧
      (d.emit byte).1.written = d.written) ∨
    ((writeOutcome d.writes).2 = none ∧ (d.emit byte).2 = (flushOutcome d.flushes).2 ∧
      (d.emit byte).1.written = d.written.push byte) := by
  unfold emit
  rcases writeOutcome d.writes with ⟨writes, _ | cause⟩
  · rcases flushOutcome d.flushes with ⟨flushes, _ | cause⟩
    · exact .inr ⟨rfl, rfl, rfl⟩
    · exact .inr ⟨rfl, rfl, rfl⟩
  · exact .inl ⟨cause, rfl, rfl, rfl⟩

theorem written_of_taken (h : d.emit byte = (later, none)) : later.written.toList = d.written.toList ++ [byte] := by
  obtain ⟨cause, -, hrefused, -⟩ | ⟨-, -, hwritten⟩ := emit_cases d byte
  · rw [h] at hrefused
    cases hrefused
  · rw [h] at hwritten
    exact (congrArg Array.toList hwritten).trans Array.toList_push

theorem written_of_rejects (h : Sink.device.Rejects d bytes k cause mid later) :
    ((writeOutcome mid.writes).2 = some cause ∧ later.written.toList = d.written.toList ++ bytes.take k) ∨
    ((writeOutcome mid.writes).2 = none ∧ (flushOutcome mid.flushes).2 = some cause ∧
      later.written.toList = d.written.toList ++ bytes.take (k + 1)) := by
  obtain ⟨htake, byte, hbyte, hoffer⟩ := h
  have htaken := Sink.view_of_takeAll (fun d : OutputDevice => d.written.toList) written_of_taken htake
  have hemit : mid.emit byte = (later, some cause) := hoffer
  obtain ⟨cause', hw, hrefused, hwritten⟩ | ⟨hw, hf, hwritten⟩ := emit_cases mid byte
  · rw [hemit] at hrefused hwritten
    cases hrefused
    exact .inl ⟨hw, (congrArg Array.toList hwritten).trans htaken⟩
  · rw [hemit] at hf hwritten
    refine .inr ⟨hw, hf.symm, (congrArg Array.toList hwritten).trans ?_⟩
    rw [Array.toList_push, htaken, List.append_assoc, List.take_add_one, hbyte]
    rfl

end OutputDevice

namespace Program

/-- **A sink that fails only truncates a run.**  The run whose sink takes everything shows the output: what it offers is
what its sink holds.  What a run with any other sink offers is a prefix of that.  If its sink refuses a byte, the run is
cut off there; if not, the two runs offer the same and end alike with the same input left, or neither ends.  A device
that refuses byte number `k` has taken the first `k` bytes of the output if the write failed, and one more if the write
went well and the flush failed. -/
theorem sink_only_truncates (p : Program) (config : Config) (hd : config.deadline = none)
    (hc : config.cancellable = false) (source : Source ι) (input : ι) :
    let full : Setting (Array UInt8) ι := ⟨config, .collecting, source, .idle⟩
    let output := fun n => p.offered full n (initial full #[] input)
    ((∀ n t, p.stateAfter full n (initial full #[] input) = some t → t.sink.toList = output n) ∧
      ∀ patience r, p.run full patience #[] input = some r →
        ∀ n, r.final.machine.steps ≤ n → output n = r.final.sink.toList) ∧
    (∀ (σ : Type) (sink : Sink σ) (watch : Watch σ ι) (out : σ),
      let w : Setting σ ι := ⟨config, sink, source, watch⟩
      let offers := fun n => p.offered w n (initial w out input)
      (∀ n, offers n <+: output n) ∧
      (∀ n k cause mid later, sink.Rejects out (offers n) k cause mid later →
        ∃ i j t, p.CutShort w out input k cause later i j t) ∧
      ((∀ n k cause mid later, ¬ sink.Rejects out (offers n) k cause mid later) →
        (∀ n, offers n = output n) ∧
        ∀ patience, Option.Rel (fun r r' => r.SameEnd r' ∧ r'.final.input = r.final.input)
          (p.run w patience out input) (p.run full patience #[] input))) ∧
    ∀ (watch : Watch OutputDevice ι) (d : OutputDevice),
      let w : Setting OutputDevice ι := ⟨config, .device, source, watch⟩
      ∀ n k cause mid later, Sink.device.Rejects d (p.offered w n (initial w d input)) k cause mid later →
        ((OutputDevice.writeOutcome mid.writes).2 = some cause ∧
          later.written.toList = d.written.toList ++ (output n).take k) ∨
        ((OutputDevice.writeOutcome mid.writes).2 = none ∧ (OutputDevice.flushOutcome mid.flushes).2 = some cause ∧
          later.written.toList = d.written.toList ++ (output n).take (k + 1)) := by
  intro full output
  refine ⟨⟨fun n t ht => toList_sink_collecting (w := full) ht, fun patience r hr n hn =>
    offered_of_run_collecting (w := full) hr hn⟩, ?_, ?_⟩
  · intro σ sink watch out w offers
    have hpar : Parallel w full SameButSink (Refused w) := parallel_collecting hd hc
    have hstart := initial_collecting w out input
    refine ⟨offered_isPrefix hpar turn_ne_next_of_refused hstart, ?_, fun hnone => ?_⟩
    · intro n k cause mid later hrejects
      exact exists_cutShort hd hc hrejects
    · have htogether := together_of_no_rejection (w := w) hnone
      refine ⟨fun n => (offered_inStep hpar hstart (htogether n)).symm, fun patience => ?_⟩
      exact rel_mono (fun _ _ hr => ⟨hr.1, hr.2.input⟩) (run_inStep hpar rfl hstart.scene htogether patience)
  · intro watch d w n k cause mid later hrejects
    have hpar : Parallel w full SameButSink (Refused w) := parallel_collecting hd hc
    have hprefix : p.offered w n (initial w d input) <+: output n :=
      offered_isPrefix hpar turn_ne_next_of_refused (initial_collecting w d input) n
    have hk : k < (p.offered w n (initial w d input)).length := by
      obtain ⟨-, byte, hbyte, -⟩ := hrejects
      exact (List.getElem?_eq_some_iff.1 hbyte).1
    -- the bytes up to this one are those of the output
    have htake : ∀ m ≤ k + 1, (p.offered w n (initial w d input)).take m = (output n).take m := by
      intro m hm
      obtain ⟨rest, hrest⟩ := hprefix
      rw [← hrest, List.take_append_of_le_length (by omega)]
    rw [← htake k (Nat.le_succ k), ← htake (k + 1) (Nat.le_refl _)]
    exact OutputDevice.written_of_rejects hrejects

/-- The second of three bytes is written but not flushed: the third is not even read. -/
theorem sink_only_truncates_broken_pipe :
    let config : Config := { tape := .fixed 1, maxSteps := none }
    let w : Setting OutputDevice (List UInt8) := ⟨config, .device, .bytes, .idle⟩
    let full : Setting (Array UInt8) (List UInt8) := ⟨config, .collecting, .bytes, .idle⟩
    let input : List UInt8 := [104, 105, 7]
    let d : OutputDevice := ⟨[.failed .interrupted], [.flushed, .failed .brokenPipe], #[], 0⟩
    ∃ p mid later i j t, Program.parse ",[.,]" = .ok p ∧ p.offered full 20 (initial full #[] input) = input ∧
      Sink.device.Rejects d (p.offered w 20 (initial w d input)) 1 "broken pipe" mid later ∧
      p.CutShort w d input 1 "broken pipe" later i j t ∧ later.written.toList = [104, 105] := by
  intro config w full input d
  let p : Program := ⟨(instructionsOf ",[.,]").toArray, ⟨#[none, some 4, none, none, some 1]⟩, rfl⟩
  let mid : OutputDevice := ⟨[], [.failed .brokenPipe], #[104], 1⟩
  let later : OutputDevice := ⟨[], [], #[104, 105], 1⟩
  have houtput : p.offered full 20 (initial full #[] input) = input := by decide +kernel
  have hoffered : p.offered w 20 (initial w d input) = [104, 105] := by decide +kernel
  have hrejects : Sink.device.Rejects d (p.offered w 20 (initial w d input)) 1 "broken pipe" mid later := by
    rw [hoffered]
    exact ⟨by decide, 105, rfl, by decide⟩
  obtain ⟨-, hsinks, hdevices⟩ := sink_only_truncates p config rfl rfl .bytes input
  obtain ⟨i, j, t, hcut⟩ := (hsinks OutputDevice .device .idle d).2.1 20 1 _ mid later hrejects
  refine ⟨p, mid, later, i, j, t, rfl, houtput, hrejects, hcut, ?_⟩
  obtain ⟨hfailed, -⟩ | ⟨-, -, hwritten⟩ := hdevices .idle d 20 1 _ mid later hrejects
  · cases hfailed
  · exact hwritten.trans (congrArg (List.take 2) houtput)

end Program

end Brainfuck
