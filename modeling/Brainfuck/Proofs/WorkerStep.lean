import Brainfuck.Delivery.Worker
import Brainfuck.Proofs.Truncation
/-!
# What a step of the worker does

`Worker.step_goes` lists all that a step can do while the watcher listens, and the rest of this module is read off that
list.  A step sends nothing, or all bytes that wait as one chunk, or the result once no byte waits (`Worker.Goes.sent`);
no byte is lost or made up on the way.  And a step does what the interpreter does, which keeps every byte it emits: a
worker that runs is at the same place as the interpreter after as many instructions, and a worker whose run is over has
the interpreter's result (`Worker.Goes.follows`).
-/
namespace Brainfuck

theorem Channel.trySend_of_connected {c : Channel} (h : c.connected = true) (e : Event) :
    c.trySend e = if c.queue.size < capacity then .delivered { c with queue := c.queue.push e } else .full c := by
  simp [trySend, h]

theorem Config.stop?_false_of_eq_none {c : Config} {steps elapsed : Nat} {cancelled : Bool}
    (h : c.stop? steps cancelled elapsed = none) : c.stop? steps false elapsed = none := by
  unfold Config.stop? at h ⊢
  split at h
  · cases h
  · rename_i hs
    rw [if_neg hs, Bool.and_false]
    split at h
    · cases h
    · exact h

theorem Channel.chunkBytes_pos : 0 < Channel.chunkBytes := by decide

/-- The interpreter on the same program under the same bounds.  It reads the input bytes, keeps every byte it emits, and
finds the flag as told. -/
def Job.interpreter (job : Job) (flag : Nat → Bool) : Setting (Array UInt8) (List UInt8) :=
  ⟨job.config, .collecting, .bytes, ⟨fun k _ _ => flag k, job.clock⟩⟩

namespace Worker

/-! ## What it can do -/

/-- The worker after an instruction that led the interpreter to this turn. -/
def ofTurn (pending : Array UInt8) : Turn (Array UInt8) (List UInt8) → Worker
  | .next s => .running s.machine s.input pending
  | .ended r => .closing r.result pending

/-- All that a step can lead to while the watcher listens. -/
inductive Goes (job : Job) (c : Channel) : Worker → Worker × Channel → Prop where
  | runsOut {m : Machine} {rest : List UInt8} {pending : Array UInt8} (hi : job.program.instructions[m.ip]? = none) :
      Goes job c (.running m rest pending) (.closing (.ok m.stats) pending, c)
  | stopped {m : Machine} {rest : List UInt8} {pending : Array UInt8} {next : Instruction} {e : RunError}
      (hi : job.program.instructions[m.ip]? = some next)
      (he : job.config.stop? m.steps c.cancelled (job.clock m.steps) = some e) :
      Goes job c (.running m rest pending) (.closing (.error e) pending, c)
  | clears {m : Machine} {rest : List UInt8} {pending : Array UInt8} {next : Instruction}
      (hi : job.program.instructions[m.ip]? = some next)
      (he : job.config.stop? m.steps c.cancelled (job.clock m.steps) = none) :
      Goes job c (.running m rest pending) (.cleared next m rest pending, c)
  | acts {next : Instruction} {m : Machine} {rest : List UInt8} {pending : Array UInt8} {w : Worker}
      (ho : next.op ≠ .output)
      (hx : ∀ flag out, ofTurn pending (job.program.execute (job.interpreter flag) next ⟨m, out, rest⟩) = w) :
      Goes job c (.cleared next m rest pending) (w, c)
  | fills {next : Instruction} {m : Machine} {rest : List UInt8} {pending : Array UInt8} (ho : next.op = .output)
      (hfull : Channel.chunkBytes ≤ pending.size + 1) :
      Goes job c (.cleared next m rest pending) (.sending next.toSite m rest (pending.push m.tape.get), c)
  | sends {next : Instruction} {m : Machine} {rest : List UInt8} {pending : Array UInt8} (ho : next.op = .output)
      (hlt : pending.size + 1 < Channel.chunkBytes) (hroom : c.queue.size < Channel.capacity) :
      Goes job c (.cleared next m rest pending)
        (.running m.proceed rest #[], { c with queue := c.queue.push (.output (pending.push m.tape.get)) })
  | keeps {next : Instruction} {m : Machine} {rest : List UInt8} {pending : Array UInt8} (ho : next.op = .output)
      (hlt : pending.size + 1 < Channel.chunkBytes) (hroom : ¬ c.queue.size < Channel.capacity) :
      Goes job c (.cleared next m rest pending) (.running m.proceed rest (pending.push m.tape.get), c)
  | sendsChunk {site : Site} {m : Machine} {rest : List UInt8} {chunk : Array UInt8}
      (hroom : c.queue.size < Channel.capacity) :
      Goes job c (.sending site m rest chunk)
        (.running m.proceed rest #[], { c with queue := c.queue.push (.output chunk) })
  | flushes {result : Except RunError Stats} {pending : Array UInt8} (hp : pending ≠ #[])
      (hroom : c.queue.size < Channel.capacity) :
      Goes job c (.closing result pending)
        (.closing result #[], { c with queue := c.queue.push (.output pending) })
  | finishes {result : Except RunError Stats} (hroom : c.queue.size < Channel.capacity) :
      Goes job c (.closing result #[]) (.ended, { c with queue := c.queue.push (.finished result) })
  | waits {w : Worker} (hw : w.isIdle c = true) : Goes job c w (w, c)

variable {job : Job} {c : Channel} {w : Worker} {after : Worker × Channel}

theorem execute_output {next : Instruction} (h : next.op = .output) {machine : Machine} {input : List UInt8}
    {pending : Array UInt8} : execute job next machine input pending c =
      emit next.toSite machine.tape.get machine input pending c := by
  simp only [execute, Machine.act, h]

/-- An instruction other than `.` does what it does in the interpreter, whatever was emitted before. -/
theorem execute_eq_ofTurn {next : Instruction} (h : next.op ≠ .output) (flag : Nat → Bool) (out : Array UInt8)
    (machine : Machine) (input : List UInt8) (pending : Array UInt8) :
    execute job next machine input pending c =
      (ofTurn pending (job.program.execute (job.interpreter flag) next ⟨machine, out, input⟩), c) := by
  obtain ⟨tape, ip, steps⟩ := machine
  obtain ⟨site, op⟩ := next
  cases op with
  | right =>
    simp only [execute, Program.execute, Machine.act]
    cases tape.moveRight <;> rfl
  | left =>
    simp only [execute, Program.execute, Machine.act]
    cases tape.moveLeft <;> rfl
  | output => exact absurd rfl h
  | _ => rfl

theorem goes_execute (hc : c.connected = true) (next : Instruction) (m : Machine) (rest : List UInt8)
    (pending : Array UInt8) : Goes job c (.cleared next m rest pending) (execute job next m rest pending c) := by
  by_cases ho : next.op = .output
  · have hsize : (pending.push m.tape.get).size = pending.size + 1 := Array.size_push _
    rw [execute_output ho, emit]
    by_cases hfull : Channel.chunkBytes ≤ (pending.push m.tape.get).size
    · rw [if_pos hfull]
      exact .fills ho (by omega)
    rw [if_neg hfull, Channel.trySend_of_connected hc]
    by_cases hroom : c.queue.size < Channel.capacity
    · rw [if_pos hroom]
      exact .sends ho (by omega) hroom
    · rw [if_neg hroom]
      exact .keeps ho (by omega) hroom
  · have hx : ∀ flag out, execute job next m rest pending c =
        (ofTurn pending (job.program.execute (job.interpreter flag) next ⟨m, out, rest⟩), c) :=
      fun flag out => execute_eq_ofTurn ho flag out m rest pending
    rw [hx (fun _ => false) #[]]
    refine .acts ho (fun flag out => ?_)
    have heq := (hx flag out).symm.trans (hx (fun _ => false) #[])
    exact congrArg Prod.fst heq

theorem goes_closing (hc : c.connected = true) (result : Except RunError Stats) (pending : Array UInt8) :
    Goes job c (.closing result pending) (step job (.closing result pending) c) := by
  simp only [step]
  rw [Channel.trySend_of_connected hc, Channel.trySend_of_connected hc]
  by_cases hroom : c.queue.size < Channel.capacity
  · rw [if_pos hroom, if_pos hroom]
    by_cases hp : pending = #[]
    · subst hp
      exact .finishes hroom
    · rw [if_neg (by simpa using hp)]
      exact .flushes hp hroom
  · rw [if_neg hroom, if_neg hroom]
    simp only [ite_self]
    exact .waits (by simpa [isIdle, hc] using hroom)

/-- **What a step of the worker can do** while the watcher listens. -/
theorem step_goes (job : Job) (w : Worker) {c : Channel} (hc : c.connected = true) : Goes job c w (w.step job c) := by
  cases w with
  | running m rest pending =>
    simp only [step, check]
    split
    · rename_i hi
      exact .runsOut hi
    · rename_i next hi
      split
      · rename_i e he
        exact .stopped hi he
      · rename_i he
        exact .clears hi he
  | cleared next m rest pending => exact goes_execute hc next m rest pending
  | sending site m rest chunk =>
    simp only [step]
    rw [Channel.trySend_of_connected hc]
    by_cases hroom : c.queue.size < Channel.capacity
    · rw [if_pos hroom]
      exact .sendsChunk hroom
    · rw [if_neg hroom]
      exact .waits (by simpa [isIdle, hc] using hroom)
  | closing result pending => exact goes_closing hc result pending
  | ended => exact .waits rfl

/-! ## What it sends -/

/-- The bytes that were emitted and not sent yet. -/
def pending : Worker → Array UInt8
  | .running _ _ pending | .cleared _ _ _ pending | .closing _ pending => pending
  | .sending _ _ _ chunk => chunk
  | .ended => #[]

/-- The bytes that the program emits in the next step: one if that executes a `.`, and else none. -/
def emission : Worker → List UInt8
  | .cleared next machine _ _ => if next.op = .output then [machine.tape.get] else []
  | .running .. | .sending .. | .closing .. | .ended => []

/-- A worker has less than a chunk to send, unless it waits in the middle of a `.` with just a chunk. -/
def Small : Worker → Prop
  | .sending _ _ _ chunk => chunk.size = Channel.chunkBytes
  | w => w.pending.size < Channel.chunkBytes

theorem Small.pending_lt (h : w.Small) (hw : ∀ site m rest chunk, w ≠ .sending site m rest chunk) :
    w.pending.size < Channel.chunkBytes := by
  cases w with
  | sending site m rest chunk => exact absurd rfl (hw site m rest chunk)
  | _ => exact h

theorem emission_of_isIdle (h : w.isIdle c = true) : w.emission = [] := by
  cases w with
  | cleared next m rest pending => cases h
  | _ => rfl

theorem ofTurn_ne_ended (pending : Array UInt8) (turn : Turn (Array UInt8) (List UInt8)) :
    ofTurn pending turn ≠ .ended := by
  cases turn <;> simp [ofTurn]

theorem pending_ofTurn (pending : Array UInt8) (turn : Turn (Array UInt8) (List UInt8)) :
    (ofTurn pending turn).pending = pending := by
  cases turn <;> rfl

theorem small_ofTurn {pending : Array UInt8} (h : pending.size < Channel.chunkBytes)
    (turn : Turn (Array UInt8) (List UInt8)) : (ofTurn pending turn).Small := by
  cases turn <;> exact h

theorem toList_push_eq_emission {next : Instruction} (ho : next.op = .output) (m : Machine) (rest : List UInt8)
    (pending : Array UInt8) : (pending.push m.tape.get).toList =
      (Worker.cleared next m rest pending).pending.toList ++ (Worker.cleared next m rest pending).emission := by
  simp [Worker.pending, emission, ho]

/-- What a step from `w` may lead to, by what it sends. -/
inductive Sent (w : Worker) (c : Channel) : Worker × Channel → Prop where
  | nothing {w' : Worker} (hp : w'.pending.toList = w.pending.toList ++ w.emission) (he : w' = .ended ↔ w = .ended) :
      Sent w c (w', c)
  | chunk {w' : Worker} {chunk : Array UInt8} (hroom : c.queue.size < Channel.capacity)
      (hc : chunk.toList = w.pending.toList ++ w.emission) (hpos : 0 < chunk.size)
      (hle : chunk.size ≤ Channel.chunkBytes) (hp : w'.pending = #[]) (he : w ≠ .ended) (he' : w' ≠ .ended) :
      Sent w c (w', { c with queue := c.queue.push (.output chunk) })
  | result {result : Except RunError Stats} (hroom : c.queue.size < Channel.capacity) (hw : w = .closing result #[]) :
      Sent w c (.ended, { c with queue := c.queue.push (.finished result) })

/-- **What a step of the worker sends.** -/
theorem Goes.sent (g : Goes job c w after) (hs : w.Small) : Sent w c after := by
  cases g with
  | runsOut => exact .nothing (List.append_nil _).symm (by simp)
  | stopped => exact .nothing (List.append_nil _).symm (by simp)
  | clears => exact .nothing (List.append_nil _).symm (by simp)
  | @acts next m rest pending w' ho hx =>
    obtain rfl := hx (fun _ => false) #[]
    refine .nothing ?_ (by simp [ofTurn_ne_ended])
    rw [pending_ofTurn, emission, if_neg ho, List.append_nil]
    rfl
  | fills ho hfull => exact .nothing (toList_push_eq_emission ho _ _ _) (by simp)
  | @sends next m rest pending ho hlt hroom =>
    have hsize : (pending.push m.tape.get).size = pending.size + 1 := Array.size_push _
    exact .chunk hroom (toList_push_eq_emission ho _ _ _) (by omega) (by omega) rfl (by simp) (by simp)
  | keeps ho hlt hroom => exact .nothing (toList_push_eq_emission ho _ _ _) (by simp)
  | @sendsChunk site m rest chunk hroom =>
    have hsize : chunk.size = Channel.chunkBytes := hs
    have hpos : 0 < chunk.size := by rw [hsize]; exact Channel.chunkBytes_pos
    exact .chunk hroom (List.append_nil _).symm hpos (Nat.le_of_eq hsize) rfl (by simp) (by simp)
  | @flushes result pending hp hroom =>
    have hlt : pending.size < Channel.chunkBytes := hs
    exact .chunk hroom (List.append_nil _).symm (Array.size_pos_iff.2 hp) (by omega) rfl (by simp) (by simp)
  | finishes hroom => exact .result hroom rfl
  | waits hw => exact .nothing (by rw [emission_of_isIdle hw, List.append_nil]) Iff.rfl

theorem Goes.small (g : Goes job c w after) (hs : w.Small) : after.1.Small := by
  cases g with
  | runsOut => exact hs
  | stopped => exact hs
  | clears => exact hs
  | acts ho hx =>
    obtain rfl := hx (fun _ => false) #[]
    exact small_ofTurn hs _
  | @fills next m rest pending ho hfull =>
    have hlt : pending.size < Channel.chunkBytes := hs
    show (pending.push m.tape.get).size = Channel.chunkBytes
    rw [Array.size_push]
    omega
  | sends => exact Channel.chunkBytes_pos
  | @keeps next m rest pending ho hlt hroom =>
    show (pending.push m.tape.get).size < Channel.chunkBytes
    rw [Array.size_push]
    exact hlt
  | sendsChunk => exact Channel.chunkBytes_pos
  | flushes => exact Channel.chunkBytes_pos
  | finishes => exact Channel.chunkBytes_pos
  | waits => exact hs

/-! ## What it does

The flag is raised once and stays up, so a worker that still runs has found it down before every instruction so far.  It
is where the interpreter is that finds the flag down so often, whatever the flag shows later. -/

end Worker

namespace Job

variable {job : Job} {input rest : List UInt8} {m : Machine} {out : Array UInt8} {next : Instruction}

/-- The state in which the interpreter begins. -/
def initial (job : Job) (input : List UInt8) : State (Array UInt8) (List UInt8) :=
  ⟨Machine.start job.config.tape, #[], input⟩

/-- The interpreter comes to this machine, with `rest` still to be read and `out` emitted, if it finds the flag down
until then. -/
def At (job : Job) (input : List UInt8) (m : Machine) (rest : List UInt8) (out : Array UInt8) : Prop :=
  ∀ flag : Nat → Bool, (∀ k < m.steps, flag k = false) →
    job.program.stateAfter (job.interpreter flag) m.steps (job.initial input) = some ⟨m, out, rest⟩

/-- This instruction is next, and no bound but the flag forbids it. -/
def Due (job : Job) (next : Instruction) (m : Machine) : Prop :=
  job.program.instructions[m.ip]? = some next ∧ job.config.stop? m.steps false (job.clock m.steps) = none

/-- The interpreter has emitted these bytes after some number of instructions. -/
def Emitted (job : Job) (input : List UInt8) (out : Array UInt8) : Prop :=
  ∃ n s, job.program.stateAfter (job.interpreter fun _ => false).unbounded n (job.initial input) = some s ∧ s.sink = out

/-- The interpreter ends with this result and has then emitted these bytes, for some readings of the flag; they are all
down unless `raised`. -/
def Reports (job : Job) (source : String) (input : List UInt8) (raised : Bool) (result : Except RunError Stats)
    (out : Array UInt8) : Prop :=
  ∃ flag : Nat → Bool, (∀ k, flag k = true → raised = true) ∧
    ∃ patience rest, runSource (job.interpreter flag) patience source #[] input = some ⟨result, out, rest⟩

theorem At.emitted (h : job.At input m rest out) : job.Emitted input out :=
  ⟨m.steps, _, Program.stateAfter_unbounded (h (fun _ => false) (fun _ _ => rfl)), rfl⟩

theorem At.after {s : State (Array UInt8) (List UInt8)} (h : job.At input m rest out) (hd : job.Due next m)
    (hx : job.program.execute (job.interpreter fun _ => false) next ⟨m, out, rest⟩ = .next s) :
    job.At input s.machine s.input s.sink := by
  intro flag hflag
  have hsteps : s.machine.steps = m.steps + 1 := Program.steps_of_execute_next hx
  rw [hsteps] at hflag ⊢
  have hstop : (job.interpreter flag).stop? ⟨m, out, rest⟩ = none := by
    show job.config.stop? m.steps (flag m.steps) (job.clock m.steps) = none
    rw [hflag m.steps (Nat.lt_succ_self _)]
    exact hd.2
  refine Program.stateAfter_succ_iff.2 ⟨_, h flag (fun k hk => hflag k (by omega)), ?_⟩
  rw [Program.turn_of_clear hd.1 hstop]
  exact hx

theorem At.reports {source : String} {raised : Bool} {result : Except RunError Stats}
    {final : State (Array UInt8) (List UInt8)} (h : job.At input m rest out)
    (hp : Program.parse source = .ok job.program) (flag : Nat → Bool) (hdown : ∀ k < m.steps, flag k = false)
    (hup : ∀ k, flag k = true → raised = true)
    (hturn : job.program.turn (job.interpreter flag) ⟨m, out, rest⟩ = .ended ⟨result, final⟩) :
    job.Reports source input raised result final.sink := by
  have hends : job.program.Ends (job.interpreter flag) (job.initial input) ⟨result, final⟩ :=
    Program.ends_iff.2 ⟨_, _, h flag hdown, hturn⟩
  obtain ⟨patience, hr⟩ := Program.exists_run_iff.2 hends
  refine ⟨flag, hup, patience, final.input, ?_⟩
  simp only [runSource, hp, hr, Option.map_some]

theorem Reports.mono {source : String} {raised raised' : Bool} {result : Except RunError Stats}
    (h : job.Reports source input raised result out) (hr : raised = true → raised' = true) :
    job.Reports source input raised' result out := by
  obtain ⟨flag, hup, hrun⟩ := h
  exact ⟨flag, fun k hk => hr (hup k hk), hrun⟩

theorem Reports.ne_sink {source : String} {raised : Bool} {result : Except RunError Stats}
    (h : job.Reports source input raised result out) (site : Site) (cause : String) :
    result ≠ .error (.sink site cause) := by
  rintro rfl
  obtain ⟨flag, -, patience, rest, hrun⟩ := h
  unfold runSource at hrun
  cases hp : Program.parse source with
  | error u => rw [hp] at hrun; cases hrun
  | ok p =>
    rw [hp] at hrun
    obtain ⟨r, hr, he⟩ := Option.map_eq_some_iff.1 hrun
    obtain ⟨result, final⟩ := r
    cases he
    obtain ⟨n, t, -, hturn⟩ := Program.ends_iff.1 (Program.exists_run_iff.1 ⟨patience, hr⟩)
    exact Program.turn_ne_sink (fun _ _ => rfl) hturn

end Job

namespace Worker

variable {job : Job} {source : String} {input : List UInt8} {raised : Bool} {out : List UInt8}

/-- The worker is where the interpreter is that has emitted `out`; in the middle of a `.` its byte counts as emitted. -/
def Follows (job : Job) (source : String) (input : List UInt8) (raised : Bool) (out : List UInt8) : Worker → Prop
  | .running m rest _ => Program.parse source = .ok job.program ∧ job.At input m rest out.toArray
  | .cleared next m rest _ =>
    Program.parse source = .ok job.program ∧ job.At input m rest out.toArray ∧ job.Due next m
  | .sending _ m rest _ =>
    Program.parse source = .ok job.program ∧ ∃ next before, next.op = .output ∧ out = before ++ [m.tape.get] ∧
      job.At input m rest before.toArray ∧ job.Due next m
  | .closing result _ => job.Reports source input raised result out.toArray
  | .ended => True

theorem follows_stopped {c : Channel} {m : Machine} {rest : List UInt8} {next : Instruction} {e : RunError}
    (hp : Program.parse source = .ok job.program) (h : job.At input m rest out.toArray)
    (hi : job.program.instructions[m.ip]? = some next)
    (he : job.config.stop? m.steps c.cancelled (job.clock m.steps) = some e) :
    job.Reports source input c.cancelled (.error e) out.toArray := by
  -- the flag as the worker found it: down until now, and now as the channel shows it
  refine h.reports hp (fun k => decide (k = m.steps) && c.cancelled) (fun k hk => ?_) (fun k hk => ?_)
    (Program.turn_of_stop hi ?_)
  · simp [Nat.ne_of_lt hk]
  · rw [Bool.and_eq_true] at hk
    exact hk.2
  · simpa [Setting.stop?, Job.interpreter] using he

theorem follows_proceed {m : Machine} {rest : List UInt8} {next : Instruction} (ho : next.op = .output)
    (h : job.At input m rest out.toArray) (hd : job.Due next m) :
    job.At input m.proceed rest (out ++ [m.tape.get]).toArray := by
  obtain ⟨site, op⟩ := next
  cases ho
  have h' := h.after hd rfl
  simpa using h'

theorem follows_ofTurn {m : Machine} {rest : List UInt8} {next : Instruction} (ho : next.op ≠ .output)
    (hp : Program.parse source = .ok job.program) (h : job.At input m rest out.toArray) (hd : job.Due next m)
    (pending : Array UInt8) : (ofTurn pending (job.program.execute (job.interpreter fun _ => false) next
      ⟨m, out.toArray, rest⟩)).Follows job source input raised out := by
  cases hx : job.program.execute (job.interpreter fun _ => false) next ⟨m, out.toArray, rest⟩ with
  | next s =>
    have hat := h.after hd hx
    rw [Program.sink_of_execute_next ho hx] at hat
    exact ⟨hp, hat⟩
  | ended r =>
    have hstop : (job.interpreter fun _ => false).stop? ⟨m, out.toArray, rest⟩ = none := hd.2
    have hturn : job.program.turn (job.interpreter fun _ => false) ⟨m, out.toArray, rest⟩ = .ended r := by
      rw [Program.turn_of_clear hd.1 hstop, hx]
    have hr : job.Reports source input raised r.result r.final.sink :=
      h.reports hp (fun _ => false) (fun _ _ => rfl) (fun _ hk => by cases hk) hturn
    rw [Program.sink_of_execute_ended ho hx] at hr
    exact hr

/-- **The worker follows the interpreter.** -/
theorem Goes.follows {w : Worker} {c : Channel} {after : Worker × Channel} (g : Goes job c w after)
    (h : w.Follows job source input c.cancelled out) :
    after.1.Follows job source input c.cancelled (out ++ w.emission) := by
  cases g with
  | runsOut hi =>
    rw [emission, List.append_nil]
    exact h.2.reports h.1 (fun _ => false) (fun _ _ => rfl) (fun _ hk => by cases hk) (Program.turn_of_none hi)
  | stopped hi he =>
    rw [emission, List.append_nil]
    exact follows_stopped h.1 h.2 hi he
  | clears hi he =>
    rw [emission, List.append_nil]
    exact ⟨h.1, h.2, hi, Config.stop?_false_of_eq_none he⟩
  | acts ho hx =>
    obtain rfl := hx (fun _ => false) out.toArray
    rw [emission, if_neg ho, List.append_nil]
    exact follows_ofTurn ho h.1 h.2.1 h.2.2 _
  | @fills next m rest pending ho hfull =>
    rw [emission, if_pos ho]
    exact ⟨h.1, next, out, ho, rfl, h.2⟩
  | sends ho hlt hroom =>
    rw [emission, if_pos ho]
    exact ⟨h.1, follows_proceed ho h.2.1 h.2.2⟩
  | keeps ho hlt hroom =>
    rw [emission, if_pos ho]
    exact ⟨h.1, follows_proceed ho h.2.1 h.2.2⟩
  | sendsChunk hroom =>
    obtain ⟨hp, next, before, ho, rfl, hat, hd⟩ := h
    rw [emission, List.append_nil]
    exact ⟨hp, follows_proceed ho hat hd⟩
  | flushes hp hroom =>
    rw [emission, List.append_nil]
    exact h
  | finishes hroom => trivial
  | waits hw =>
    rw [emission_of_isIdle hw, List.append_nil]
    exact h

theorem Follows.emitted {w : Worker} (h : w.Follows job source input raised out) (he : job.Emitted input out.toArray) :
    job.Emitted input (out ++ w.emission).toArray := by
  cases w with
  | cleared next m rest pending =>
    obtain ⟨-, hat, hd⟩ := h
    by_cases ho : next.op = .output
    · rw [emission, if_pos ho]
      exact (follows_proceed ho hat hd).emitted
    · rw [emission, if_neg ho, List.append_nil]
      exact he
  | _ => rwa [emission, List.append_nil]

theorem Follows.mono {w : Worker} {raised' : Bool} (h : w.Follows job source input raised out)
    (hr : raised = true → raised' = true) : w.Follows job source input raised' out := by
  cases w with
  | closing result pending => exact Job.Reports.mono h hr
  | _ => exact h

end Worker

end Brainfuck
