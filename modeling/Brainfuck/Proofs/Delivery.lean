import Brainfuck.Delivery.BackgroundRun
import Brainfuck.Proofs.WorkerStep
/-!
# The channel loses nothing

A history is a background run together with what its watcher has taken and what its program has emitted so far.  It
grows by steps of the worker and acts of the watcher in any order (`History.Step`), as long as the watcher does not hang
up.  In every history the bytes taken, the bytes queued and the bytes that wait are, in this order, the bytes emitted,
and these are the bytes the interpreter emits; the queue and the chunks in it keep to their bounds; no byte is refused;
and the result comes once, after everything else (`History.faithful_of_reachable`).
-/
namespace Brainfuck

/-- The output bytes an event brings. -/
def Event.bytes : Event → List UInt8
  | .output chunk => chunk.toList
  | .finished _ => []

namespace BackgroundRun

/-- The oldest `n` events, or all if there are fewer, and the run without them. -/
def take (r : BackgroundRun) (n : Nat) : List Event × BackgroundRun :=
  ((r.channel.queue.take n).toList, { r with channel := { r.channel with queue := r.channel.queue.drop n } })

theorem take_of_empty {r : BackgroundRun} (h : r.channel.queue[0]? = none) (n : Nat) : r.take n = ([], r) := by
  obtain ⟨job, worker, ⟨queue, cancelled, connected⟩⟩ := r
  obtain rfl : queue = #[] := by simpa using h
  simp [take]

theorem take_succ {r : BackgroundRun} {e : Event} (h : r.channel.queue[0]? = some e) (n : Nat) :
    r.take (n + 1) = (e :: ((r.take 1).2.take n).1, ((r.take 1).2.take n).2) := by
  obtain ⟨job, worker, ⟨queue, cancelled, connected⟩⟩ := r
  obtain ⟨events⟩ := queue
  cases events with
  | nil => cases h
  | cons first rest =>
    obtain rfl : first = e := by simpa using h
    simp [take]

theorem receive_eq_take (r : BackgroundRun) :
    r.receive = r.channel.queue[0]?.map (fun e => (e, (r.take 1).2)) := by
  obtain ⟨job, worker, channel⟩ := r
  simp only [receive, Channel.receive]
  cases channel.queue[0]? <;> rfl

/-- To take a batch while the worker rests is to take the oldest events. -/
theorem drainFor_nil : ∀ (room : Nat) (r : BackgroundRun), r.drainFor room [] = r.take room
  | 0, r => by simp [drainFor, take]
  | room + 1, r => by
    simp only [drainFor, List.headD_nil, List.tail_nil, workFor, receive_eq_take]
    cases he : r.channel.queue[0]? with
    | none => exact (take_of_empty he _).symm
    | some e =>
      rw [take_succ he room, ← drainFor_nil room]
      rfl

end BackgroundRun

/-- A background run, the events taken from it so far, oldest first, and the bytes its program has emitted. -/
structure History where
  run : BackgroundRun
  taken : List Event
  emitted : List UInt8

namespace History

/-- What can happen next: the worker takes a step, or the watcher takes some events, at most a batch, or raises the
flag. -/
inductive Step (h : History) : History → Prop where
  | work : Step h { h with run := h.run.work, emitted := h.emitted ++ h.run.worker.emission }
  | take {n : Nat} (hn : n ≤ Channel.drainBatch) :
      Step h { h with run := (h.run.take n).2, taken := h.taken ++ (h.run.take n).1 }
  | cancel : Step h { h with run := h.run.cancel }

/-- The histories of a run of `source` on `input`, however its worker and its watcher take turns. -/
inductive Reachable (source : String) (input : List UInt8) (config : Config) (clock : Nat → Nat) : History → Prop where
  | start : Reachable source input config clock ⟨.start source input config clock, [], []⟩
  | step {h h' : History} (hr : Reachable source input config clock h) (hs : Step h h') :
      Reachable source input config clock h'

/-- All events that were sent, oldest first. -/
def events (h : History) : List Event := h.taken ++ h.run.channel.queue.toList

/-! ## The invariant -/

/-- What holds from step to step while `job` runs. -/
structure Tracked (source : String) (input : List UInt8) (job : Job) (h : History) : Prop where
  job_eq : h.run.job = job
  connected : h.run.channel.connected = true
  small : h.run.worker.Small
  follows : h.run.worker.Follows job source input h.run.channel.cancelled h.emitted
  emitted : job.Emitted input h.emitted.toArray
  bytes : h.events.flatMap Event.bytes ++ h.run.worker.pending.toList = h.emitted
  room : h.run.channel.queue.size ≤ Channel.capacity
  chunks : ∀ chunk, .output chunk ∈ h.events → 0 < chunk.size ∧ chunk.size ≤ Channel.chunkBytes
  outputs : h.run.worker ≠ .ended → ∃ chunks : List (Array UInt8), h.events = chunks.map .output
  finished : h.run.worker = .ended → ∃ (chunks : List (Array UInt8)) (result : Except RunError Stats),
    h.events = chunks.map .output ++ [.finished result] ∧
      job.Reports source input h.run.channel.cancelled result h.emitted.toArray

variable {source : String} {input : List UInt8} {job : Job} {h : History}

theorem events_push {h h' : History} {e : Event} (ht : h'.taken = h.taken)
    (hq : h'.run.channel.queue = h.run.channel.queue.push e) : h'.events = h.events ++ [e] := by
  rw [events, events, ht, hq, Array.toList_push, List.append_assoc]

theorem Tracked.work (t : h.Tracked source input job) :
    Tracked source input job { h with run := h.run.work, emitted := h.emitted ++ h.run.worker.emission } := by
  obtain ⟨⟨job', w, c⟩, taken, emitted⟩ := h
  obtain rfl : job' = job := t.job_eq
  have hgoes : Worker.Goes job' c w (w.step job' c) := Worker.step_goes job' w t.connected
  have hsmall := hgoes.small t.small
  have hfol := hgoes.follows t.follows
  have hem := t.follows.emitted t.emitted
  have hbytes : (events ⟨⟨job', w, c⟩, taken, emitted⟩).flatMap Event.bytes ++ w.pending.toList = emitted := t.bytes
  simp only [BackgroundRun.work]
  generalize w.step job' c = next at hgoes hsmall hfol
  cases hgoes.sent t.small with
  | @nothing w' hp he =>
    refine ⟨rfl, t.connected, hsmall, hfol, hem, ?_, t.room, t.chunks, fun hne => t.outputs (fun h => hne (he.2 h)), ?_⟩
    · show (events ⟨⟨job', w, c⟩, taken, emitted⟩).flatMap Event.bytes ++ w'.pending.toList = emitted ++ w.emission
      rw [hp, ← List.append_assoc, hbytes]
    · intro h
      obtain rfl := he.1 h
      rw [Worker.emission, List.append_nil]
      exact t.finished rfl
  | @chunk w' chunk hr hc hpos hle hp he he' =>
    have hev : events ⟨⟨job', w', { c with queue := c.queue.push (.output chunk) }⟩, taken, emitted ++ w.emission⟩ =
        events ⟨⟨job', w, c⟩, taken, emitted⟩ ++ [.output chunk] := events_push rfl rfl
    refine ⟨rfl, t.connected, hsmall, hfol, hem, ?_, ?_, ?_, ?_, fun h => absurd h he'⟩
    · rw [hev, hp, List.flatMap_append, List.flatMap_singleton, Event.bytes, hc, List.append_nil, ← List.append_assoc,
        hbytes]
    · rw [Array.size_push]
      exact hr
    · intro chunk' hmem
      rw [hev, List.mem_append, List.mem_singleton] at hmem
      rcases hmem with hmem | hmem
      · exact t.chunks chunk' hmem
      · cases hmem
        exact ⟨hpos, hle⟩
    · intro _
      obtain ⟨chunks, hch⟩ := t.outputs he
      refine ⟨chunks ++ [chunk], ?_⟩
      rw [hev, hch, List.map_append]
      rfl
  | @result result hr hw =>
    obtain rfl : w = .closing result #[] := hw
    have hev : events ⟨⟨job', .ended, { c with queue := c.queue.push (.finished result) }⟩, taken, emitted ++ []⟩ =
        events ⟨⟨job', .closing result #[], c⟩, taken, emitted⟩ ++ [.finished result] := events_push rfl rfl
    rw [Worker.emission] at hem hfol ⊢
    refine ⟨rfl, t.connected, hsmall, hfol, hem, ?_, ?_, ?_, fun h => absurd rfl h, fun _ => ?_⟩
    · rw [hev, List.flatMap_append, List.flatMap_singleton, Event.bytes, List.append_nil, List.append_nil]
      exact hbytes
    · rw [Array.size_push]
      exact hr
    · intro chunk' hmem
      rw [hev, List.mem_append, List.mem_singleton] at hmem
      rcases hmem with hmem | hmem
      · exact t.chunks chunk' hmem
      · cases hmem
    · obtain ⟨chunks, hch⟩ := t.outputs Worker.noConfusion
      refine ⟨chunks, result, ?_, ?_⟩
      · rw [hev, hch]
      · rw [List.append_nil]
        exact t.follows

theorem Tracked.take (t : h.Tracked source input job) (n : Nat) :
    Tracked source input job { h with run := (h.run.take n).2, taken := h.taken ++ (h.run.take n).1 } := by
  have hev : events { h with run := (h.run.take n).2, taken := h.taken ++ (h.run.take n).1 } = h.events := by
    simp [events, BackgroundRun.take, List.take_of_length_le]
  refine ⟨t.job_eq, t.connected, t.small, t.follows, t.emitted, ?_, ?_, ?_, ?_, ?_⟩
  · rw [hev]; exact t.bytes
  · have hle : (h.run.channel.queue.drop n).size ≤ h.run.channel.queue.size := by simp
    exact Nat.le_trans hle t.room
  · rw [hev]; exact t.chunks
  · rw [hev]; exact t.outputs
  · rw [hev]; exact t.finished

theorem Tracked.cancel (t : h.Tracked source input job) : Tracked source input job { h with run := h.run.cancel } where
  job_eq := t.job_eq
  connected := t.connected
  small := t.small
  follows := t.follows.mono (fun _ => rfl)
  emitted := t.emitted
  bytes := t.bytes
  room := t.room
  chunks := t.chunks
  outputs := t.outputs
  finished he := by
    obtain ⟨chunks, result, hev, hr⟩ := t.finished he
    exact ⟨chunks, result, hev, hr.mono (fun _ => rfl)⟩

theorem tracked_start (source : String) (input : List UInt8) (config : Config) (clock : Nat → Nat) :
    Tracked source input (Worker.start source input config clock).2 ⟨.start source input config clock, [], []⟩ := by
  have hbytes : [].flatMap Event.bytes ++ (#[] : Array UInt8).toList = [] := rfl
  unfold BackgroundRun.start Worker.start
  cases hp : Program.parse source with
  | ok program =>
    exact ⟨rfl, rfl, Channel.chunkBytes_pos, ⟨hp, fun _ _ => rfl⟩, ⟨0, _, rfl, rfl⟩, hbytes, Nat.zero_le _, nofun,
      fun _ => ⟨[], rfl⟩, nofun⟩
  | error u =>
    refine ⟨rfl, rfl, Channel.chunkBytes_pos, ⟨fun _ => false, nofun, 0, input, ?_⟩, ⟨0, _, rfl, rfl⟩, hbytes,
      Nat.zero_le _, nofun, fun _ => ⟨[], rfl⟩, nofun⟩
    simp only [runSource, hp]

theorem tracked_of_reachable {config : Config} {clock : Nat → Nat} (hr : Reachable source input config clock h) :
    Tracked source input (Worker.start source input config clock).2 h := by
  induction hr with
  | start => exact tracked_start source input config clock
  | step _ hs ih =>
    cases hs with
    | work => exact ih.work
    | take _ => exact ih.take _
    | cancel => exact ih.cancel

/-! ## What the watcher can rely on -/

/-- What a history of a run of `job` promises. -/
structure Faithful (source : String) (input : List UInt8) (job : Job) (h : History) : Prop where
  /-- What was taken, what is queued and what waits is what was emitted. -/
  bytes_eq : h.taken.flatMap Event.bytes ++ h.run.channel.queue.toList.flatMap Event.bytes ++
    h.run.worker.pending.toList = h.emitted
  /-- The interpreter has emitted the same after some number of instructions. -/
  emitted : job.Emitted input h.emitted.toArray
  queue_le : h.run.channel.queue.size ≤ Channel.capacity
  chunk_size : ∀ chunk, .output chunk ∈ h.run.channel.queue → 0 < chunk.size ∧ chunk.size ≤ Channel.chunkBytes
  /-- Unless the worker is in the middle of a `.`, less than a chunk waits. -/
  pending_lt : (∀ site m rest chunk, h.run.worker ≠ .sending site m rest chunk) →
    h.run.worker.pending.size < Channel.chunkBytes
  /-- No byte was refused. -/
  not_refused : ∀ result, (∃ pending, h.run.worker = .closing result pending) ∨ .finished result ∈ h.events →
    ∀ site cause, result ≠ .error (.sink site cause)
  /-- A result is the last event that is sent, and is sent once all bytes are. -/
  finished_last : ∀ result, .finished result ∈ h.events → h.run.worker = .ended ∧
    h.events.flatMap Event.bytes = h.emitted ∧ ∃ chunks : List (Array UInt8),
      h.events = chunks.map .output ++ [.finished result]
  /-- Once the worker has ended and the queue is empty, the watcher has all bytes and then the result of the
  interpreter, which found the flag up only if the watcher raised it. -/
  complete : h.run.worker = .ended → h.run.channel.queue = #[] → h.taken.flatMap Event.bytes = h.emitted ∧
    ∃ (chunks : List (Array UInt8)) (result : Except RunError Stats), h.taken = chunks.map .output ++ [.finished result] ∧
      job.Reports source input h.run.channel.cancelled result h.emitted.toArray

theorem finished_mem_iff {chunks : List (Array UInt8)} {result result' : Except RunError Stats} :
    Event.finished result' ∈ chunks.map .output ++ [.finished result] ↔ result' = result := by
  simp

/-- **The channel loses, repeats and reorders nothing**, however the worker and its watcher take turns. -/
theorem faithful_of_reachable {source : String} {input : List UInt8} {config : Config} {clock : Nat → Nat} {h : History}
    (hr : Reachable source input config clock h) :
    Faithful source input (Worker.start source input config clock).2 h := by
  have t := tracked_of_reachable hr
  have hbytes : h.taken.flatMap Event.bytes ++ h.run.channel.queue.toList.flatMap Event.bytes ++
      h.run.worker.pending.toList = h.emitted := by
    rw [← List.flatMap_append]
    exact t.bytes
  have hended : ∀ result, Event.finished result ∈ h.events → h.run.worker = .ended := by
    intro result hmem
    refine Classical.byContradiction (fun hne => ?_)
    obtain ⟨chunks, hev⟩ := t.outputs hne
    rw [hev] at hmem
    simp at hmem
  refine ⟨hbytes, t.emitted, t.room, fun chunk hmem => ?_, ?_, ?_, ?_, ?_⟩
  · exact t.chunks chunk (List.mem_append_right _ (Array.mem_toList_iff.2 hmem))
  · exact t.small.pending_lt
  · rintro result (⟨pending, hw⟩ | hmem)
    · have hfol := t.follows
      rw [hw] at hfol
      exact Job.Reports.ne_sink hfol
    · obtain ⟨chunks, result', hev, hrep⟩ := t.finished (hended result hmem)
      rw [hev, finished_mem_iff] at hmem
      rw [hmem]
      exact hrep.ne_sink
  · intro result hmem
    have hw := hended result hmem
    obtain ⟨chunks, result', hev, -⟩ := t.finished hw
    have hb := t.bytes
    rw [hw] at hb
    refine ⟨hw, by simpa [Worker.pending] using hb, chunks, ?_⟩
    rw [hev, finished_mem_iff] at hmem
    rw [hev, hmem]
  · intro hw hq
    have hev : h.events = h.taken := by simp [events, hq]
    obtain ⟨chunks, result, hsent, hrep⟩ := t.finished hw
    rw [hev] at hsent
    refine ⟨?_, chunks, result, hsent, hrep⟩
    simpa [hq, hw, Worker.pending] using hbytes

/-- A run whose only byte is taken before its flag is raised and its worker ends. -/
theorem faithful_of_reachable_one_byte :
    ∃ h : History, Reachable "+." [] { tape := .fixed 1 } (fun _ => 0) h ∧ h.run.worker = .ended ∧ h.emitted = [1] ∧
      h.taken.flatMap Event.bytes = [1] ∧
      Faithful "+." [] (Worker.start "+." [] { tape := .fixed 1 } (fun _ => 0)).2 h := by
  have hsent : Reachable "+." [] { tape := .fixed 1 } (fun _ => 0) _ :=
    (((Reachable.start.step .work).step .work).step .work).step .work
  have hr := (((((hsent.step (.take (n := 1) (by decide))).step .work).step .cancel).step .work).step
    (.take (n := 64) (Nat.le_refl _)))
  exact ⟨_, hr, rfl, rfl, rfl, faithful_of_reachable hr⟩

end History

end Brainfuck
