import Brainfuck.Console.Frame
import Brainfuck.Proofs.Delivery
/-!
# Schedules

Whatever drives a background run or a console does so in some order of their moves.  A worker that is let go on takes so
many steps (`BackgroundRun.advance_eq_workFor`), a batch is taken by some number of receives with steps of the worker
between them (`BackgroundRun.drainFor_eq_performAll`), and to collect all events, or to wait for the end of a run, is to
repeat the two (`BackgroundRun.collectFrom_eq_performAll`, `App.wait_eq_foldl_perform`).  So what is known of every
history holds of them: what is collected from a run that is over is all its output and its result
(`History.Reachable.collect`).
-/
namespace Brainfuck

namespace Worker

variable {job : Job} {w : Worker} {c : Channel}

theorem trySend_of_full (hc : c.connected = true) (hq : Channel.capacity ≤ c.queue.size) (e : Event) :
    c.trySend e = .full c := by
  unfold Channel.trySend
  rw [if_pos hc, if_neg (Nat.not_lt.2 hq)]

/-- An idle worker stays as it is. -/
theorem step_of_isIdle (h : w.isIdle c = true) : w.step job c = (w, c) := by
  have hfull (hidle : (c.connected && decide (Channel.capacity ≤ c.queue.size)) = true) (e : Event) :
      c.trySend e = .full c := by
    rw [Bool.and_eq_true, decide_eq_true_eq] at hidle
    exact trySend_of_full hidle.1 hidle.2 e
  cases w with
  | running m rest pending => cases h
  | cleared next m rest pending => cases h
  | sending site m rest chunk => simp only [step, hfull h]
  | closing result pending =>
    simp only [step, hfull h]
    split <;> rfl
  | ended => rfl

theorem advance_of_isIdle (h : w.isIdle c = true) (fuel : Nat) : w.advance job fuel c = (w, c) := by
  cases fuel with
  | zero => rfl
  | succ fuel => rw [advance, if_pos h]

theorem advance_succ (fuel : Nat) :
    w.advance job (fuel + 1) c = (w.step job c).1.advance job fuel (w.step job c).2 := by
  by_cases h : w.isIdle c = true
  · rw [advance_of_isIdle h, step_of_isIdle h, advance_of_isIdle h]
  · rw [advance, if_neg h]

end Worker

namespace BackgroundRun

variable {r : BackgroundRun}

/-! ## Steps of the worker -/

theorem workFor_succ : ∀ (n : Nat) (r : BackgroundRun), r.workFor (n + 1) = (r.workFor n).work
  | 0, _ => rfl
  | n + 1, r => workFor_succ n r.work

theorem advance_eq_workFor : ∀ (fuel : Nat) (r : BackgroundRun), r.advance fuel = r.workFor fuel
  | 0, _ => rfl
  | fuel + 1, r => by
    rw [workFor, ← advance_eq_workFor fuel r.work]
    simp only [advance, work, Worker.advance_succ]

theorem performAll_append (ms ms' : List Move) (r : BackgroundRun) :
    r.performAll (ms ++ ms') = ((r.performAll ms).1 ++ ((r.performAll ms).2.performAll ms').1,
      ((r.performAll ms).2.performAll ms').2) := by
  induction ms generalizing r with
  | nil => rfl
  | cons m ms ih =>
    simp only [List.cons_append, performAll]
    rw [ih, List.append_assoc]

theorem performAll_work : ∀ (n : Nat) (r : BackgroundRun), r.performAll (List.replicate n .work) = ([], r.workFor n)
  | 0, _ => rfl
  | n + 1, r => by
    rw [List.replicate_succ, performAll, perform, performAll_work n]
    rfl

/-! ## Batches -/

/-- The moves by which up to `room` events are taken. -/
def batch : (room : Nat) → (pauses : List Nat) → List Move
  | 0, _ => []
  | room + 1, pauses => List.replicate (pauses.headD 0) .work ++ .receive :: batch room pauses.tail

theorem performAll_batch_succ (room : Nat) (pauses : List Nat) (r : BackgroundRun) :
    r.performAll (batch (room + 1) pauses) =
      (((r.workFor (pauses.headD 0)).perform .receive).1 ++
          (((r.workFor (pauses.headD 0)).perform .receive).2.performAll (batch room pauses.tail)).1,
        (((r.workFor (pauses.headD 0)).perform .receive).2.performAll (batch room pauses.tail)).2) := by
  rw [batch, performAll_append, performAll_work]
  rfl

/-- **A batch is one order of the moves.** -/
theorem drainFor_eq_performAll (r : BackgroundRun) : ∀ (room : Nat) (pauses : List Nat),
    ∃ k ≤ room, r.drainFor room pauses = r.performAll (batch k pauses)
  | 0, _ => ⟨0, Nat.le_refl 0, rfl⟩
  | room + 1, pauses => by
    cases he : (r.workFor (pauses.headD 0)).receive with
    | none =>
      -- the batch ends with the first receive that finds nothing
      refine ⟨1, Nat.succ_le_succ (Nat.zero_le room), ?_⟩
      rw [performAll_batch_succ]
      simp only [drainFor, perform, he, batch, performAll, List.append_nil]
    | some first =>
      obtain ⟨e, next⟩ := first
      obtain ⟨k, hk, hrest⟩ := drainFor_eq_performAll next room pauses.tail
      refine ⟨k + 1, Nat.succ_le_succ hk, ?_⟩
      rw [performAll_batch_succ]
      simp only [drainFor, perform, he, hrest, List.singleton_append]

theorem mem_batch {m : Move} : ∀ {room : Nat} {pauses : List Nat}, m ∈ batch room pauses → m = .work ∨ m = .receive
  | 0, _, h => by cases h
  | room + 1, pauses, h => by
    rcases List.mem_append.1 h with h | h
    · exact .inl (List.eq_of_mem_replicate h)
    · rcases List.mem_cons.1 h with h | h
      · exact .inr h
      · exact mem_batch h

/-- **To collect events is one order of the moves** of the worker and of a watcher that only receives. -/
theorem collectFrom_eq_performAll (r : BackgroundRun) (fuel : Nat) : ∀ (rounds : Nat) (taken : Array Event),
    ∃ ms : List Move, (∀ m ∈ ms, m = .work ∨ m = .receive) ∧
      r.collectFrom fuel taken rounds = (taken ++ (r.performAll ms).1, (r.performAll ms).2)
  | 0, taken => ⟨[], nofun, by simp [collectFrom, performAll]⟩
  | rounds + 1, taken => by
    by_cases hover : r.isOver = true
    · exact ⟨[], nofun, by simp [collectFrom, performAll, hover]⟩
    · obtain ⟨k, -, hdrain⟩ := (r.workFor fuel).drainFor_eq_performAll Channel.drainBatch []
      obtain ⟨ms, hms, hrest⟩ := collectFrom_eq_performAll ((r.workFor fuel).performAll (batch k [])).2 fuel rounds
        (taken ++ ((r.workFor fuel).performAll (batch k [])).1)
      refine ⟨List.replicate fuel .work ++ (batch k [] ++ ms), fun m hm => ?_, ?_⟩
      · rcases List.mem_append.1 hm with hm | hm
        · exact .inl (List.eq_of_mem_replicate hm)
        · exact (List.mem_append.1 hm).elim mem_batch (hms m)
      · rw [performAll_append, performAll_work, performAll_append, collectFrom, if_neg hover, advance_eq_workFor, drain,
          hdrain]
        simp only [hrest, List.nil_append]
        exact Prod.ext (Array.ext' (by simp)) rfl

end BackgroundRun

/-! ## What every history tells of a schedule -/

theorem BackgroundRun.cancelled_perform {r : BackgroundRun} (hc : r.channel.connected = true) {m : Move}
    (hm : m = .work ∨ m = .receive) : (r.perform m).2.channel.cancelled = r.channel.cancelled := by
  obtain ⟨job, worker, channel⟩ := r
  rcases hm with rfl | rfl
  · have hgoes : Worker.Goes job channel worker (worker.step job channel) := Worker.step_goes job worker hc
    show (worker.step job channel).2.cancelled = channel.cancelled
    generalize worker.step job channel = after at hgoes ⊢
    cases hgoes <;> rfl
  · simp only [perform, receive_eq_take]
    cases channel.queue[0]? <;> rfl

namespace History

variable {source : String} {input : List UInt8} {config : Config} {clock : Nat → Nat}

theorem exists_step (h : History) {m : Move} (hm : m ≠ .hangUp) :
    ∃ h', Step h h' ∧ h'.run = (h.run.perform m).2 ∧ h'.taken = h.taken ++ (h.run.perform m).1 := by
  cases m with
  | work => exact ⟨_, .work, rfl, (List.append_nil _).symm⟩
  | receive =>
    refine ⟨_, .take (n := 1) (by decide), ?_⟩
    simp only [BackgroundRun.perform, BackgroundRun.receive_eq_take]
    cases he : h.run.channel.queue[0]? with
    | none => simp [BackgroundRun.take_of_empty he]
    | some e =>
      have htake : (h.run.take 1).1 = [e] := by
        rw [BackgroundRun.take_succ he 0]
        simp [BackgroundRun.take]
      simp [htake]
  | cancel => exact ⟨_, .cancel, rfl, (List.append_nil _).symm⟩
  | hangUp => exact absurd rfl hm

/-- Every schedule of the worker and of a watcher that receives leads from a history to a history. -/
theorem Reachable.performAll : ∀ {ms : List Move} {h : History}, Reachable source input config clock h →
    (∀ m ∈ ms, m = .work ∨ m = .receive) → ∃ h', Reachable source input config clock h' ∧
      h'.run = (h.run.performAll ms).2 ∧ h'.taken = h.taken ++ (h.run.performAll ms).1 ∧
      h'.run.channel.cancelled = h.run.channel.cancelled
  | [], h, hr, _ => ⟨h, hr, rfl, (List.append_nil _).symm, rfl⟩
  | m :: ms, h, hr, hms => by
    obtain ⟨hm, hrest⟩ := List.forall_mem_cons.1 hms
    obtain ⟨next, hstep, hrun, htaken⟩ := h.exists_step (m := m) (by rintro rfl; rcases hm with e | e <;> cases e)
    obtain ⟨h', hr', hrun', htaken', hcancelled⟩ := (hr.step hstep).performAll hrest
    refine ⟨h', hr', ?_, ?_, hcancelled.trans ?_⟩
    · rw [hrun', hrun]
      rfl
    · rw [htaken', htaken, hrun, List.append_assoc]
      rfl
    · rw [hrun]
      exact BackgroundRun.cancelled_perform (tracked_of_reachable hr).connected hm

/-- A batch leads from a history to a history, whatever the worker does meanwhile. -/
theorem Reachable.drain {h : History} (hr : Reachable source input config clock h) (pauses : List Nat) :
    ∃ h', Reachable source input config clock h' ∧ h'.run = (h.run.drain pauses).2 ∧
      h'.taken = h.taken ++ (h.run.drain pauses).1 ∧ h'.run.channel.cancelled = h.run.channel.cancelled := by
  obtain ⟨k, -, hdrain⟩ := h.run.drainFor_eq_performAll Channel.drainBatch pauses
  rw [BackgroundRun.drain, hdrain]
  exact hr.performAll (fun _ => BackgroundRun.mem_batch)

/-- **What is collected from a run that is over**, with what was taken before, is all its output and then its result. -/
theorem Reachable.collect {h : History} (hr : Reachable source input config clock h) {fuel rounds : Nat}
    (hover : (h.run.collectFrom fuel #[] rounds).2.isOver = true) :
    ∃ (chunks : List (Array UInt8)) (result : Except RunError Stats) (emitted : Array UInt8),
      h.taken ++ h.run.collect fuel rounds = chunks.map .output ++ [.finished result] ∧
      (h.taken ++ h.run.collect fuel rounds).flatMap Event.bytes = emitted.toList ∧
      (Worker.start source input config clock).2.Reports source input h.run.channel.cancelled result emitted := by
  obtain ⟨ms, hms, hcollect⟩ := h.run.collectFrom_eq_performAll fuel rounds #[]
  obtain ⟨h', hr', hrun, htaken, hcancelled⟩ := hr.performAll hms
  have hall : h.taken ++ h.run.collect fuel rounds = h'.taken := by
    rw [BackgroundRun.collect, hcollect, htaken]
    simp
  rw [hcollect, ← hrun] at hover
  obtain ⟨hended, hempty⟩ : h'.run.worker = .ended ∧ h'.run.channel.queue = #[] := by
    unfold BackgroundRun.isOver at hover
    split at hover
    · rename_i hended
      exact ⟨hended, by simpa using hover⟩
    · cases hover
  obtain ⟨hbytes, chunks, result, hchunks, hreports⟩ := (faithful_of_reachable hr').complete hended hempty
  rw [hcancelled] at hreports
  exact ⟨chunks, result, h'.emitted.toArray, hall.trans hchunks, by rw [hall, hbytes], hreports⟩

end History

/-! ## Schedules of a console -/

namespace App

theorem advanceRun_eq (fuel : Nat) (a : App) : a.advanceRun fuel = { a with run := a.run.map (·.workFor fuel) } := by
  unfold advanceRun
  cases hr : a.run with
  | none =>
    simp only [Option.map_none]
    rw [← hr]
  | some r => simp only [BackgroundRun.advance_eq_workFor, Option.map_some]

/-- To let a run go on is to let its worker take so many steps. -/
theorem advanceRun_eq_foldl_perform : ∀ (fuel : Nat) (a : App),
    a.advanceRun fuel = (List.replicate fuel Move.work).foldl perform a
  | 0, a => by
    have hzero : a.run.map (·.workFor 0) = a.run := Option.map_id_apply
    rw [advanceRun_eq, hzero]
    rfl
  | fuel + 1, a => by
    have hstep : a.run.map (·.workFor (fuel + 1)) = (a.advanceRun 1).run.map (·.workFor fuel) := by
      rw [advanceRun_eq, Option.map_map]
      rfl
    rw [List.replicate_succ, List.foldl_cons, perform, ← advanceRun_eq_foldl_perform fuel, advanceRun_eq,
      advanceRun_eq fuel, ← hstep, advanceRun_eq 1]

/-- **To wait for the end of a run is one order of the moves.** -/
theorem wait_eq_foldl_perform (fuel : Nat) : ∀ (rounds : Nat) (a : App), ∃ k ≤ rounds,
    a.wait fuel rounds = (List.replicate k (List.replicate fuel Move.work ++ [.poll []])).flatten.foldl perform a
  | 0, a => ⟨0, Nat.le_refl 0, rfl⟩
  | rounds + 1, a => by
    by_cases hover : a.run.isNone = true
    · refine ⟨0, Nat.zero_le _, ?_⟩
      rw [wait, if_pos hover]
      rfl
    · obtain ⟨k, hk, hrest⟩ := wait_eq_foldl_perform fuel rounds (a.advanceRun fuel).poll
      refine ⟨k + 1, Nat.succ_le_succ hk, ?_⟩
      rw [wait, if_neg hover, hrest, List.replicate_succ, List.flatten_cons, List.foldl_append, List.foldl_append,
        ← advanceRun_eq_foldl_perform]
      rfl

end App

end Brainfuck
