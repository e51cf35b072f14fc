import Brainfuck.Proofs.Session
/-!
# Giving up a run

A watcher that gives up a run raises its flag, hangs up and waits for the worker to end.  The worker may be anywhere
when the flag goes up, and may take any number of steps before the watcher is gone.  Once both are done nothing it sends
has to wait for room: `Worker.WindsDown` lists what is left for it to do.  So it comes closer to its end with every step
(`Worker.distance`) and is there after four, and of the instructions of the program at most the one it was about to
execute is completed (`Worker.Within`), whatever the program and its bounds are (`dropped_run_ends`).
-/
namespace Brainfuck

theorem Config.exists_stop?_of_cancelled {config : Config} (h : config.cancellable = true) (steps elapsed : Nat) :
    ∃ e, config.stop? steps true elapsed = some e := by
  unfold stop?
  split
  · exact ⟨_, rfl⟩
  · rw [h]
    exact ⟨_, rfl⟩

theorem Channel.trySend_of_not_connected {c : Channel} (h : c.connected = false) (e : Event) :
    c.trySend e = .closed c := by
  simp [trySend, h]

namespace Worker

variable {job : Job} {c : Channel} {w w' : Worker} {after : Worker × Channel}

/-! ## What is left to do -/

/-- All that a step can lead to once nobody listens and the flag is up. -/
inductive WindsDown (job : Job) : Worker → Worker → Prop where
  | stops {m : Machine} {rest : List UInt8} {pending : Array UInt8} {result : Except RunError Stats} :
      WindsDown job (.running m rest pending) (.closing result pending)
  | acts {next : Instruction} {m : Machine} {rest : List UInt8} {pending : Array UInt8} {w : Worker}
      (hx : ∀ flag out, ofTurn pending (job.program.execute (job.interpreter flag) next ⟨m, out, rest⟩) = w) :
      WindsDown job (.cleared next m rest pending) w
  | fills {next : Instruction} {m : Machine} {rest : List UInt8} {pending chunk : Array UInt8} :
      WindsDown job (.cleared next m rest pending) (.sending next.toSite m rest chunk)
  | refuses {next : Instruction} {m : Machine} {rest : List UInt8} {pending : Array UInt8}
      {result : Except RunError Stats} :
      WindsDown job (.cleared next m rest pending) (.closing result #[])
  | wakes {site : Site} {m : Machine} {rest : List UInt8} {chunk : Array UInt8} {result : Except RunError Stats} :
      WindsDown job (.sending site m rest chunk) (.closing result #[])
  | drops {result : Except RunError Stats} {pending : Array UInt8} (hp : pending ≠ #[]) :
      WindsDown job (.closing result pending) (.closing result #[])
  | ends {result : Except RunError Stats} : WindsDown job (.closing result #[]) .ended
  | rests : WindsDown job .ended .ended

/-- **What a step of the worker can do** once it is given up; the channel stays as it is. -/
theorem step_windsDown (hcancellable : job.config.cancellable = true) (hflag : c.cancelled = true)
    (hgone : c.connected = false) (w : Worker) : (w.step job c).2 = c ∧ WindsDown job w (w.step job c).1 := by
  cases w with
  | running m rest pending =>
    obtain ⟨e, he⟩ := Config.exists_stop?_of_cancelled hcancellable m.steps (job.clock m.steps)
    simp only [step, check, hflag, he]
    cases job.program.instructions[m.ip]? with
    | none => exact ⟨rfl, .stops⟩
    | some next => exact ⟨rfl, .stops⟩
  | cleared next m rest pending =>
    by_cases ho : next.op = .output
    · simp only [step, execute_output ho, emit, Channel.trySend_of_not_connected hgone]
      split
      · exact ⟨rfl, .fills⟩
      · exact ⟨rfl, .refuses⟩
    · have hx : ∀ flag out, step job (.cleared next m rest pending) c =
          (ofTurn pending (job.program.execute (job.interpreter flag) next ⟨m, out, rest⟩), c) :=
        fun flag out => execute_eq_ofTurn ho flag out m rest pending
      refine ⟨congrArg Prod.snd (hx (fun _ => false) #[]), .acts (fun flag out => ?_)⟩
      exact (congrArg Prod.fst (hx flag out)).symm
  | sending site m rest chunk =>
    rw [step, Channel.trySend_of_not_connected hgone]
    exact ⟨rfl, .wakes⟩
  | closing result pending =>
    simp only [step, Channel.trySend_of_not_connected hgone]
    by_cases hp : pending = #[]
    · subst hp
      exact ⟨rfl, .ends⟩
    · rw [if_neg (by simpa using hp)]
      exact ⟨rfl, .drops hp⟩
  | ended => exact ⟨rfl, .rests⟩

/-! ## How far it is from its end -/

/-- How many steps a worker that is given up has still to take, at most. -/
def distance : Worker → Nat
  | .cleared .. => 4
  | .running .. => 3
  | .sending .. => 2
  | .closing _ pending => if pending.isEmpty then 1 else 2
  | .ended => 0

theorem distance_closing (result : Except RunError Stats) (pending : Array UInt8) :
    0 < (Worker.closing result pending).distance ∧ (Worker.closing result pending).distance ≤ 2 := by
  simp only [distance]
  split <;> omega

theorem distance_le_four (w : Worker) : w.distance ≤ 4 := by
  cases w with
  | closing result pending => exact Nat.le_trans (distance_closing result pending).2 (by decide)
  | _ => simp [distance]

theorem distance_eq_zero_iff : w.distance = 0 ↔ w = .ended := by
  cases w with
  | closing result pending => simp [Nat.ne_of_gt (distance_closing result pending).1]
  | _ => simp [distance]

theorem WindsDown.distance_le (h : WindsDown job w w') : w'.distance ≤ w.distance - 1 := by
  cases h with
  | @stops m rest pending result => exact (distance_closing result pending).2
  | @acts next m rest pending w' hx =>
    rw [← hx (fun _ => false) #[]]
    cases job.program.execute (job.interpreter fun _ => false) next ⟨m, #[], rest⟩ with
    | next s => exact Nat.le_refl 3
    | ended r => exact Nat.le_succ_of_le (distance_closing r.result pending).2
  | drops hp => simp [distance, hp]
  | _ => simp [distance]

theorem isIdle_of_not_connected (hgone : c.connected = false) (hw : w ≠ .ended) : w.isIdle c = false := by
  cases w with
  | ended => exact absurd rfl hw
  | _ => simp [isIdle, hgone]

/-! ## How many instructions it completes -/

/-- How many instructions the machine has executed; a run that is over has none. -/
def steps? : Worker → Option Nat
  | .running m _ _ | .cleared _ m _ _ | .sending _ m _ _ => some m.steps
  | .closing _ _ | .ended => none

/-- The worker has executed at most one instruction more than `bound`, and not that one if it is still to be completed.
-/
def Within (bound : Option Nat) : Worker → Prop
  | .running m _ _ => ∃ a, bound = some a ∧ m.steps ≤ a + 1
  | .cleared _ m _ _ | .sending _ m _ _ => ∃ a, bound = some a ∧ m.steps ≤ a
  | .closing _ _ | .ended => True

theorem within_steps? (w : Worker) : w.Within w.steps? := by
  cases w with
  | running m rest pending => exact ⟨m.steps, rfl, Nat.le_succ _⟩
  | cleared next m rest pending => exact ⟨m.steps, rfl, Nat.le_refl _⟩
  | sending site m rest chunk => exact ⟨m.steps, rfl, Nat.le_refl _⟩
  | closing result pending => trivial
  | ended => trivial

theorem Within.steps?_le {bound : Option Nat} {b : Nat} (h : w.Within bound) (hb : w.steps? = some b) :
    ∃ a, bound = some a ∧ b ≤ a + 1 := by
  cases w with
  | running m rest pending =>
    cases hb
    exact h
  | cleared next m rest pending =>
    cases hb
    obtain ⟨a, ha, hle⟩ := h
    exact ⟨a, ha, by omega⟩
  | sending site m rest chunk =>
    cases hb
    obtain ⟨a, ha, hle⟩ := h
    exact ⟨a, ha, by omega⟩
  | closing result pending => cases hb
  | ended => cases hb

theorem within_ofTurn {bound : Option Nat} {next : Instruction} {m : Machine} {rest : List UInt8} {pending : Array UInt8}
    (h : (Worker.cleared next m rest pending).Within bound) (flag : Nat → Bool) (out : Array UInt8) :
    (ofTurn pending (job.program.execute (job.interpreter flag) next ⟨m, out, rest⟩)).Within bound := by
  obtain ⟨a, ha, hle⟩ := h
  cases hx : job.program.execute (job.interpreter flag) next ⟨m, out, rest⟩ with
  | next s =>
    have hsteps : s.machine.steps = m.steps + 1 := Program.steps_of_execute_next hx
    exact ⟨a, ha, by omega⟩
  | ended r => trivial

theorem WindsDown.within {bound : Option Nat} (h : WindsDown job w w') (hw : w.Within bound) : w'.Within bound := by
  cases h with
  | acts hx =>
    rw [← hx (fun _ => false) #[]]
    exact within_ofTurn hw _ _
  | fills => exact hw
  | _ => trivial

theorem Goes.within {bound : Option Nat} (g : Goes job c w after) (hcancellable : job.config.cancellable = true)
    (hflag : c.cancelled = true) (hw : w.Within bound) : after.1.Within bound := by
  have hone : ∀ {m : Machine}, (∃ a, bound = some a ∧ m.steps ≤ a) → ∃ a, bound = some a ∧ m.proceed.steps ≤ a + 1 :=
    fun ⟨a, ha, hle⟩ => ⟨a, ha, Nat.succ_le_succ hle⟩
  cases g with
  | @clears m rest pending next hi he =>
    -- this is where the flag matters: no further instruction is cleared
    obtain ⟨e, hstop⟩ := Config.exists_stop?_of_cancelled hcancellable m.steps (job.clock m.steps)
    rw [hflag, hstop] at he
    cases he
  | acts ho hx =>
    rw [← hx (fun _ => false) #[]]
    exact within_ofTurn hw _ _
  | fills => exact hw
  | sends => exact hone hw
  | keeps => exact hone hw
  | sendsChunk => exact hone hw
  | waits => exact hw
  | _ => trivial

end Worker

/-! ## Steps of a run that is given up -/

namespace BackgroundRun

variable {r : BackgroundRun} {listening : Bool} {bound : Option Nat}

/-- The flag of the run is up and the worker looks at it; the watcher may still be listening. -/
structure Flagged (listening : Bool) (r : BackgroundRun) : Prop where
  cancellable : r.job.config.cancellable = true
  cancelled : r.channel.cancelled = true
  connected : r.channel.connected = listening

theorem Flagged.work (h : r.Flagged listening) : r.work.Flagged listening := by
  obtain ⟨job, worker, channel⟩ := r
  obtain ⟨hcancellable, hflag, hconnected⟩ := h
  cases listening with
  | false =>
    obtain ⟨hchannel, -⟩ := Worker.step_windsDown hcancellable hflag hconnected worker
    exact ⟨hcancellable, (congrArg Channel.cancelled hchannel).trans hflag,
      (congrArg Channel.connected hchannel).trans hconnected⟩
  | true =>
    have hgoes := Worker.step_goes job worker hconnected
    show Flagged true ⟨job, (worker.step job channel).1, (worker.step job channel).2⟩
    generalize worker.step job channel = after at hgoes ⊢
    cases hgoes <;> exact ⟨hcancellable, hflag, hconnected⟩

theorem Flagged.within_work (h : r.Flagged listening) (hw : r.worker.Within bound) : r.work.worker.Within bound := by
  cases listening with
  | false => exact (Worker.step_windsDown h.cancellable h.cancelled h.connected r.worker).2.within hw
  | true => exact (Worker.step_goes r.job r.worker h.connected).within h.cancellable h.cancelled hw

theorem Flagged.workFor (h : r.Flagged listening) (hw : r.worker.Within bound) : ∀ n,
    (r.workFor n).Flagged listening ∧ (r.workFor n).worker.Within bound
  | 0 => ⟨h, hw⟩
  | n + 1 => by
    rw [workFor_succ]
    obtain ⟨hn, hwn⟩ := Flagged.workFor h hw n
    exact ⟨hn.work, hn.within_work hwn⟩

theorem Flagged.hangUp (h : r.Flagged listening) : r.hangUp.Flagged false := ⟨h.cancellable, rfl, rfl⟩

theorem Flagged.distance_work (h : r.Flagged false) : r.work.worker.distance ≤ r.worker.distance - 1 :=
  (Worker.step_windsDown h.cancellable h.cancelled h.connected r.worker).2.distance_le

/-- **Every step brings a run that is given up closer to its end.** -/
theorem Flagged.distance_workFor (h : r.Flagged false) : ∀ n, (r.workFor n).worker.distance ≤ r.worker.distance - n
  | 0 => Nat.le_refl _
  | n + 1 => by
    have hle := Flagged.distance_workFor h n
    have hstep := (h.workFor r.worker.within_steps? n).1.distance_work
    rw [workFor_succ]
    omega

/-! ## Giving up a run -/

/-- The run after the watcher has raised the flag, the worker has taken `k` steps, and the watcher has hung up. -/
def dropped (k : Nat) (r : BackgroundRun) : BackgroundRun := (r.cancel.workFor k).hangUp

/-- What comes of a run that is given up, however far its worker gets before the watcher is gone.  Until it has ended
the worker never waits, and each step brings it closer to its end.  As long as there is a machine, it has executed at
most one instruction since the watcher was gone, and even since the flag was raised.  After four steps the worker has
ended. -/
structure WindsUp (r : BackgroundRun) : Prop where
  never_blocked : ∀ k n, let s := (r.dropped k).workFor n
    s.worker ≠ .ended → s.worker.isIdle s.channel = false ∧ s.work.worker.distance < s.worker.distance
  last_instruction : ∀ k n b, ((r.dropped k).workFor n).worker.steps? = some b →
    ∃ a, (r.dropped k).worker.steps? = some a ∧ b ≤ a + 1
  last_instruction_flagged : ∀ k n b, ((r.dropped k).workFor n).worker.steps? = some b →
    ∃ a, r.worker.steps? = some a ∧ b ≤ a + 1
  ends : ∀ k n, 4 ≤ n → ((r.dropped k).workFor n).worker = .ended

theorem windsUp (hcancellable : r.job.config.cancellable = true) (hconnected : r.channel.connected = true) :
    r.WindsUp := by
  have hcancel : r.cancel.Flagged true := ⟨hcancellable, rfl, hconnected⟩
  -- the two phases: the flag is up and the watcher listens, then the watcher is gone
  have hdropped : ∀ k, (r.dropped k).Flagged false ∧ (r.dropped k).worker.Within r.worker.steps? := by
    intro k
    have hwithin : r.cancel.worker.Within r.worker.steps? := r.worker.within_steps?
    exact ⟨(hcancel.workFor hwithin k).1.hangUp, (hcancel.workFor hwithin k).2⟩
  refine ⟨fun k n hw => ?_, fun k n b hb => ?_, fun k n b hb => ?_, fun k n hn => ?_⟩
  · have hflagged := ((hdropped k).1.workFor (hdropped k).2 n).1
    have hstep := hflagged.distance_work
    have hpos := mt Worker.distance_eq_zero_iff.1 hw
    exact ⟨Worker.isIdle_of_not_connected hflagged.connected hw, by omega⟩
  · exact ((hdropped k).1.workFor (Worker.within_steps? _) n).2.steps?_le hb
  · exact ((hdropped k).1.workFor (hdropped k).2 n).2.steps?_le hb
  · have hle := (hdropped k).1.distance_workFor n
    have hfour := (r.dropped k).worker.distance_le_four
    exact Worker.distance_eq_zero_iff.1 (by omega)

end BackgroundRun

theorem History.Reachable.exists_workFor {source : String} {input : List UInt8} {config : Config} {clock : Nat → Nat}
    {h : History} (hr : Reachable source input config clock h) : ∀ n,
    ∃ h', Reachable source input config clock h' ∧ h'.run = h.run.workFor n
  | 0 => ⟨h, hr, rfl⟩
  | n + 1 => by
    obtain ⟨h', hr', hrun⟩ := hr.exists_workFor n
    refine ⟨_, hr'.step .work, ?_⟩
    rw [BackgroundRun.workFor_succ, hrun]

/-- **Giving up a run never hangs.**  From every state that a run can come to, and in particular from the state of the
run of a console at any time, the worker of a run that is given up never waits again, completes at most one further
instruction, and ends within four steps.  So a run that takes the place of another does not wait for it for ever. -/
theorem dropped_run_ends :
    (∀ source input config clock h, History.Reachable source input config clock h → h.run.WindsUp) ∧
    ∀ source config clock ms r, (Session.after source config clock ms).app.run = some r → r.WindsUp := by
  have hreachable : ∀ (l : Launch) (h : History), l.Reachable h → h.run.WindsUp := by
    intro l h hr
    refine BackgroundRun.windsUp ?_ hr.tracked.connected
    rw [hr.tracked.job_eq, l.config_job]
  refine ⟨fun source input config clock h hr => hreachable ⟨source, input, config, clock, false⟩ h hr, ?_⟩
  intro source config clock ms r hrun
  cases (Session.valid_after source config clock ms).stands with
  | idle _ hnone _ _ =>
    rw [hnone] at hrun
    cases hrun
  | ended ho =>
    rw [ho.run_eq] at hrun
    cases hrun
  | @running l h hr =>
    rw [hr.run_eq] at hrun
    cases hrun
    exact hreachable l h hr.reachable

/-- The channel is full when the last of 65 bytes is to be sent: the worker waits, and ends when it is given up. -/
theorem dropped_run_ends_full_channel :
    let source := String.ofList (List.replicate 65 '.')
    ∃ h, History.Reachable source [] { tape := .fixed 1 } (fun _ => 0) h ∧ h.run.worker.isIdle h.run.channel = true ∧
      h.run.worker.pending = #[0] ∧ h.run.WindsUp ∧ ((h.run.dropped 1).workFor 4).worker = .ended := by
  intro source
  have hstart : History.Reachable source [] { tape := .fixed 1 } (fun _ => 0) _ := .start
  obtain ⟨h, hr, hrun⟩ := hstart.exists_workFor 131
  have hends := dropped_run_ends.1 source [] { tape := .fixed 1 } (fun _ => 0) h hr
  refine ⟨h, hr, ?_, ?_, hends, hends.ends 1 4 (Nat.le_refl 4)⟩
  · rw [hrun]
    decide +kernel
  · rw [hrun]
    decide +kernel

end Brainfuck
