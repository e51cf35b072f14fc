import Brainfuck.Proofs.Session
/-!
# The controls of the console

Five fields decide how a console goes on: whether a run is in progress, how the last run stands, which pane has the
focus, whether the input text is being edited, and whether to quit (`Controls`).  `Controls.Step` lists all that can
happen to them, and every move is one of these steps (`App.perform_step`), whatever the run in progress has sent.  What
holds of the controls at all times is read off that list: a console says that it is running exactly while it has a run,
and only the input pane is edited (`Controls.Sound`).
-/
namespace Brainfuck

structure Controls where
  /-- Whether there is a run in progress. -/
  busy : Bool
  state : RunState
  focus : Pane
  editing : Bool
  quit : Bool
  deriving DecidableEq, Repr

namespace Controls

/-- All that can happen to the controls at once. -/
inductive Step (c : Controls) : Controls → Prop where
  | stay : Step c c
  | start (tenths : Nat) : Step c { c with busy := true, state := .running tenths }
  | finish (result : Except RunError Stats) : Step c { c with busy := false, state := .ofResult result }
  | edit : Step c { c with editing := true, focus := .input }
  | leave : Step c { c with editing := false }
  | shift (he : c.editing = false) (focus : Pane) : Step c { c with focus }
  | quit : Step c { c with quit := true }

structure Sound (c : Controls) : Prop where
  busy_iff : c.busy = true ↔ ∃ tenths, c.state = .running tenths
  focus_eq : c.editing = true → c.focus = .input

theorem Sound.step {c c' : Controls} (h : c.Sound) (hs : c.Step c') : c'.Sound := by
  cases hs with
  | stay => exact h
  | start tenths => exact ⟨iff_of_true rfl ⟨tenths, rfl⟩, h.focus_eq⟩
  | finish result =>
    refine ⟨iff_of_false Bool.false_ne_true ?_, h.focus_eq⟩
    rintro ⟨tenths, hrunning⟩
    exact RunState.ofResult_ne_running result tenths hrunning
  | edit => exact ⟨h.busy_iff, fun _ => rfl⟩
  | leave => exact ⟨h.busy_iff, nofun⟩
  | shift he focus =>
    refine ⟨h.busy_iff, fun hediting => ?_⟩
    rw [show c.editing = true from hediting] at he
    cases he
  | quit => exact ⟨h.busy_iff, h.focus_eq⟩

theorem Step.of_eq {c c' : Controls} (h : c' = c) : c.Step c' := h ▸ .stay

theorem Step.quit_of_quit {c c' : Controls} (hs : c.Step c') (hq : c.quit = true) : c'.quit = true := by
  cases hs with
  | quit => rfl
  | _ => exact hq

end Controls

namespace App

def controls (a : App) : Controls := ⟨a.run.isSome, a.state, a.focus, a.editing, a.quit⟩

theorem sound_new (source : String) (config : Config) (clock : Nat → Nat) : (new source config clock).controls.Sound :=
  ⟨iff_of_false Bool.false_ne_true nofun, nofun⟩

/-! ## Every move is a step -/

theorem edit_step (a : App) (key : Key) : a.controls.Step (a.edit key).controls := by
  cases key with
  | enter => exact .leave
  | escape => exact .leave
  | _ => exact .stay

theorem startRun_step (a : App) : a.controls.Step a.startRun.controls := by
  unfold startRun
  by_cases hc : isOnlyComment a.source = true
  · rw [if_pos hc]
    exact .stay
  · rw [if_neg hc]
    exact .start 0

theorem controls_cancelRun (a : App) : a.cancelRun.controls = a.controls := by
  unfold cancelRun
  cases hr : a.run <;> simp [controls, hr]

theorem controls_clearOutput (a : App) : a.clearOutput.controls = a.controls := by
  unfold clearOutput
  cases hr : a.run <;> simp [controls, hr]

theorem controls_advanceRun (a : App) (fuel : Nat) : (a.advanceRun fuel).controls = a.controls := by
  unfold advanceRun
  cases hr : a.run <;> simp [controls, hr]

theorem scroll_step (a : App) (move : Nat → Nat) : a.controls.Step (a.scroll move).controls := by
  unfold scroll
  split <;> exact .stay

theorem command_step (a : App) (key : Key) (he : a.editing = false) : a.controls.Step (a.command key).controls := by
  unfold command
  split
  · exact .quit
  · exact .quit
  · exact startRun_step a
  · exact startRun_step a
  · exact .of_eq (controls_cancelRun a)
  · exact .edit
  · exact .stay
  · exact .of_eq (controls_clearOutput a)
  · exact .shift he a.focus.next
  · exact scroll_step a Scroll.up
  · exact scroll_step a Scroll.down
  · exact .stay

theorem controls_takeEvent (acc : App × Option (Except RunError Stats)) (e : Event) :
    (takeEvent acc e).1.controls = acc.1.controls := by
  cases e <;> rfl

theorem controls_takeEvents (events : List Event) (acc : App × Option (Except RunError Stats)) :
    (events.foldl takeEvent acc).1.controls = acc.1.controls :=
  List.foldlRecOn events takeEvent (motive := fun later => later.1.controls = acc.1.controls) rfl
    (fun later h e _ => (controls_takeEvent later e).trans h)

theorem takeBatch_step {a : App} (hrun : a.run.isSome = true) (events : List Event) (r : BackgroundRun) :
    a.controls.Step (a.takeBatch events r).controls := by
  -- whatever the batch holds, taking it changes no control; only a result in it does
  have hbatch := controls_takeEvents events ({ a with run := some r }, none)
  have hsame : controls { a with run := some r } = a.controls := by simp [controls, hrun]
  rw [hsame] at hbatch
  generalize hfold : events.foldl takeEvent ({ a with run := some r }, none) = acc at hbatch
  obtain ⟨a', result?⟩ := acc
  rw [Session.takeBatch_eq hfold]
  cases result? with
  | none => exact .of_eq hbatch
  | some result =>
    have hfinish : (finishRun { a' with run := none } result).controls =
        { a'.controls with busy := false, state := .ofResult result } := by
      cases result <;> rfl
    rw [Option.elim_some, hfinish, hbatch]
    exact .finish result

theorem poll_step (a : App) (pauses : List Nat) : a.controls.Step (a.poll pauses).controls := by
  cases hr : a.run with
  | none =>
    rw [Session.poll_of_none hr]
    exact .stay
  | some r =>
    rw [Session.poll_of_run hr]
    exact takeBatch_step (by rw [hr]; rfl) _ _

/-- **All that can happen to the controls.** -/
theorem perform_step (a : App) (m : Move) : a.controls.Step (a.perform m).controls := by
  cases m with
  | press key =>
    show a.controls.Step (a.press key).controls
    unfold press
    by_cases he : a.editing = true
    · rw [if_pos he]
      exact edit_step a key
    · rw [if_neg he]
      exact command_step a key (Bool.eq_false_iff.2 he)
  | load source => exact .stay
  | work => exact .of_eq (controls_advanceRun a 1)
  | poll pauses => exact poll_step a pauses
  | draw width height => exact .stay

/-! ## What holds at all times -/

theorem sound_perform_all {a : App} (h : a.controls.Sound) (ms : List Move) :
    (ms.foldl perform a).controls.Sound :=
  List.foldlRecOn ms perform (motive := fun a => a.controls.Sound) h (fun a h m _ => h.step (perform_step a m))

theorem quit_perform_all {a : App} (h : a.quit = true) (ms : List Move) : (ms.foldl perform a).quit = true :=
  List.foldlRecOn ms perform (motive := fun a => a.quit = true) h
    (fun a h m _ => (perform_step a m).quit_of_quit h)

theorem fault?_eq_some_iff {a : App} {l : Location} :
    a.fault? = some l ↔ ∃ e, a.state = .failed e ∧ e.location? = some l := by
  unfold fault?
  cases a.state <;> simp

theorem press_of_editing {a : App} (he : a.editing = true) (key : Key) :
    ∃ input editing status, a.press key = { a with input, editing, status } := by
  unfold press
  rw [if_pos he]
  cases key <;> exact ⟨_, _, _, rfl⟩

/-- **What holds of a console at all times**, however keys, new source texts, polls, frames and steps of the worker
follow each other.  It says that it is running exactly while it has a run; only the input pane is edited; what is
marked in the source is the place of the error of a run that failed; and once it is to quit it stays so.  While the
input text is being edited a key changes the text, the status and whether it still is, and nothing else, so it neither
starts nor stops a run.  A run that is started on a text without instructions changes the status and nothing else. -/
theorem controls_at_all_times (source : String) (config : Config) (clock : Nat → Nat) (ms : List Move) :
    let a := ms.foldl perform (new source config clock)
    (a.run.isSome = true ↔ ∃ tenths, a.state = .running tenths) ∧
    (a.editing = true → a.focus = .input) ∧
    (∀ l, a.fault? = some l ↔ ∃ e, a.state = .failed e ∧ e.location? = some l) ∧
    (a.quit = true → ∀ later : List Move, (later.foldl perform a).quit = true) ∧
    (a.editing = true → ∀ key, ∃ input editing status, a.press key = { a with input, editing, status }) ∧
    ((∀ c ∈ a.source.toList, Op.ofChar? c = none) → ∃ status, a.startRun = { a with status }) := by
  intro a
  have hsound : a.controls.Sound := sound_perform_all (sound_new source config clock) ms
  refine ⟨hsound.busy_iff, hsound.focus_eq, fun l => fault?_eq_some_iff, quit_perform_all, press_of_editing, ?_⟩
  intro hcomment
  have hc : isOnlyComment a.source = true := by simpa [isOnlyComment] using hcomment
  refine ⟨"Nothing to run", ?_⟩
  unfold startRun
  rw [if_pos hc]

/-- A run goes on while `q` and `r` are typed into the input text, and while a text without instructions is loaded and
started. -/
theorem controls_at_all_times_typing :
    let ms : List Move := [.press (.char 'r'), .press (.char 'i'), .press (.char 'q'), .load "words"]
    let a := ms.foldl perform (new "+[.]" {} (fun _ => 0))
    a.run.isSome = true ∧ a.state = .running 0 ∧ a.editing = true ∧ a.focus = .input ∧ a.input = "q" ∧
      (∃ input editing status, a.press (.char 'r') = { a with input, editing, status }) ∧
      ∃ status, a.startRun = { a with status } := by
  intro ms a
  have h := controls_at_all_times "+[.]" {} (fun _ => 0) ms
  have hstate : a.state = .running 0 := by decide
  have hediting : a.editing = true := by decide
  have hinput : a.input = "q" := by decide
  have hcomment : ∀ c ∈ a.source.toList, Op.ofChar? c = none := by
    have hall : a.source.toList.all (fun c => Op.ofChar? c = none) = true := by decide
    simpa [List.all_eq_true] using hall
  exact ⟨h.1.2 ⟨0, hstate⟩, hstate, hediting, h.2.1 hediting, hinput, h.2.2.2.2.1 hediting (.char 'r'),
    h.2.2.2.2.2 hcomment⟩

end App

end Brainfuck
