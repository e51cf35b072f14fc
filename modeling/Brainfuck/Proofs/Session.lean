import Brainfuck.Console.Frame
import Brainfuck.Proofs.Launch
import Brainfuck.Proofs.Retention
import Brainfuck.Proofs.Schedules
/-!
# What the console shows

A session is a console together with what its latest run was started on.  Keys, new source texts, polls, frames and
steps of the worker come in any order, and the worker takes steps within a poll too.  Of all that can happen
(`Session.Happens`) only a poll brings anything from a run, and it brings it from the run that was started last: the
output is the beginning of what the interpreter emits for that run, and the state and the status tell its result or none
(`Session.Genuine`).  When a poll ends the run, all its bytes are there (`Session.after_shows_latest_run`).
-/
namespace Brainfuck

/-- How the last run stands once it has ended so. -/
def RunState.ofResult : Except RunError Stats → RunState
  | .ok stats => .finished stats
  | .error e => .failed e

theorem RunState.ofResult_ne_running (result : Except RunError Stats) (tenths : Nat) :
    RunState.ofResult result ≠ .running tenths := by
  cases result <;> exact nofun

theorem RunState.ofResult_injective {result result' : Except RunError Stats} (h : ofResult result = ofResult result') :
    result = result' := by
  cases result <;> cases result' <;> cases h <;> rfl

namespace App

/-- The status after a run that ended so with `total` bytes of output; `source` is the text at that time. -/
def verdict (source : String) (total : Nat) : Except RunError Stats → String
  | .ok stats => s!"Execution completed: {total} bytes output, {stats.cellsTouched} cells used"
  | .error e => failureStatus source e

/-- A status that tells nothing of the output or the result of a run. -/
inductive Notice : String → Prop where
  | ready : Notice "Ready! Press r to run."
  | nothing : Notice "Nothing to run"
  | running : Notice "Running..."
  | stopping : Notice "Stopping..."
  | editing : Notice "Editing input"
  | input (bytes : Nat) : Notice s!"Input set ({bytes} bytes)"
  | decoding (d : Decoding) : Notice s!"Showing output as {d.label}"
  | cleared : Notice "Output cleared"

/-- The console as it would be if no run had ever been started. -/
def forget (a : App) : App :=
  { a with output := a.output.clear, outputScroll := 0, run := none, state := .idle, status := "" }

end App

/-- A console, and what its latest run was started on, if any was. -/
structure Session where
  app : App
  launch : Option Launch := none

namespace Session

/-- What the latest run was started on after a key: one that starts a run changes it, and escape counts as a request to
stop, both only while no text is being edited. -/
def track (a : App) (latest : Option Launch) (key : Key) : Option Launch :=
  if a.editing then latest
  else if key = .char 'r' ∨ key = .char 'R' then
    if isOnlyComment a.source then latest else some ⟨a.source, a.input.toUTF8.toList, a.config, a.clock, false⟩
  else if key = .escape then latest.map .escape
  else latest

def next (s : Session) (m : App.Move) : Session where
  app := s.app.perform m
  launch :=
    match m with
    | .press key => track s.app s.launch key
    | .load _ | .work | .poll _ | .draw _ _ => s.launch

/-- A session after some moves. -/
def after (source : String) (config : Config) (clock : Nat → Nat) (ms : List App.Move) : Session :=
  ms.foldl next { app := .new source config clock }

/-! ## What can happen -/

/-- Nothing that a run has to do with has changed. -/
structure Quiet (a a' : App) : Prop where
  run_eq : a'.run = a.run
  output_eq : a'.output = a.output
  state_eq : a'.state = a.state
  status : a'.status = a.status ∨ App.Notice a'.status

/-- All that can happen to a session, as far as runs are concerned. -/
inductive Happens (s : Session) : Session → Prop where
  | quiet {a : App} (hq : Quiet s.app a) : Happens s ⟨a, s.launch⟩
  | starts (hs : isOnlyComment s.app.source = false) :
      Happens s ⟨s.app.startRun,
        some ⟨s.app.source, s.app.input.toUTF8.toList, s.app.config, s.app.clock, false⟩⟩
  | cancels : Happens s ⟨s.app.cancelRun, s.launch.map .escape⟩
  | clears : Happens s ⟨s.app.clearOutput, s.launch⟩
  | works : Happens s ⟨s.app.advanceRun 1, s.launch⟩
  | polls (pauses : List Nat) : Happens s ⟨s.app.poll pauses, s.launch⟩

theorem quiet_edit (a : App) (key : Key) : Quiet a (a.edit key) := by
  cases key with
  | enter => exact ⟨rfl, rfl, rfl, .inr (.input _)⟩
  | escape => exact ⟨rfl, rfl, rfl, .inr (.input _)⟩
  | _ => exact ⟨rfl, rfl, rfl, .inl rfl⟩

theorem quiet_scroll (a : App) (move : Nat → Nat) : Quiet a (a.scroll move) := by
  unfold App.scroll
  split <;> exact ⟨rfl, rfl, rfl, .inl rfl⟩

theorem happens_start (s : Session) : Happens s ⟨s.app.startRun, if isOnlyComment s.app.source then s.launch
    else some ⟨s.app.source, s.app.input.toUTF8.toList, s.app.config, s.app.clock, false⟩⟩ := by
  cases hc : isOnlyComment s.app.source with
  | true =>
    refine .quiet ?_
    unfold App.startRun
    rw [if_pos hc]
    exact ⟨rfl, rfl, rfl, .inr .nothing⟩
  | false => exact .starts hc

theorem quiet_command (a : App) {key : Key} (hr : ¬ (key = .char 'r' ∨ key = .char 'R')) (he : key ≠ .escape)
    (hc : key ≠ .char 'c') : Quiet a (a.command key) := by
  unfold App.command
  split
  · exact ⟨rfl, rfl, rfl, .inl rfl⟩
  · exact ⟨rfl, rfl, rfl, .inl rfl⟩
  · exact absurd (.inl rfl) hr
  · exact absurd (.inr rfl) hr
  · exact absurd rfl he
  · exact ⟨rfl, rfl, rfl, .inr .editing⟩
  · exact ⟨rfl, rfl, rfl, .inr (.decoding _)⟩
  · exact absurd rfl hc
  · exact ⟨rfl, rfl, rfl, .inl rfl⟩
  · exact quiet_scroll a Scroll.up
  · exact quiet_scroll a Scroll.down
  · exact ⟨rfl, rfl, rfl, .inl rfl⟩

theorem happens_command (s : Session) (key : Key) (he : s.app.editing = false) :
    Happens s ⟨s.app.command key, track s.app s.launch key⟩ := by
  unfold track
  rw [he, if_neg Bool.false_ne_true]
  by_cases hr : key = .char 'r' ∨ key = .char 'R'
  · have hstart : s.app.command key = s.app.startRun := by rcases hr with rfl | rfl <;> rfl
    rw [if_pos hr, hstart]
    exact happens_start s
  rw [if_neg hr]
  by_cases hesc : key = .escape
  · subst hesc
    exact .cancels
  rw [if_neg hesc]
  by_cases hc : key = .char 'c'
  · subst hc
    exact .clears
  · exact .quiet (quiet_command s.app hr hesc hc)

theorem next_happens (s : Session) (m : App.Move) : s.Happens (s.next m) := by
  cases m with
  | press key =>
    show Happens s ⟨s.app.press key, track s.app s.launch key⟩
    unfold App.press
    by_cases he : s.app.editing = true
    · rw [if_pos he, track, if_pos he]
      exact .quiet (quiet_edit s.app key)
    · rw [if_neg he]
      exact happens_command s key (Bool.eq_false_iff.2 he)
  | load source => exact .quiet ⟨rfl, rfl, rfl, .inl rfl⟩
  | work => exact .works
  | poll pauses => exact .polls pauses
  | draw width height => exact .quiet ⟨rfl, rfl, rfl, .inl rfl⟩

/-! ## What is shown -/

/-- The output of a console shows these bytes. -/
structure Shows (b : OutputBuffer) (bytes : List UInt8) : Prop where
  keeps : b.Keeps bytes
  limit_eq : b.limit = some App.retainedBytes

theorem Shows.clear {b : OutputBuffer} {bytes : List UInt8} (h : Shows b bytes) : Shows b.clear [] :=
  ⟨h.keeps.clear, h.limit_eq⟩

theorem Shows.extend {b : OutputBuffer} {bytes : List UInt8} (h : Shows b bytes) (more : List UInt8) :
    Shows (b.extend more) (bytes ++ more) :=
  ⟨h.keeps.perform (.extend more), (OutputBuffer.limit_perform b (.extend more)).trans h.limit_eq⟩

/-- What the console takes in while its run goes on is added to the output and changes nothing else that a run has to do
with. -/
theorem takeOutput_all : ∀ (chunks : List (Array UInt8)) {a : App} {bytes : List UInt8}, Shows a.output bytes →
    let a' := chunks.foldl App.takeOutput a
    Shows a'.output (bytes ++ (chunks.map Event.output).flatMap Event.bytes) ∧ a'.run = a.run ∧ a'.state = a.state ∧
      a'.status = a.status ∧ a'.source = a.source
  | [], a, bytes, h => by
    rw [List.map_nil, List.flatMap_nil, List.append_nil]
    exact ⟨h, rfl, rfl, rfl, rfl⟩
  | chunk :: chunks, a, bytes, h => by
    have hrest := takeOutput_all chunks (a := a.takeOutput chunk) (h.extend chunk.toList)
    rw [List.append_assoc] at hrest
    exact hrest

theorem foldl_takeEvent_output (chunks : List (Array UInt8)) (a : App) (result : Option (Except RunError Stats)) :
    (chunks.map Event.output).foldl App.takeEvent (a, result) = (chunks.foldl App.takeOutput a, result) := by
  induction chunks generalizing a with
  | nil => rfl
  | cons chunk chunks ih => exact ih (a.takeOutput chunk)

/-! ## How the latest run stands -/

/-- The run that was started last goes on.  What was taken from it is what the output shows, and its result was not
taken. -/
structure Running (s : Session) (l : Launch) (h : History) : Prop where
  launch_eq : s.launch = some l
  reachable : l.Reachable h
  run_eq : s.app.run = some h.run
  state_eq : ∃ tenths, s.app.state = .running tenths
  output : Shows s.app.output (h.taken.flatMap Event.bytes)
  outputs : ∃ chunks : List (Array UInt8), h.taken = chunks.map .output
  escaped : h.run.channel.cancelled = true → l.escaped = true

/-- The run that was started last has ended, and its output is shown unless it was cleared since. -/
structure Over (s : Session) (l : Launch) (result : Except RunError Stats) (out : Array UInt8) : Prop where
  launch_eq : s.launch = some l
  gives : l.Gives result out
  emits : l.Emits out.toList
  run_eq : s.app.run = none
  state_eq : s.app.state = .ofResult result
  output : Shows s.app.output out.toList ∨ Shows s.app.output []

/-- How the latest run of a session stands. -/
inductive Stands (s : Session) : Prop where
  | idle (hl : s.launch = none) (hr : s.app.run = none) (hs : s.app.state = .idle) (ho : Shows s.app.output [])
  | running {l : Launch} {h : History} (hr : s.Running l h)
  | ended {l : Launch} {result : Except RunError Stats} {out : Array UInt8} (ho : s.Over l result out)

theorem stands_new (source : String) (config : Config) (clock : Nat → Nat) :
    Stands { app := .new source config clock } :=
  .idle rfl rfl rfl ⟨OutputBuffer.keeps_fresh (some App.retainedBytes), rfl⟩

theorem Stands.quiet {s : Session} {a : App} (h : s.Stands) (q : Quiet s.app a) : Stands ⟨a, s.launch⟩ := by
  cases h with
  | idle hl hr hs ho =>
    exact .idle hl (q.run_eq.trans hr) (q.state_eq.trans hs) (by rw [q.output_eq]; exact ho)
  | running r =>
    refine .running ⟨r.launch_eq, r.reachable, q.run_eq.trans r.run_eq, ?_, ?_, r.outputs, r.escaped⟩
    · rw [q.state_eq]
      exact r.state_eq
    · rw [q.output_eq]
      exact r.output
  | ended o =>
    refine .ended ⟨o.launch_eq, o.gives, o.emits, q.run_eq.trans o.run_eq, q.state_eq.trans o.state_eq, ?_⟩
    rw [q.output_eq]
    exact o.output

theorem Stands.shows {s : Session} (h : s.Stands) : ∃ bytes, Shows s.app.output bytes := by
  cases h with
  | idle _ _ _ ho => exact ⟨_, ho⟩
  | running r => exact ⟨_, r.output⟩
  | ended o => exact o.output.elim (fun h => ⟨_, h⟩) (fun h => ⟨_, h⟩)

theorem startRun_of_not_comment {a : App} (hs : isOnlyComment a.source = false) : a.startRun =
    { a with
      output := a.output.clear, outputScroll := 0
      run := some (.start a.source a.input.toUTF8.toList a.config a.clock)
      state := .running 0, status := "Running..." } := by
  unfold App.startRun
  rw [if_neg (by rw [hs]; exact Bool.false_ne_true)]

theorem Stands.starts {s : Session} (h : s.Stands) (hs : isOnlyComment s.app.source = false) :
    Stands ⟨s.app.startRun, some ⟨s.app.source, s.app.input.toUTF8.toList, s.app.config, s.app.clock, false⟩⟩ := by
  obtain ⟨bytes, hshows⟩ := h.shows
  rw [startRun_of_not_comment hs]
  have hstart : Channel.cancelled (BackgroundRun.start s.app.source s.app.input.toUTF8.toList s.app.config
      s.app.clock).channel = false := by
    unfold BackgroundRun.start
    rfl
  refine .running (h := ⟨.start _ _ _ _, [], []⟩) ⟨rfl, .start, rfl, ⟨0, rfl⟩, hshows.clear, ⟨[], rfl⟩, ?_⟩
  intro hc
  rw [hstart] at hc
  cases hc

theorem Over.escape {s : Session} {l : Launch} {result : Except RunError Stats} {out : Array UInt8}
    (o : s.Over l result out) : Over ⟨s.app, s.launch.map .escape⟩ l.escape result out := by
  refine ⟨?_, o.gives.escape, o.emits, o.run_eq, o.state_eq, o.output⟩
  rw [o.launch_eq]
  rfl

theorem Stands.cancels {s : Session} (h : s.Stands) : Stands ⟨s.app.cancelRun, s.launch.map .escape⟩ := by
  unfold App.cancelRun
  cases h with
  | idle hl hr hs ho =>
    rw [hr, hl]
    exact .idle rfl hr hs ho
  | @running l h r =>
    rw [r.run_eq]
    refine .running (l := l.escape) (h := { h with run := h.run.cancel })
      ⟨?_, r.reachable.step .cancel, rfl, r.state_eq, r.output, r.outputs, fun _ => rfl⟩
    rw [r.launch_eq]
    rfl
  | ended o =>
    rw [o.run_eq]
    exact .ended o.escape

theorem Stands.clears {s : Session} (h : s.Stands) : Stands ⟨s.app.clearOutput, s.launch⟩ := by
  unfold App.clearOutput
  cases h with
  | idle hl hr hs ho =>
    rw [hr]
    exact .idle hl rfl hs ho.clear
  | running r =>
    rw [r.run_eq]
    exact .running ⟨r.launch_eq, r.reachable, r.run_eq, r.state_eq, r.output, r.outputs, r.escaped⟩
  | ended o =>
    rw [o.run_eq]
    refine .ended ⟨o.launch_eq, o.gives, o.emits, rfl, o.state_eq, .inr ?_⟩
    rcases o.output with h | h
    · exact h.clear
    · exact h.clear

/-! ## The run goes on -/

theorem Running.works {s : Session} {l : Launch} {h : History} (r : s.Running l h) :
    ∃ h', Running ⟨s.app.advanceRun 1, s.launch⟩ l h' := by
  have hmoves : ∀ m ∈ [Move.work], m = .work ∨ m = .receive := by simp
  obtain ⟨h', hreach, hrun, htaken, hcancelled⟩ := History.Reachable.performAll r.reachable hmoves
  have htaken' : h'.taken = h.taken := htaken.trans (List.append_nil _)
  have hadvance : s.app.advanceRun 1 = { s.app with run := some h'.run } := by
    rw [App.advanceRun_eq, r.run_eq, hrun]
    rfl
  have houtput : Shows s.app.output (h'.taken.flatMap Event.bytes) := by
    rw [htaken']
    exact r.output
  have houtputs : ∃ chunks : List (Array UInt8), h'.taken = chunks.map .output := by
    rw [htaken']
    exact r.outputs
  rw [hadvance]
  exact ⟨h', r.launch_eq, hreach, rfl, r.state_eq, houtput, houtputs, fun hc => r.escaped (hcancelled ▸ hc)⟩

theorem Stands.works {s : Session} (h : s.Stands) : Stands ⟨s.app.advanceRun 1, s.launch⟩ := by
  cases h with
  | idle hl hr hs ho =>
    unfold App.advanceRun
    rw [hr]
    exact .idle hl hr hs ho
  | running r =>
    obtain ⟨h', r'⟩ := r.works
    exact .running r'
  | ended o =>
    unfold App.advanceRun
    rw [o.run_eq]
    exact .ended ⟨o.launch_eq, o.gives, o.emits, o.run_eq, o.state_eq, o.output⟩

/-! ## A poll -/

theorem finishRun_eq (a : App) (result : Except RunError Stats) :
    (a.finishRun result).run = a.run ∧ (a.finishRun result).output = a.output ∧
      (a.finishRun result).state = .ofResult result ∧
      (a.finishRun result).status = App.verdict a.source a.output.total result := by
  cases result <;> exact ⟨rfl, rfl, rfl, rfl⟩

theorem poll_of_run {a : App} {r : BackgroundRun} (hr : a.run = some r) (pauses : List Nat) :
    a.poll pauses = a.takeBatch (r.drain pauses).1 (r.drain pauses).2 := by
  unfold App.poll
  rw [hr]

theorem takeBatch_eq {a a' : App} {events : List Event} {r : BackgroundRun} {result? : Option (Except RunError Stats)}
    (hfold : events.foldl App.takeEvent ({ a with run := some r }, none) = (a', result?)) :
    a.takeBatch events r = result?.elim a' (fun result => { a' with run := none }.finishRun result) := by
  unfold App.takeBatch
  rw [hfold]
  cases result? <;> rfl

/-- A batch that holds only output adds it to what is shown. -/
theorem takeBatch_of_outputs {a : App} {bytes : List UInt8} (batch : List (Array UInt8)) (r : BackgroundRun)
    (hs : Shows a.output bytes) :
    let a' := a.takeBatch (batch.map .output) r
    Shows a'.output (bytes ++ (batch.map Event.output).flatMap Event.bytes) ∧ a'.run = some r ∧ a'.state = a.state ∧
      a'.status = a.status := by
  intro a'
  obtain ⟨hshows, hrun, hstate, hstatus, -⟩ := takeOutput_all batch (a := { a with run := some r }) hs
  have heq : a' = batch.foldl App.takeOutput { a with run := some r } :=
    takeBatch_eq (foldl_takeEvent_output batch _ none)
  rw [heq]
  exact ⟨hshows, hrun, hstate, hstatus⟩

/-- A batch that ends with the result adds the output before it and tells the result. -/
theorem takeBatch_of_finished {a : App} {bytes : List UInt8} (batch : List (Array UInt8))
    (result : Except RunError Stats) (r : BackgroundRun) (hs : Shows a.output bytes) :
    let events := batch.map Event.output ++ [.finished result]
    let a' := a.takeBatch events r
    Shows a'.output (bytes ++ events.flatMap Event.bytes) ∧ a'.run = none ∧ a'.state = .ofResult result ∧
      a'.status = App.verdict a.source a'.output.total result := by
  intro events a'
  have hfold : events.foldl App.takeEvent ({ a with run := some r }, none) =
      (batch.foldl App.takeOutput { a with run := some r }, some result) := by
    rw [List.foldl_append, foldl_takeEvent_output batch _ none]
    rfl
  have hbytes : events.flatMap Event.bytes = (batch.map Event.output).flatMap Event.bytes := by
    rw [List.flatMap_append, List.flatMap_singleton, Event.bytes, List.append_nil]
  obtain ⟨hshows, -, -, -, hsource⟩ := takeOutput_all batch (a := { a with run := some r }) hs
  have heq : a' = { batch.foldl App.takeOutput { a with run := some r } with run := none }.finishRun result :=
    takeBatch_eq hfold
  rw [hbytes, heq]
  generalize batch.foldl App.takeOutput { a with run := some r } = later at hshows hsource
  obtain ⟨hrun, hout, hstate, hstatus⟩ := finishRun_eq { later with run := none } result
  rw [hout]
  refine ⟨hshows, hrun, hstate, hstatus.trans ?_⟩
  rw [hsource]

/-- What comes before the result is output. -/
theorem last_batch {before chunks : List (Array UInt8)} {events : List Event} {result : Except RunError Stats}
    (h : before.map .output ++ events = chunks.map .output ++ [.finished result]) :
    ∃ batch : List (Array UInt8), events = batch.map .output ++ [.finished result] := by
  rcases List.append_eq_append_iff.1 h with ⟨mid, hchunks, hevents⟩ | ⟨mid, hbefore, hlast⟩
  · obtain ⟨-, batch, -, -, hbatch⟩ := List.map_eq_append_iff.1 hchunks
    exact ⟨batch, by rw [hevents, hbatch]⟩
  · cases mid with
    | nil => exact ⟨[], hlast.symm⟩
    | cons e mid =>
      obtain ⟨-, rest, -, -, hrest⟩ := List.map_eq_append_iff.1 hbefore
      obtain ⟨rfl, -⟩ := List.cons.inj hlast
      cases rest <;> cases hrest

/-- **What a poll brings** while a run goes on: some more output, or the rest of it and the result. -/
theorem Running.polls {s : Session} {l : Launch} {h : History} (r : s.Running l h) (pauses : List Nat) :
    (∃ h', Running ⟨s.app.poll pauses, s.launch⟩ l h' ∧ (s.app.poll pauses).status = s.app.status) ∨
      ∃ result out, Over ⟨s.app.poll pauses, s.launch⟩ l result out ∧ Shows (s.app.poll pauses).output out.toList ∧
        (s.app.poll pauses).status = App.verdict s.app.source out.size result := by
  obtain ⟨h', hreach, hrun', htaken', hcancelled⟩ := History.Reachable.drain r.reachable pauses
  have hesc : h'.run.channel.cancelled = true → l.escaped = true := fun hc => r.escaped (hcancelled ▸ hc)
  have hpoll := poll_of_run r.run_eq pauses
  rw [← hrun'] at hpoll
  obtain ⟨before, hbefore⟩ := r.outputs
  have htaken : h'.taken = before.map .output ++ (h.run.drain pauses).1 := by rw [htaken', hbefore]
  have hbytes : h'.taken.flatMap Event.bytes =
      h.taken.flatMap Event.bytes ++ (h.run.drain pauses).1.flatMap Event.bytes := by
    rw [htaken', List.flatMap_append]
  rcases Launch.Reachable.taken_cases hreach hesc with ⟨chunks, hchunks⟩ | ⟨chunks, result, hchunks, hgives⟩
  · -- all that was ever taken is output, so this batch is
    obtain ⟨-, batch, -, -, hbatch⟩ := List.map_eq_append_iff.1 (hchunks.symm.trans htaken)
    obtain ⟨hshows, hrun, hstate, hstatus⟩ := takeBatch_of_outputs batch h'.run r.output
    rw [hbatch, ← hpoll, ← hbytes] at hshows
    rw [hbatch, ← hpoll] at hrun hstate hstatus
    refine .inl ⟨h', ⟨r.launch_eq, hreach, hrun, ?_, hshows, ⟨chunks, hchunks⟩, hesc⟩, hstatus⟩
    simp only [hstate]
    exact r.state_eq
  · -- the result stands last of all, so this batch is some output and the result
    obtain ⟨batch, hbatch⟩ := last_batch (htaken.symm.trans hchunks)
    obtain ⟨hshows, hrun, hstate, hstatus⟩ := takeBatch_of_finished batch result h'.run r.output
    rw [← hbatch, ← hpoll, ← hbytes] at hshows
    rw [← hbatch, ← hpoll] at hrun hstate hstatus
    refine .inr ⟨result, _, ⟨r.launch_eq, hgives, Launch.Reachable.emits hreach, hrun, hstate, .inl hshows⟩, hshows, ?_⟩
    rw [hstatus, hshows.keeps.total_eq, List.size_toArray]

/-! ## What a session tells of its runs -/

/-- What the status tells of a run it tells of the one that was started last. -/
def Tells (s : Session) : Prop :=
  App.Notice s.app.status ∨ ∃ l source result out, s.launch = some l ∧ l.Gives result out ∧
    s.app.status = App.verdict source out.size result

/-- What a session shows and tells comes from the run that was started last. -/
structure Genuine (s : Session) : Prop where
  /-- The output shows the end of the first bytes that run emits, or of none. -/
  output : ∃ shown, (shown = [] ∨ ∃ l, s.launch = some l ∧ l.Emits shown) ∧ s.app.output.total = shown.length ∧
    s.app.output.bytes.toList <:+ shown
  /-- The result, if there is one, is that of the run. -/
  state : (s.app.state = .idle ∧ s.launch = none) ∨ (∃ tenths l, s.app.state = .running tenths ∧ s.launch = some l) ∨
    ∃ l result out, s.launch = some l ∧ l.Gives result out ∧ s.app.state = .ofResult result
  status : s.Tells

/-- What holds from move to move. -/
structure Valid (s : Session) : Prop where
  stands : s.Stands
  tells : s.Tells

theorem poll_of_none {a : App} (hr : a.run = none) (pauses : List Nat) : a.poll pauses = a := by
  unfold App.poll
  rw [hr]

theorem Valid.polls {s : Session} (v : s.Valid) (pauses : List Nat) : Valid ⟨s.app.poll pauses, s.launch⟩ := by
  cases v.stands with
  | idle _ hr _ _ =>
    rw [poll_of_none hr]
    exact v
  | ended o =>
    rw [poll_of_none o.run_eq]
    exact v
  | running r =>
    rcases r.polls pauses with ⟨h', r', hstatus⟩ | ⟨result, out, o, -, hstatus⟩
    · refine ⟨.running r', ?_⟩
      rw [Tells, hstatus]
      exact v.tells
    · exact ⟨.ended o, .inr ⟨_, _, result, out, o.launch_eq, o.gives, hstatus⟩⟩

theorem Tells.cancels {s : Session} (h : s.Tells) : Tells ⟨s.app.cancelRun, s.launch.map .escape⟩ := by
  unfold App.cancelRun
  cases s.app.run with
  | some r => exact .inl .stopping
  | none =>
    rcases h with hn | ⟨l, source, result, out, hl, hg, hs⟩
    · exact .inl hn
    · exact .inr ⟨l.escape, source, result, out, by rw [hl]; rfl, hg.escape, hs⟩

theorem Tells.clears {s : Session} (h : s.Tells) : Tells ⟨s.app.clearOutput, s.launch⟩ := by
  unfold App.clearOutput
  cases s.app.run with
  | some r => exact h
  | none => exact .inl .cleared

theorem Tells.works {s : Session} (h : s.Tells) : Tells ⟨s.app.advanceRun 1, s.launch⟩ := by
  unfold App.advanceRun
  cases s.app.run with
  | some r => exact h
  | none => exact h

/-- **One move.** -/
theorem Valid.happens {s s' : Session} (v : s.Valid) (h : s.Happens s') : s'.Valid := by
  cases h with
  | quiet q =>
    refine ⟨v.stands.quiet q, ?_⟩
    rcases q.status with hs | hn
    · rw [Tells, hs]
      exact v.tells
    · exact .inl hn
  | starts hs =>
    refine ⟨v.stands.starts hs, .inl ?_⟩
    rw [startRun_of_not_comment hs]
    exact .running
  | cancels => exact ⟨v.stands.cancels, v.tells.cancels⟩
  | clears => exact ⟨v.stands.clears, v.tells.clears⟩
  | works => exact ⟨v.stands.works, v.tells.works⟩
  | polls pauses => exact v.polls pauses

theorem valid_after (source : String) (config : Config) (clock : Nat → Nat) (ms : List App.Move) :
    (after source config clock ms).Valid :=
  List.foldlRecOn ms next ⟨stands_new source config clock, .inl .ready⟩ (fun s v m _ => v.happens (next_happens s m))

theorem Valid.genuine {s : Session} (v : s.Valid) : s.Genuine := by
  have hshown {bytes : List UInt8} (h : Shows s.app.output bytes)
      (hb : bytes = [] ∨ ∃ l, s.launch = some l ∧ l.Emits bytes) :
      ∃ shown, (shown = [] ∨ ∃ l, s.launch = some l ∧ l.Emits shown) ∧ s.app.output.total = shown.length ∧
        s.app.output.bytes.toList <:+ shown :=
    ⟨bytes, hb, h.keeps.total_eq, h.keeps.suffix⟩
  cases v.stands with
  | idle hl _ hs ho => exact ⟨hshown ho (.inl rfl), .inl ⟨hs, hl⟩, v.tells⟩
  | @running l _ r =>
    obtain ⟨tenths, hs⟩ := r.state_eq
    exact ⟨hshown r.output (.inr ⟨l, r.launch_eq, r.reachable.emits⟩), .inr (.inl ⟨tenths, l, hs, r.launch_eq⟩),
      v.tells⟩
  | @ended l result out o =>
    refine ⟨?_, .inr (.inr ⟨l, result, out, o.launch_eq, o.gives, o.state_eq⟩), v.tells⟩
    rcases o.output with h | h
    · exact hshown h (.inr ⟨l, o.launch_eq, o.emits⟩)
    · exact hshown h (.inl rfl)

/-- **The end of a run.**  The poll that takes the result has taken all bytes. -/
theorem Valid.ends {s : Session} (v : s.Valid) {tenths : Nat} {result : Except RunError Stats} {pauses : List Nat}
    (hrunning : s.app.state = .running tenths) (hended : (s.app.poll pauses).state = .ofResult result) :
    ∃ l out, s.launch = some l ∧ l.Gives result out ∧ Shows (s.app.poll pauses).output out.toList ∧
      (s.app.poll pauses).status = App.verdict s.app.source out.size result := by
  cases v.stands with
  | idle _ _ hs _ =>
    rw [hs] at hrunning
    cases hrunning
  | ended o => exact absurd (o.state_eq.symm.trans hrunning) (RunState.ofResult_ne_running _ _)
  | running r =>
    rcases r.polls pauses with ⟨h', r', -⟩ | ⟨result', out, o, hshows, hstatus⟩
    · obtain ⟨tenths', hstill⟩ := r'.state_eq
      exact absurd (hended.symm.trans hstill) (RunState.ofResult_ne_running _ _)
    · obtain rfl : result = result' := RunState.ofResult_injective (hended.symm.trans o.state_eq)
      exact ⟨_, out, o.launch_eq, o.gives, hshows, hstatus⟩

/-- A run starts as if there had been none before. -/
theorem startRun_forget {a : App} (hs : isOnlyComment a.source = false) : a.forget.startRun = a.startRun := by
  rw [startRun_of_not_comment hs, startRun_of_not_comment (a := a.forget) hs]
  rfl

/-- **A console shows the run it started.**  However keys, new source texts, polls, frames and steps of the worker
follow each other, what is shown comes from the run that was started last.  A poll that ends a run, whatever the worker
did while it went on, brings the interpreter's result on what the run was started on; the output has then counted all
bytes the interpreter emits there, and shows the last of them, or all if they are few.  And whatever happens after a run
was started happens as if there had been none before it. -/
theorem after_shows_latest_run (source : String) (config : Config) (clock : Nat → Nat) (ms : List App.Move) :
    let s := after source config clock ms
    s.Genuine ∧
      (∀ pauses tenths result, s.app.state = .running tenths → (s.app.poll pauses).state = .ofResult result →
        ∃ l out, s.launch = some l ∧ l.Gives result out ∧ (s.app.poll pauses).output.total = out.size ∧
          (s.app.poll pauses).output.bytes.toList <:+ out.toList ∧
          (out.size ≤ 2 * App.retainedBytes → (s.app.poll pauses).output.bytes.toList = out.toList) ∧
          (s.app.poll pauses).status = App.verdict s.app.source out.size result) ∧
      (isOnlyComment s.app.source = false → ∀ later : List App.Move,
        later.foldl App.perform s.app.startRun = later.foldl App.perform s.app.forget.startRun) := by
  intro s
  have v : s.Valid := valid_after source config clock ms
  refine ⟨v.genuine, ?_, ?_⟩
  · intro pauses tenths result hrunning hended
    obtain ⟨l, out, hl, hgives, hshows, hstatus⟩ := v.ends hrunning hended
    refine ⟨l, out, hl, hgives, hshows.keeps.total_eq.trans Array.length_toList, hshows.keeps.suffix, ?_, hstatus⟩
    intro hfew
    refine hshows.keeps.toList_eq (hshows.keeps.early _ hshows.limit_eq ?_)
    rw [Array.length_toList, Nat.mul_comm]
    exact hfew
  · intro hs later
    rw [startRun_forget hs]

/-- A run that is replaced after its byte was shown.  The one in its place ends within a poll: its byte is queued when
the poll begins, and its result is sent after the byte was taken. -/
theorem after_shows_latest_run_replaced :
    let first : List App.Move := [.press (.char 'r'), .work, .work, .work, .work, .poll []]
    let ms : List App.Move := first ++ [.load "+.", .press (.char 'r'), .work, .work, .work, .work]
    let s := after "-." { tape := .fixed 1 } (fun _ => 0) ms
    (after "-." { tape := .fixed 1 } (fun _ => 0) first).app.output.bytes.toList = [255] ∧ s.app.state = .running 0 ∧
      (s.app.poll [0, 2]).state = .ofResult (.ok ⟨2, 1⟩) ∧ (s.app.poll [0, 2]).output.bytes.toList = [1] ∧
      ∃ l out, s.launch = some l ∧ l.source = "+." ∧ l.Gives (.ok ⟨2, 1⟩) out ∧
        (s.app.poll [0, 2]).output.bytes.toList = out.toList := by
  intro first ms s
  have hrunning : s.app.state = .running 0 := by decide
  have hended : (s.app.poll [0, 2]).state = .ofResult (.ok ⟨2, 1⟩) := by decide
  have hlaunch : s.launch.map (·.source) = some "+." := by decide
  have htotal : (s.app.poll [0, 2]).output.total = 1 := by decide
  refine ⟨by decide, hrunning, hended, by decide, ?_⟩
  obtain ⟨l, out, hl, hgives, hsize, -, hall, -⟩ :=
    (after_shows_latest_run "-." { tape := .fixed 1 } (fun _ => 0) ms).2.1 [0, 2] 0 _ hrunning hended
  rw [hl] at hlaunch
  refine ⟨l, out, hl, Option.some.inj hlaunch, hgives, hall ?_⟩
  rw [← hsize, htotal]
  decide

end Session

end Brainfuck
