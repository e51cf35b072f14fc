import Brainfuck.Delivery.Worker
/-!
# Background runs

A background run is a worker together with its channel.  What happens to it is a sequence of moves: a step of the
worker, or an act of the watcher, in any order (`BackgroundRun.performAll`).  The watcher takes events in batches, while
the worker goes on (`BackgroundRun.drain`).  `collect` is an order in which the worker goes as far as it can each time
before the watcher takes a batch.
-/
namespace Brainfuck

structure BackgroundRun where
  job : Job
  worker : Worker
  channel : Channel

/-- What can happen to a background run: the worker takes a step, or the watcher takes an event if there is one, raises
the cancel flag, or hangs up. -/
inductive Move where
  | work
  | receive
  | cancel
  | hangUp
  deriving DecidableEq, Repr

namespace BackgroundRun

/-- Starts to run a source text on some input bytes. -/
def start (source : String) (input : List UInt8) (config : Config) (clock : Nat → Nat) : BackgroundRun :=
  match Worker.start source input config clock with
  | (worker, job) => ⟨job, worker, {}⟩

def work (r : BackgroundRun) : BackgroundRun :=
  match r with
  | ⟨job, worker, channel⟩ =>
    match worker.step job channel with
    | (worker, channel) => ⟨job, worker, channel⟩

/-- The run after so many steps of its worker. -/
def workFor : Nat → BackgroundRun → BackgroundRun
  | 0, r => r
  | n + 1, r => workFor n r.work

/-- The event the watcher takes, and the run after that. -/
def receive (r : BackgroundRun) : Option (Event × BackgroundRun) :=
  match r with
  | ⟨job, worker, channel⟩ =>
    match channel.receive with
    | none => none
    | some (e, channel) => some (e, ⟨job, worker, channel⟩)

def cancel (r : BackgroundRun) : BackgroundRun := { r with channel := r.channel.cancel }

def hangUp (r : BackgroundRun) : BackgroundRun := { r with channel := r.channel.hangUp }

/-- The events a move brings the watcher, and the run after it. -/
def perform (r : BackgroundRun) : Move → List Event × BackgroundRun
  | .work => ([], r.work)
  | .receive =>
    match r.receive with
    | none => ([], r)
    | some (e, r) => ([e], r)
  | .cancel => ([], r.cancel)
  | .hangUp => ([], r.hangUp)

/-- The events some moves bring the watcher, and the run after them. -/
def performAll : List Move → BackgroundRun → List Event × BackgroundRun
  | [], r => ([], r)
  | m :: ms, r => ((r.perform m).1 ++ (performAll ms (r.perform m).2).1, (performAll ms (r.perform m).2).2)

/-- Takes events until it finds none, but at most `room`.  Before it looks for one the worker takes some steps, as many
as `pauses` says for this time, or none. -/
def drainFor : (room : Nat) → (pauses : List Nat) → BackgroundRun → List Event × BackgroundRun
  | 0, _, r => ([], r)
  | room + 1, pauses, r =>
    let r := r.workFor (pauses.headD 0)
    match r.receive with
    | none => ([], r)
    | some (e, r) =>
      match drainFor room pauses.tail r with
      | (events, r) => (e :: events, r)

/-- The events the watcher takes in a batch, and the run after that. -/
def drain (r : BackgroundRun) (pauses : List Nat := []) : List Event × BackgroundRun :=
  r.drainFor Channel.drainBatch pauses

/-- Lets the worker go on until it has ended or waits for room, but for at most `fuel` steps. -/
def advance (fuel : Nat) (r : BackgroundRun) : BackgroundRun :=
  match r with
  | ⟨job, worker, channel⟩ =>
    match worker.advance job fuel channel with
    | (worker, channel) => ⟨job, worker, channel⟩

/-- Whether the worker has ended and everything it sent was taken. -/
def isOver (r : BackgroundRun) : Bool :=
  match r.worker with
  | .ended => r.channel.queue.isEmpty
  | _ => false

/-- Takes events until the run is over: up to `rounds` times the worker goes on for at most `fuel` steps and the watcher
takes a batch.  `taken` are the events so far. -/
def collectFrom (fuel : Nat) (taken : Array Event) : Nat → BackgroundRun → Array Event × BackgroundRun
  | 0, r => (taken, r)
  | rounds + 1, r =>
    if r.isOver then (taken, r)
    else
      match (r.advance fuel).drain with
      | (events, r) => collectFrom fuel (taken ++ events) rounds r

def collect (fuel rounds : Nat) (r : BackgroundRun) : List Event :=
  (collectFrom fuel #[] rounds r).1.toList

end BackgroundRun

end Brainfuck
