import Brainfuck.CommandLine.Response
import Brainfuck.Proofs.Lockstep
import Brainfuck.Stream.Device
/-!
# Devices are as good as buffers

A run without a console reads its input from a device and writes its output to one.  Interruptions are hidden from it: a
read goes on to the first event that is no interruption (`ReadEvent.nextByte_eq`), a write to the first that is none
either.  So a device that gives the bytes of a list cannot be told from that list, a device that takes every byte cannot
be told from a buffer, and the run ends as it does between the list and the buffer (`headless_eq_buffered`).
-/
namespace Brainfuck

/-! ## Reading -/

namespace ReadEvent

def isInterrupted : ReadEvent → Bool
  | .failed .interrupted => true
  | _ => false

def byte? : ReadEvent → Option UInt8
  | .byte value => some value
  | _ => none

/-- **A read passes over the interruptions and uses up one event more**, whose byte it gives if there is one. -/
theorem nextByte_eq : ∀ (events : List ReadEvent), nextByte events =
    ((events.dropWhile isInterrupted).tail, (events.dropWhile isInterrupted).head?.bind byte?)
  | [] => rfl
  | .byte value :: rest => rfl
  | .endOfStream :: rest => rfl
  | .failed error :: rest => by
    cases error with
    | interrupted => exact nextByte_eq rest
    | _ => rfl

/-- The device gives these bytes, one for a read, and from then on the end of the stream.  Any number of interruptions
may come between. -/
inductive Delivers : List ReadEvent → List UInt8 → Prop where
  | usedUp : Delivers [] []
  | ended {events : List ReadEvent} (h : Delivers events []) : Delivers (.endOfStream :: events) []
  | interrupted {events : List ReadEvent} {bytes : List UInt8} (h : Delivers events bytes) :
      Delivers (.failed .interrupted :: events) bytes
  | byte {value : UInt8} {events : List ReadEvent} {bytes : List UInt8} (h : Delivers events bytes) :
      Delivers (.byte value :: events) (value :: bytes)

theorem Delivers.next {events : List ReadEvent} {bytes : List UInt8} (h : Delivers events bytes) :
    (Source.bytes.next bytes).2 = (Source.device.next events).2 ∧
      Delivers (Source.device.next events).1 (Source.bytes.next bytes).1 := by
  induction h with
  | usedUp => exact ⟨rfl, .usedUp⟩
  | ended h _ => exact ⟨rfl, h⟩
  | interrupted _ ih => exact ih
  | byte h _ => exact ⟨rfl, h⟩

end ReadEvent

/-! ## Writing -/

namespace OutputDevice

/-- The device takes every byte, if only after some interruptions, and every flush goes well. -/
structure Willing (d : OutputDevice) : Prop where
  writes : ∀ event ∈ d.writes, event = .accepted ∨ event = .failed .interrupted
  flushes : ∀ event ∈ d.flushes, event = .flushed

theorem writeOutcome_of_willing : ∀ (events : List WriteEvent),
    (∀ event ∈ events, event = .accepted ∨ event = .failed .interrupted) →
      (writeOutcome events).2 = none ∧
        ∀ event ∈ (writeOutcome events).1, event = .accepted ∨ event = .failed .interrupted
  | [], h => ⟨rfl, h⟩
  | event :: rest, h => by
    have hrest : ∀ event ∈ rest, event = .accepted ∨ event = .failed .interrupted :=
      fun event he => h event (List.mem_cons_of_mem _ he)
    rcases h event List.mem_cons_self with rfl | rfl
    · exact ⟨rfl, hrest⟩
    · exact writeOutcome_of_willing rest hrest

theorem flushOutcome_of_willing {events : List FlushEvent} (h : ∀ event ∈ events, event = .flushed) :
    (flushOutcome events).2 = none ∧ ∀ event ∈ (flushOutcome events).1, event = .flushed := by
  cases events with
  | nil => exact ⟨rfl, h⟩
  | cons event rest =>
    obtain rfl := h event List.mem_cons_self
    exact ⟨rfl, fun event he => h event (List.mem_cons_of_mem _ he)⟩

theorem Willing.emit {d : OutputDevice} (h : d.Willing) (byte : UInt8) :
    (d.emit byte).2 = none ∧ (d.emit byte).1.Willing ∧ (d.emit byte).1.written = d.written.push byte := by
  obtain ⟨hwrite, hwrites⟩ := writeOutcome_of_willing d.writes h.writes
  obtain ⟨hflush, hflushes⟩ := flushOutcome_of_willing h.flushes
  unfold OutputDevice.emit
  rcases hw : writeOutcome d.writes with ⟨writes, cause⟩
  rcases hf : flushOutcome d.flushes with ⟨flushes, cause'⟩
  rw [hw] at hwrite hwrites
  rw [hf] at hflush hflushes
  cases hwrite
  cases hflush
  exact ⟨rfl, ⟨hwrites, hflushes⟩, rfl⟩

end OutputDevice

/-! ## Runs between devices -/

def Setting.headless (config : Config) (watch : Watch OutputDevice (List ReadEvent)) :
    Setting OutputDevice (List ReadEvent) :=
  { config, sink := .device, source := .device, watch }

def Setting.buffered (config : Config) (watch : Watch (Array UInt8) (List UInt8)) :
    Setting (Array UInt8) (List UInt8) :=
  { config, sink := .collecting, source := .bytes, watch }

theorem lockstep_headless {c : Config} (hd : c.deadline = none) (hc : c.cancellable = false)
    (watch : Watch OutputDevice (List ReadEvent)) (watch' : Watch (Array UInt8) (List UInt8)) :
    Lockstep (.headless c watch) (.buffered c watch') (fun d out => d.Willing ∧ d.written = out)
      ReadEvent.Delivers where
  tape := rfl
  eof := rfl
  maxSteps := rfl
  stop _ _ := Config.stop?_congr hd (by simp only [Setting.headless, Setting.buffered, hc, Bool.false_and]) _ _ _
  offer byte h := by
    obtain ⟨hwilling, rfl⟩ := h
    obtain ⟨hanswer, hwilling, hwritten⟩ := hwilling.emit byte
    exact ⟨hanswer.symm, hwilling, hwritten⟩
  next h := h.next

/-- What `--run` answers between these devices. -/
def Response.headless (watch : Watch OutputDevice (List ReadEvent)) (patience : Nat) (config : Config) (source : String)
    (device : OutputDevice) (events : List ReadEvent) : Option Response :=
  (runSource (.headless config watch) patience source device events).map
    (fun o => ofResult source o.sink.written.toList o.result)

theorem Response.exitCode_ofResult (source : String) (output : List UInt8) (result : Except RunError Stats) :
    (ofResult source output result).exitCode = 0 ↔ ∃ stats, result = .ok stats := by
  cases result with
  | ok stats => simp [ofResult]
  | error e => simp [ofResult]

section Devices

variable {config : Config} (hd : config.deadline = none) (hc : config.cancellable = false)
  (watch : Watch OutputDevice (List ReadEvent)) (watch' : Watch (Array UInt8) (List UInt8)) (patience : Nat)
  (source : String) {events : List ReadEvent} {bytes : List UInt8} (hin : ReadEvent.Delivers events bytes)
  {device : OutputDevice} (hout : device.Willing) (hnew : device.written = #[])
include hd hc hin hout hnew

/-- **Devices lead to the same result and the same bytes** as a list and a buffer. -/
theorem runSource_headless :
    (runSource (.headless config watch) patience source device events).map (fun o => (o.result, o.sink.written)) =
      (runSource (.buffered config watch') patience source #[] bytes).map (fun o => (o.result, o.sink)) := by
  have hrel := runSource_lockstep (lockstep_headless hd hc watch watch') patience source ⟨hout, hnew⟩ hin
  generalize runSource (.headless config watch) patience source device events = o at hrel
  generalize runSource (.buffered config watch') patience source #[] bytes = o' at hrel
  cases hrel with
  | none => rfl
  | @some a b h =>
    obtain ⟨hresult, ⟨-, hwritten⟩, -⟩ := h
    rw [Option.map_some, Option.map_some, hresult, hwritten]

theorem Response.headless_eq_run (clock : Nat → Nat) :
    headless watch patience config source device events = run clock patience config source bytes := by
  have hsame := runSource_headless hd hc watch ⟨fun _ _ _ => false, clock⟩ patience source hin hout hnew
  have hanswer := congrArg
    (Option.map (fun (x : Except RunError Stats × Array UInt8) => ofResult source x.2.toList x.1)) hsame
  rw [Option.map_map, Option.map_map] at hanswer
  exact hanswer

end Devices

/-- **A headless run computes what a buffered run does.**  If the input device gives the bytes of a list and the output
device takes every byte, the run between them writes what the run on the list collects, and ends with the same result;
so the exit code of `--run` is 0 exactly if that result is no error.  Whatever a device does, a read passes over the
interruptions at the front, uses up one event more and gives its byte or none; after the end of the stream there may be
more. -/
theorem headless_eq_buffered :
    (∀ (source : String) (config : Config) (watch : Watch OutputDevice (List ReadEvent))
        (watch' : Watch (Array UInt8) (List UInt8)) (patience : Nat) (events : List ReadEvent) (bytes : List UInt8)
        (device : OutputDevice), config.deadline = none → config.cancellable = false →
      ReadEvent.Delivers events bytes → device.Willing → device.written = #[] →
      (runSource (.headless config watch) patience source device events).map (fun o => (o.result, o.sink.written)) =
        (runSource (.buffered config watch') patience source #[] bytes).map (fun o => (o.result, o.sink)) ∧
      (∀ o, runSource (.buffered config watch') patience source #[] bytes = some o →
        ∃ response, Response.headless watch patience config source device events = some response ∧
          response.output = o.sink.toList ∧ (response.exitCode = 0 ↔ ∃ stats, o.result = .ok stats)) ∧
      ∀ clock, Response.run clock patience config source bytes =
        Response.headless watch patience config source device events) ∧
    (∀ events, Source.device.next events = ((events.dropWhile ReadEvent.isInterrupted).tail,
      (events.dropWhile ReadEvent.isInterrupted).head?.bind ReadEvent.byte?)) ∧
    ∀ value rest, Source.device.next (Source.device.next (.endOfStream :: .byte value :: rest)).1 =
      (rest, some value) := by
  refine ⟨?_, ReadEvent.nextByte_eq, fun value rest => rfl⟩
  intro source config watch watch' patience events bytes device hd hc hin hout hnew
  have hsame := runSource_headless hd hc watch watch' patience source hin hout hnew
  refine ⟨hsame, fun o ho => ?_, fun clock => ?_⟩
  · rw [ho] at hsame
    obtain ⟨o', ho', heq⟩ := Option.map_eq_some_iff.1 hsame
    obtain ⟨hresult, hsink⟩ := Prod.mk.inj heq
    refine ⟨Response.ofResult source o'.sink.written.toList o'.result, ?_, ?_, ?_⟩
    · rw [Response.headless, ho']
      rfl
    · rw [← hsink]
      cases o'.result <;> rfl
    · rw [Response.exitCode_ofResult, hresult]
  · exact (Response.headless_eq_run hd hc watch patience source hin hout hnew clock).symm

theorem headless_eq_buffered_echo :
    let config : Config := { tape := .fixed 1, maxSteps := some 9 }
    let events : List ReadEvent := [.failed .interrupted, .byte 104, .failed .interrupted, .byte 105, .endOfStream]
    let device : OutputDevice := ⟨[.failed .interrupted, .accepted, .failed .interrupted], [.flushed], #[], 0⟩
    ReadEvent.Delivers events [104, 105] ∧ device.Willing ∧
      ∃ response, Response.headless .idle 0 config ",.,.,[]" device events = some response ∧
        response.output = [104, 105] ∧ response.exitCode = 0 := by
  intro config events device
  have hin : ReadEvent.Delivers events [104, 105] := .interrupted (.byte (.interrupted (.byte (.ended .usedUp))))
  have hout : device.Willing := ⟨by decide, by decide⟩
  have hrun := headless_eq_buffered.1 ",.,.,[]" config .idle .idle 0 events [104, 105] device rfl rfl hin hout rfl
  obtain ⟨response, hr, hwritten, hexit⟩ := hrun.2.1 _ rfl
  exact ⟨hin, hout, response, hr, hwritten, hexit.2 ⟨_, rfl⟩⟩

end Brainfuck
