import Brainfuck.Stream.Sink
import Brainfuck.Stream.Source
/-!
# Reading and writing through a device

A device answers each read or write call with an event: it went well, it was interrupted, it failed.  Here the events a
device will give are a list, so every behaviour of a device is one such list; when the list is used up, reads find the
end of the stream and writes go well.

An input source over a device asks again after an interruption and takes an error for the end of the stream.  A sink
over a device writes each byte and flushes it.
-/
namespace Brainfuck

/-- Why a device call failed. -/
inductive DeviceError where
  | interrupted
  | brokenPipe
  | wouldBlock
  | unexpectedEof
  | permissionDenied
  | timedOut
  | other (text : String)
  deriving DecidableEq, Repr

namespace DeviceError

def message : DeviceError → String
  | .interrupted => "operation interrupted"
  | .brokenPipe => "broken pipe"
  | .wouldBlock => "operation would block"
  | .unexpectedEof => "unexpected end of file"
  | .permissionDenied => "permission denied"
  | .timedOut => "timed out"
  | .other text => text

end DeviceError

/-! ## Reading -/

/-- How a read call of one byte ends. -/
inductive ReadEvent where
  | byte (value : UInt8)
  | endOfStream
  | failed (error : DeviceError)
  deriving DecidableEq, Repr

namespace ReadEvent

/-- The byte the next read gives, after any interruptions; the state is the events to come. -/
def nextByte : List ReadEvent → List ReadEvent × Option UInt8
  | [] => ([], none)
  | .byte value :: rest => (rest, some value)
  | .endOfStream :: rest => (rest, none)
  | .failed .interrupted :: rest => nextByte rest
  | .failed _ :: rest => (rest, none)

end ReadEvent

def Source.device : Source (List ReadEvent) where
  next := ReadEvent.nextByte

/-! ## Writing -/

/-- How a call that writes one byte ends; the device may also take `nothing`. -/
inductive WriteEvent where
  | accepted
  | nothing
  | failed (error : DeviceError)
  deriving DecidableEq, Repr

inductive FlushEvent where
  | flushed
  | failed (error : DeviceError)
  deriving DecidableEq, Repr

/-- The events an output device will give, the bytes it took, and how often it was flushed. -/
structure OutputDevice where
  writes : List WriteEvent
  flushes : List FlushEvent
  written : Array UInt8 := #[]
  flushed : Nat := 0
  deriving DecidableEq, Repr

namespace OutputDevice

/-- What becomes of a byte that is written until it is accepted: an interruption is tried again, and anything else that
keeps the device from taking the byte is the cause of the failure. -/
def writeOutcome : List WriteEvent → List WriteEvent × Option String
  | [] => ([], none)
  | .accepted :: rest => (rest, none)
  | .nothing :: rest => (rest, some "failed to write whole buffer")
  | .failed .interrupted :: rest => writeOutcome rest
  | .failed error :: rest => (rest, some error.message)

/-- What becomes of one flush; an interruption is a failure like any other. -/
def flushOutcome : List FlushEvent → List FlushEvent × Option String
  | [] => ([], none)
  | .flushed :: rest => (rest, none)
  | .failed error :: rest => (rest, some error.message)

/-- Writes a byte and then flushes.  A byte whose flush fails stays written. -/
def emit (d : OutputDevice) (byte : UInt8) : OutputDevice × Option String :=
  match writeOutcome d.writes with
  | (writes, some cause) => ({ d with writes }, some cause)
  | (writes, none) =>
    match flushOutcome d.flushes with
    | (flushes, some cause) => ({ d with writes, flushes, written := d.written.push byte }, some cause)
    | (flushes, none) =>
      ({ writes, flushes, written := d.written.push byte, flushed := d.flushed + 1 }, none)

end OutputDevice

def Sink.device : Sink OutputDevice where
  offer := OutputDevice.emit

end Brainfuck
