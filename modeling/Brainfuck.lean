import Brainfuck.Main
import Brainfuck.Stream.Device
import Brainfuck.Proofs.Block
import Brainfuck.Proofs.Matching
import Brainfuck.Proofs.Scene
import Brainfuck.Proofs.Trajectory
import Brainfuck.Proofs.InStep
import Brainfuck.Proofs.Structured
import Brainfuck.Proofs.Truncation
import Brainfuck.Proofs.WorkerStep
import Brainfuck.Proofs.Delivery
import Brainfuck.Proofs.IdealTape
import Brainfuck.Proofs.LineIndex
import Brainfuck.Proofs.Overflow
import Brainfuck.Proofs.Retention
import Brainfuck.Proofs.Schedules
import Brainfuck.Proofs.Launch
import Brainfuck.Proofs.Session
import Brainfuck.Proofs.Blame
import Brainfuck.Proofs.Caret
import Brainfuck.Proofs.Safety
import Brainfuck.Proofs.Headless
import Brainfuck.Proofs.Comments
import Brainfuck.Proofs.Vanishing
import Brainfuck.Proofs.Repair
import Brainfuck.Proofs.Agreement
import Brainfuck.Proofs.LineDecoding
import Brainfuck.Proofs.TapeSize
import Brainfuck.Proofs.Answers
import Brainfuck.Proofs.Refusal
import Brainfuck.Proofs.HangUp
import Brainfuck.Proofs.Controls
import Brainfuck.Proofs.Marking
import Brainfuck.Proofs.Clauses
import Brainfuck.Proofs.Wraparound
import Brainfuck.Proofs.Positions
import Brainfuck.Proofs.Highlighting
