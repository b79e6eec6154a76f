/-
  Breadboard.Run.Session — a program run on a board, tick by tick.

  Each tick of a running session runs at most one statement: none while the gate of a delay
  is closed. What a step leaves is recorded in the history. A sketch loaded during a run
  waits until the run is stopped; stopping clears the board, the history and all counts.
  `Session.Event` lists what can happen to a session, `apply` says what it does.
-/

import Breadboard.Sketch.Reader
import Breadboard.Run.History

namespace Breadboard

/-- Bytes of recorded steps that a session keeps unless told otherwise. -/
def defaultHistoryLimit : Nat := 8 * 1024 * 1024

structure Session where
  program : Program := {}
  /-- A program that takes over when the run is stopped. -/
  pending : Option Program := none
  progress : Progress := {}
  board : Board := {}
  /-- The source line of the statement that ran last. -/
  line : Option Nat := none
  steps : Nat := 0
  /-- The time of the last tick. -/
  time : Nat := 0
  history : History := { limit := defaultHistoryLimit }
  deriving DecidableEq, Repr

namespace Session

/-- An idle session with an empty program. -/
def new (peripherals : Registry) (historyLimit : Nat) : Session :=
  { board := { peripherals }, history := { limit := historyLimit } }

def isStarted (s : Session) : Bool := s.progress.phase ≠ .idle

/-- The program that was loaded last. -/
def latest (s : Session) : Program := s.pending.getD s.program

def loadProgram (s : Session) (p : Program) : Session :=
  if s.isStarted then { s with pending := some p } else { s with program := p }

def load (s : Session) (source : Text) : Session := s.loadProgram (.ofSource source)

def start (s : Session) : Session :=
  if s.isStarted then s
  else { s with progress := s.progress.start s.program, line := none, steps := 0, time := 0 }

/-- An idle session: the board cleared, nothing recorded, and a waiting program put in place. -/
def stop (s : Session) : Session :=
  { program := s.latest, board := s.board.reset, history := s.history.clear }

def next? (s : Session) : Option Node := s.progress.current? s.program

def snapshot (s : Session) : Snapshot where
  progress := s.progress
  pins := s.board.pins
  serial := s.board.serial.mark
  peripherals := s.board.peripherals
  line := s.line
  steps := s.steps
  time := s.time

/-- A history without room records nothing. -/
def record (s : Session) : Session :=
  if s.history.limit = 0 then s else { s with history := s.history.record s.snapshot }

/-- A delay from this time on; the end of time is as late as it gets. -/
def wakeTime (now d : Nat) : Nat := min (now + d) Text.maxWord64

/-- Runs a statement and moves past it. -/
def execute (s : Session) (now : Nat) (n : Node) : Session :=
  let progress :=
    match n.statement.pause? with
    | some d => s.progress.sleepUntil (wakeTime now d)
    | none => s.progress
  { s with
    board := s.board.execute now n.statement
    progress := progress.advance s.program
    line := some n.line
    steps := s.steps + 1 }

def tick (s : Session) (now : Nat) : Session :=
  if !s.progress.phase.isRunning then s
  else if s.progress.isGated now then { s with time := now }
  else
    let s := { s with time := now, progress := s.progress.passGate now }
    match s.next? with
    | some n => (s.execute now n).record
    | none => s

def attach (s : Session) (p : Peripheral) : Session := { s with board := s.board.attach p }

def detach (s : Session) (id : Text) : Session := { s with board := s.board.detach id }

/-! ## Events -/

inductive Event where
  | load (source : Text)
  | start
  | stop
  | tick (now : Nat)
  | attach (p : Peripheral)
  | detach (id : Text)
  deriving DecidableEq, Repr

def apply (s : Session) : Event → Session
  | .load source => s.load source
  | .start => s.start
  | .stop => s.stop
  | .tick now => s.tick now
  | .attach p => s.attach p
  | .detach id => s.detach id

def run (s : Session) (events : List Event) : Session := events.foldl apply s

end Session

end Breadboard
