/-
  Breadboard.Monitor.Basic — a bench behind a screen and a keyboard.

  The monitor shows one sketch and runs it. While a run is on, a sketch that is read again
  waits with the session's waiting program until the run is stopped. A paused run can be
  reviewed: the monitor then shows a recorded step, so many behind the newest, and changes
  nothing. `Monitor.Event` lists what can happen to a monitor, `apply` says what it does.
-/

import Breadboard.Pane.Source
import Breadboard.Run.Bench
import Breadboard.Settings.Basic

namespace Breadboard

inductive Key where
  | left
  | right
  | up
  | down
  | tab
  | char (c : Char)
  | other
  deriving DecidableEq, Repr

inductive PaneName where
  | source
  | serial
  | pins
  | peripherals
  deriving DecidableEq, Repr

/-- The pane that the focus moves to. -/
def PaneName.next : PaneName → PaneName
  | source => serial
  | serial => pins
  | pins => peripherals
  | peripherals => source

/-- The last thing that the monitor has to say. -/
inductive Notice where
  | ready
  | running
  | nothingToRun
  | stopped
  | paused
  | restarted
  | stepped (line : Option Nat)
  | reviewing (back : Nat)
  | backToLive
  | nothingToReview
  | startOfHistory
  | cleared
  | noFile
  | reloaded
  | reloadWaits
  | reloadFailed (fault : FileFault)
  deriving DecidableEq, Repr

def Notice.text : Notice → Text
  | ready => "Ready! Press space to run".toList
  | running => "Running...".toList
  | nothingToRun => "Nothing to run: no setup or loop statements".toList
  | stopped => "Stopped".toList
  | paused => "Paused".toList
  | restarted => "Restarted".toList
  | stepped (some line) => "Stepped (line ".toList ++ Text.decimal line ++ ")".toList
  | stepped none => "Stepped".toList
  | reviewing back => "Reviewing ".toList ++ Text.decimal back ++ " step(s) back".toList
  | backToLive => "Back to live state".toList
  | nothingToReview => "Nothing to review".toList
  | startOfHistory => "Start of recorded history".toList
  | cleared => "Serial view cleared".toList
  | noFile => "No sketch file to reload".toList
  | reloaded => "Reloaded".toList
  | reloadWaits => "Reloaded; takes effect after stop".toList
  | reloadFailed fault => "Reload failed: ".toList ++ fault.message

structure Monitor where
  bench : Bench
  /-- The sketch that is shown. -/
  source : Text
  /-- A sketch that was read during a run, shown when the run is stopped. -/
  pending : Option Text := none
  /-- Whether the sketch came from a file, and can be read again. -/
  hasFile : Bool := false
  focus : PaneName := .source
  sourceScroll : Pane.SourceScroll := {}
  serialOffset : Nat := 0
  pinsOffset : Nat := 0
  peripheralsOffset : Nat := 0
  /-- Lines of the serial monitor hidden by clearing the view. -/
  hidden : Nat := 0
  timestamps : Bool := true
  /-- While reviewing, how many steps behind the newest the shown one is. -/
  review : Option Nat := none
  quit : Bool := false
  notice : Notice := .ready
  deriving DecidableEq, Repr

namespace Monitor

/-! ## Running -/

/-- Starts a stopped clock and says so. -/
def start (m : Monitor) (now : Nat) : Monitor :=
  let bench := m.bench.start now
  let notice := if bench.session.progress.phase = .halted then .nothingToRun else .running
  { m with bench, notice }

/-- Stops the run and shows the sketch that waited for it. -/
def stop (m : Monitor) : Monitor :=
  { m with
    bench := m.bench.stop
    source := m.pending.getD m.source
    pending := none
    review := none
    hidden := 0
    serialOffset := 0 }

def toggleRun (m : Monitor) (now : Nat) : Monitor :=
  if m.bench.clock.isStopped then m.start now else { m.stop with notice := .stopped }

def togglePause (m : Monitor) (now : Nat) : Monitor :=
  if m.bench.clock.isRunning then { m with bench := m.bench.pause, notice := .paused }
  else if m.bench.clock.isPaused then
    { m with bench := m.bench.resume now, review := none, notice := .running }
  else m

def restart (m : Monitor) (now : Nat) : Monitor := { m.stop.start now with notice := .restarted }

/-- One tick by hand; a stopped run is started for it and a running one paused. -/
def stepLive (m : Monitor) (now : Nat) : Monitor :=
  let ready := (if m.bench.clock.isStopped then m.bench.start now else m.bench).pause
  let (bench, fired) := ready.step
  if fired then { m with bench, notice := .stepped bench.session.line, serialOffset := Pane.bottom }
  else { m with bench }

theorem stepLive_eq (m : Monitor) (now : Nat) {ready : Bench}
    (h : (if m.bench.clock.isStopped then m.bench.start now else m.bench).pause = ready) :
    m.stepLive now = { m with
      bench := ready.step.1
      notice := if ready.step.2 then .stepped ready.step.1.session.line else m.notice
      serialOffset := if ready.step.2 then Pane.bottom else m.serialOffset } := by
  rw [stepLive, h]
  rcases ready.step with ⟨bench, fired⟩
  cases fired <;> rfl

/-! ## Reviewing -/

/-- One recorded step forward while reviewing, otherwise a tick. -/
def forward (m : Monitor) (now : Nat) : Monitor :=
  match m.review with
  | some 0 => { m with review := none, notice := .backToLive }
  | some (back + 1) => { m with review := some back, notice := .reviewing back }
  | none => m.stepLive now

/-- One recorded step back, which pauses a run. -/
def backward (m : Monitor) : Monitor :=
  if m.bench.clock.isStopped then { m with notice := .nothingToReview }
  else
    let bench := m.bench.pause
    let back := match m.review with
      | some b => b + 1
      | none => 0
    if back < bench.session.history.size then
      { m with bench, review := some back, notice := .reviewing back }
    else { m with bench, notice := .startOfHistory }

/-! ## The sketch and the view -/

/-- Takes a sketch that was read again: at once, or when the run is stopped. -/
def takeSource (m : Monitor) (source : Text) : Monitor :=
  let bench := { m.bench with session := m.bench.session.load source }
  if bench.session.isStarted then { m with bench, pending := some source, notice := .reloadWaits }
  else { m with bench, source, notice := .reloaded }

/-- Reads the sketch again, where `file` is what reading its file gives. -/
def reload (m : Monitor) (file : Except FileFault Text) : Monitor :=
  if m.hasFile then
    match file with
    | .ok source => m.takeSource source
    | .error fault => { m with notice := .reloadFailed fault }
  else { m with notice := .noFile }

/-- Hides the lines that the serial monitor has by now. -/
def clearSerial (m : Monitor) : Monitor :=
  { m with hidden := m.bench.session.board.serial.lines.length, notice := .cleared }

def scrollUp (m : Monitor) : Monitor :=
  match m.focus with
  | .source => { m with sourceScroll := m.sourceScroll.up }
  | .serial => { m with serialOffset := Pane.scrollUp m.serialOffset }
  | .pins => { m with pinsOffset := Pane.scrollUp m.pinsOffset }
  | .peripherals => { m with peripheralsOffset := Pane.scrollUp m.peripheralsOffset }

def scrollDown (m : Monitor) : Monitor :=
  match m.focus with
  | .source => { m with sourceScroll := m.sourceScroll.down }
  | .serial => { m with serialOffset := Pane.scrollDown m.serialOffset }
  | .pins => { m with pinsOffset := Pane.scrollDown m.pinsOffset }
  | .peripherals => { m with peripheralsOffset := Pane.scrollDown m.peripheralsOffset }

/-! ## Events -/

/-- A key pressed at a host time; `file` is what reading the sketch's file gives then. -/
def press (m : Monitor) (now : Nat) (file : Except FileFault Text) : Key → Monitor
  | .char 'q' | .char 'Q' => { m with quit := true }
  | .char ' ' => m.toggleRun now
  | .char 'p' => m.togglePause now
  | .right | .char 'n' => m.forward now
  | .left => m.backward
  | .char 'r' => m.restart now
  | .char 'l' => m.reload file
  | .char 'c' => m.clearSerial
  | .char 't' => { m with timestamps := !m.timestamps }
  | .tab => { m with focus := m.focus.next }
  | .up => m.scrollUp
  | .down => m.scrollDown
  | .char _ | .other => m

/-- A tick that has fallen due fires, and then the serial pane goes to its end. -/
def poll (m : Monitor) (now : Nat) : Monitor :=
  let (bench, fired) := m.bench.poll now
  if fired then { m with bench, serialOffset := Pane.bottom } else { m with bench }

theorem poll_eq (m : Monitor) (now : Nat) :
    m.poll now = { m with
      bench := (m.bench.poll now).1
      serialOffset := if (m.bench.poll now).2 then Pane.bottom else m.serialOffset } := by
  rw [poll]
  rcases m.bench.poll now with ⟨bench, fired⟩
  cases fired <;> rfl

inductive Event where
  | key (k : Key) (now : Nat) (file : Except FileFault Text)
  | poll (now : Nat)

def apply (m : Monitor) : Event → Monitor
  | .key k now file => m.press now file k
  | .poll now => m.poll now

def run (m : Monitor) (events : List Event) : Monitor := events.foldl apply m

end Monitor

end Breadboard
