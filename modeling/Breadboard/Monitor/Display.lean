/-
  Breadboard.Monitor.Display — what the monitor shows, and a session at its keyboard.

  The screen has the sketch above the serial monitor at the left, the pins above the parts
  at the right, and the status bar in the last row. While reviewing, all panes show the
  recorded step. Drawing settles the scroll positions of the panes. `play` draws a screen
  before each key and after the one that quits, and stops the run in the end.
-/

import Breadboard.Monitor.Basic
import Breadboard.Pane.Peripherals
import Breadboard.Pane.Pins
import Breadboard.Pane.Serial
import Breadboard.Pane.Status

namespace Breadboard

namespace Monitor

open Pane Screen

/-- The recorded step under review, or the live state. -/
def displayed (m : Monitor) : Snapshot :=
  (m.review.bind m.bench.session.history.fromNewest?).getD m.bench.session.snapshot

/-- The serial log as it is shown. -/
def displayedLog (m : Monitor) : SerialLog :=
  let log := m.bench.session.board.serial
  if m.review.isSome then log.atMark m.displayed.serial else log

def unrecognizedLines (p : Program) : List Nat :=
  ((p.setup ++ p.loop).filter (·.statement = .unrecognized)).map (·.line)

def indicator (m : Monitor) : Indicator :=
  match m.review with
  | some back => .reviewing back
  | none =>
    if m.bench.clock.isRunning then .running
    else if m.bench.clock.isPaused then .paused
    else .stopped

def sourceView (m : Monitor) : SourceView where
  source := m.source
  current := m.displayed.line
  unrecognized := unrecognizedLines m.bench.session.program
  gated := m.displayed.progress.isGated m.displayed.time

def serialView (m : Monitor) : SerialView where
  log := m.displayedLog
  timestamps := m.timestamps
  hidden := m.hidden

def statusView (m : Monitor) : StatusView where
  message := m.notice.text
  phase := m.displayed.progress.phase
  cursor := m.displayed.progress.cursor
  steps := m.displayed.steps
  time := m.displayed.time
  indicator := m.indicator

/-- Draws the screen. -/
def draw (m : Monitor) (width height : Nat) : Monitor × Grid :=
  let shown := m.displayed
  let upper := height - 1
  let (left, right) := splitPercent 60 width
  let (sourceRows, serialRows) := splitPercent 65 upper
  let (pinRows, partRows) := splitPercent 55 upper
  let (sourceScroll, source) :=
    m.sourceView.draw (m.focus = .source) m.sourceScroll left sourceRows
  let (serialOffset, serial) :=
    m.serialView.draw (m.focus = .serial) m.serialOffset left serialRows
  let (pinsOffset, pins) :=
    drawPins shown.pins shown.peripherals (m.focus = .pins) m.pinsOffset right pinRows
  let (peripheralsOffset, parts) :=
    drawPeripherals shown.peripherals (m.focus = .peripherals) m.peripheralsOffset right partRows
  ({ m with sourceScroll, serialOffset, pinsOffset, peripheralsOffset },
    Grid.beside (source ++ serial) (pins ++ parts) ++ m.statusView.draw width (min height 1))

/-- What happens between two screens: the clock is polled and a key pressed. -/
structure Turn where
  key : Key
  now : Nat := 0
  file : Except FileFault Text := .error .missing

def turn (m : Monitor) (t : Turn) : Monitor := (m.poll t.now).press t.now t.file t.key

/-- Leaves the monitor: the run is stopped, all else stays. -/
def close (m : Monitor) : Monitor := { m with bench := m.bench.stop }

/-- The screens of a session at the keyboard, and the monitor after it. -/
def play (m : Monitor) (width height : Nat) : List Turn → List Grid × Monitor
  | [] =>
    let (m, screen) := m.draw width height
    ([screen], m.close)
  | t :: rest =>
    let (m, screen) := m.draw width height
    if m.quit then ([screen], m.close)
    else
      let (screens, last) := (m.turn t).play width height rest
      (screen :: screens, last)

end Monitor

end Breadboard
