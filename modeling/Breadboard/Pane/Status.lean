/-
  Breadboard.Pane.Status — the status bar.

  Its left half tells the phase of the run and the last message, its right half the keys and
  how the run is driven.
-/

import Breadboard.Run.Progress
import Breadboard.Pane.Listing

namespace Breadboard.Pane

open Screen

inductive Indicator where
  | stopped
  | running
  | paused
  /-- A recorded step is shown, so many steps behind the newest. -/
  | reviewing (back : Nat)
  deriving DecidableEq, Repr

structure StatusView where
  message : Text
  phase : Phase := .idle
  cursor : Nat := 0
  steps : Nat := 0
  time : Nat := 0
  indicator : Indicator := .stopped

/-- The first part of a length, and the rest, where the first has so many percent of it, a
half rounded up. -/
def splitPercent (percent n : Nat) : Nat × Nat :=
  let first := (n * percent + 50) / 100
  (first, n - first)

namespace StatusView

def bar : Style := .ofBg Theme.shade

def barText (c : Color) : Style := { fg := some c, bg := some Theme.shade }

def badgeStyle (c : Color) : Style := { fg := some .black, bg := some c, bold := true }

def phaseColor : Phase → Color
  | .idle => Theme.grey
  | .halted => Theme.red
  | .setup => Theme.orange
  | .loop => Theme.blue

def phaseText (v : StatusView) : Text :=
  let word := v.phase.word
  if v.phase.isRunning then
    " ".toList ++ word ++ " #".toList ++ Text.decimal v.cursor ++ " · step ".toList ++
      Text.decimal v.steps ++ " · ".toList ++ clockText v.time ++ " ".toList
  else " ".toList ++ word ++ " ".toList

def left (v : StatusView) : Line :=
  [span v.phaseText (badgeStyle (phaseColor v.phase)),
    span " | ".toList (barText Theme.grey),
    span (" ".toList ++ v.message ++ " ".toList) (barText Theme.text)]

def keys : List (String × String) :=
  [(" ⎵ ", " run/stop "), (" p ", " pause "), (" → ", " step "), (" ← ", " review "),
    (" r ", " restart "), (" q ", " quit ")]

def keySpans (key : String × String) : Line :=
  [span key.1.toList { fg := some .black, bg := some Theme.grey },
    span key.2.toList (barText Theme.text)]

def divider : Span := span "│".toList (barText Theme.grey)

def keyLine : List (String × String) → Line
  | [] => []
  | [k] => keySpans k
  | k :: ks => keySpans k ++ [divider, span " ".toList (barText Theme.text)] ++ keyLine ks

def badge : Indicator → Line
  | .running => [divider, span " ▶ RUNNING ".toList (badgeStyle Theme.green)]
  | .paused => [divider, span " ⏸ PAUSED ".toList (badgeStyle Theme.orange)]
  | .reviewing back =>
    [divider, span (" ⟲ -".toList ++ Text.decimal back ++ " ".toList) (badgeStyle Theme.orange)]
  | .stopped => []

def right (v : StatusView) : Line := keyLine keys ++ badge v.indicator

def draw (v : StatusView) (width height : Nat) : Grid :=
  let (l, r) := splitPercent 50 width
  Grid.resize [v.left.fit l bar ++ v.right.fitRight r bar] width height bar

end StatusView

end Breadboard.Pane
