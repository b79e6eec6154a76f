/-
  Breadboard.CommandLine.Report — what a run without a screen prints.

  First the lines of the serial monitor, then a count of what was run, the pins in order,
  and the parts in the order of their registry.
-/

import Breadboard.Run.Bench
import Breadboard.Text.Padding

namespace Breadboard.CommandLine

def newline : Text := ['\n']

/-- A line of the serial monitor, with its time if times are shown. -/
def serialLine (timestamps : Bool) (l : SerialLine) : Text :=
  if timestamps then
    "[".toList ++ Text.padStart 8 (Text.decimal l.time) ++ " ms] ".toList ++ l.text ++ newline
  else l.text ++ newline

def summaryLine (ticks : Nat) (b : Bench) : Text :=
  "after ".toList ++ Text.decimal ticks ++ " ticks (".toList ++ Text.decimal b.clock.time ++
    " ms): phase ".toList ++ b.session.progress.phase.word ++ ", ".toList ++
    Text.decimal b.session.steps ++ " statements executed".toList ++ newline

def pinLine (id : PinId) (p : Pin) : Text :=
  "  pin ".toList ++ Text.padStart 4 id.text ++ "  ".toList ++ Text.padEnd 12 p.mode.word ++
    " ".toList ++ p.level.word ++ newline

def peripheralLine (b : Binding) : Text :=
  "  ".toList ++ Text.padEnd 14 b.peripheral.id ++
    (if b.isActive then " on" else " off").toList ++ newline

/-- The report on a bench after so many ticks. -/
def report (ticks : Nat) (timestamps : Bool) (b : Bench) : Text :=
  b.session.board.serial.lines.flatMap (serialLine timestamps) ++ newline ++ summaryLine ticks b ++
    (b.session.board.pins.sorted.flatMap fun (id, p) => pinLine id p) ++
    b.session.board.peripherals.bindings.flatMap peripheralLine

end Breadboard.CommandLine
