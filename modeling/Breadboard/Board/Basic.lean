/-
  Breadboard.Board.Basic — the board: pins, serial log and parts, and what a statement does
  to them.

  A write reaches the pin and every part on it in one step, so that parts go on showing what
  their pins read. A delay changes nothing on the board; it only asks for time.
-/

import Breadboard.Board.Pins
import Breadboard.Board.Serial
import Breadboard.Board.Peripherals

namespace Breadboard

structure Board where
  pins : PinTable := {}
  serial : SerialLog := .empty
  peripherals : Registry := {}
  deriving DecidableEq, Repr

/-- How long a statement makes the sketch wait. -/
def Statement.pause? : Statement → Option Nat
  | .delay d => some d
  | _ => none

namespace Board

/-- The board after a statement that runs at a time. -/
def execute (b : Board) (now : Nat) : Statement → Board
  | .mode pin m => { b with pins := b.pins.setMode pin m }
  | .write pin l => { b with pins := b.pins.write pin l, peripherals := b.peripherals.sync pin l }
  | .begin baud => { b with serial := b.serial.begin baud }
  | .print text newline => { b with serial := b.serial.append ⟨now, text, newline⟩ }
  | .delay _ | .unrecognized => b

/-- No pin used, nothing printed, every part dark. -/
def reset (b : Board) : Board :=
  { peripherals := b.peripherals.resetDisplay }

/-- Adds a part, which shows what its pin reads. -/
def attach (b : Board) (p : Peripheral) : Board :=
  { b with peripherals := (b.peripherals.add p).sync p.pin (b.pins.level p.pin) }

def detach (b : Board) (id : Text) : Board :=
  { b with peripherals := b.peripherals.remove id }

end Board

end Breadboard
