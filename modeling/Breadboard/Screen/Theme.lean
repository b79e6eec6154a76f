/-
  Breadboard.Screen.Theme — the colours of the monitor.
-/

import Breadboard.Screen.Style
import Breadboard.Board.Peripherals

namespace Breadboard.Screen.Theme

def text : Color := .rgb 205 214 244
def blue : Color := .rgb 137 180 250
def orange : Color := .rgb 250 179 135
def grey : Color := .rgb 108 112 134
def green : Color := .rgb 166 227 161
def red : Color := .rgb 243 139 168
def yellow : Color := .rgb 249 226 175
def teal : Color := .rgb 148 226 213
def darkGrey : Color := .rgb 88 91 112
/-- Behind the current line and the status bar. -/
def shade : Color := .rgb 50 50 70

/-- The colour of a part that is lit. -/
def lit : PeripheralKind → Color
  | .redLed => red
  | .greenLed => green
  | .yellowLed => yellow
  | .blueLed => blue
  | .buzzer => orange

/-- The border of a pane. -/
def border (focused : Bool) : Style :=
  if focused then { fg := some yellow, bold := true } else .ofFg grey

end Breadboard.Screen.Theme
