/-
  Breadboard.Screen.Terminal — a grid as the text that makes a terminal show it.

  The cursor goes to the first column of the first row. Where the style changes within a
  row, the codes of the new style are written; every row ends with the default style.
-/

import Breadboard.Screen.Grid
import Breadboard.Text.Lines
import Breadboard.Text.Numeral

namespace Breadboard.Screen

/-- The start of every code. -/
def codeStart : Text := ['\x1b', '[']

/-- The parameters that choose a colour; `base` is 30 for the text and 40 for what is behind it. -/
def Color.parameters (base : Nat) : Color → List Nat
  | .black => [base]
  | .rgb r g b => [base + 8, 2, r, g, b]

namespace Style

/-- The default style, then what this one adds to it. -/
def parameters (s : Style) : List Nat :=
  [0] ++ (if s.bold then [1] else []) ++ (if s.dim then [2] else []) ++
    (s.fg.map (·.parameters 30)).getD [] ++ (s.bg.map (·.parameters 40)).getD []

def code (s : Style) : Text :=
  codeStart ++ Text.joined ';' (s.parameters.map Text.decimal) ++ ['m']

end Style

/-- Cells, drawn after cells of a style. -/
def drawnAfter (style : Style) : List Cell → Text
  | [] => if style = {} then [] else Style.code {}
  | c :: r => (if c.style = style then [] else c.style.code) ++ c.symbol ++ drawnAfter c.style r

def Row.drawn (r : Row) : Text := drawnAfter {} r.shown

/-- Takes all that is shown away. -/
def clearCode : Text := codeStart ++ "2J".toList

def homeCode : Text := codeStart ++ ['H']

def Grid.drawn (g : Grid) : Text :=
  homeCode ++ (Text.joined '\n' (g.map Row.drawn)).flatMap fun c =>
    if c = '\n' then ['\r', '\n'] else [c]

end Breadboard.Screen
