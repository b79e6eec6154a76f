/-
  Breadboard.Pane.Listing — a framed list of lines, and how times are written.

  Each item is a line with a style for its whole row, drawn span by span. `draw` shows the
  items from an offset on.
-/

import Breadboard.Screen.Frame
import Breadboard.Screen.Theme
import Breadboard.Text.Padding
import Breadboard.Pane.Scroll

namespace Breadboard.Pane

open Screen

structure Item where
  line : Line
  style : Style := {}

def Item.row (i : Item) (width : Nat) : Row := i.line.tile width i.style

namespace Listing

/-- What is shown when the first `offset` lines are scrolled away. -/
def page {α : Type} (lines : List α) (offset height : Nat) : List α :=
  (lines.drop offset).take (visibleRows height)

/-- The items in a frame, the first `offset` of them scrolled away. -/
def draw (frame : Frame) (items : List Item) (offset width height : Nat) : Grid :=
  frame.draw width height fun inner => (page items offset height).map (·.row inner)

end Listing

/-- A count in at least so many digits. -/
def zeroPadded (width n : Nat) : Text :=
  let digits := Text.decimal n
  List.replicate (width - digits.length) '0' ++ digits

/-- Minutes, seconds and milliseconds. -/
def clockText (ms : Nat) : Text :=
  zeroPadded 2 (ms / 60000) ++ ":".toList ++ zeroPadded 2 (ms / 1000 % 60) ++ ".".toList ++
    zeroPadded 3 (ms % 1000)

def span (t : Text) (s : Style) : Span := ⟨t, s⟩

def fg (c : Color) : Style := .ofFg c

end Breadboard.Pane
