/-
  Breadboard.Pane.Serial — the pane with the serial monitor.

  The lines that were hidden by clearing the view are left out. A pane without lines says
  so, and then keeps its offset as it is.
-/

import Breadboard.Board.Serial
import Breadboard.Pane.Listing

namespace Breadboard.Pane

open Screen

structure SerialView where
  log : SerialLog
  timestamps : Bool := false
  /-- So many lines are hidden from the top. -/
  hidden : Nat := 0

namespace SerialView

def title (v : SerialView) : Text :=
  match v.log.baud with
  | some baud => " Serial Monitor @ ".toList ++ Text.decimal baud ++ " baud ".toList
  | none => " Serial Monitor ".toList

/-- The lines that the pane works on. -/
def lines (v : SerialView) : List SerialLine := v.log.lines.drop v.hidden

def item (v : SerialView) (l : SerialLine) : Item where
  line :=
    (if v.timestamps then
      [span ("[".toList ++ clockText l.time ++ "] ".toList) (fg Theme.grey)] else []) ++
    [span l.text (fg Theme.text)]

def draw (v : SerialView) (focused : Bool) (offset width height : Nat) : Nat × Grid :=
  let border := Theme.border focused
  match v.lines with
  | [] =>
    let base := fg Theme.grey
    (offset, ({ title := v.title, style := border, base } : Frame).draw width height fun inner =>
      [Line.fit [⟨"(no output)".toList, {}⟩] inner base])
  | lines =>
    let offset := clamp lines.length (visibleRows height) offset
    (offset, Listing.draw { title := v.title, style := border, padding := 1 } (lines.map v.item)
      offset width height)

end SerialView

end Breadboard.Pane
