/-
  Breadboard.Pane.Pins — the pane with the pins.

  Every pin that was used has a row with its mode, its level and the parts that are wired to
  it.
-/

import Breadboard.Board.Basic
import Breadboard.Pane.Listing

namespace Breadboard.Pane

open Screen

/-- Texts with a comma between each and the next. -/
def commaJoined : List Text → Text
  | [] => []
  | [t] => t
  | t :: ts => t ++ ", ".toList ++ commaJoined ts

def levelStyle : Level → Style
  | .high => { fg := some Theme.green, bold := true }
  | .low => fg Theme.darkGrey

def pinItem (parts : Registry) (id : PinId) (p : Pin) : Item where
  line :=
    let bound := (parts.onPin id).map (·.peripheral.id)
    [span (Text.padStart 4 id.text ++ " ".toList) (fg Theme.yellow),
      span (Text.padEnd 13 p.mode.word) (fg (if p.mode = .unset then Theme.grey else Theme.teal)),
      span (if p.level.isHigh then "● " else "○ ").toList (levelStyle p.level),
      span (Text.padEnd 4 p.level.word) (levelStyle p.level)] ++
    (if bound.isEmpty then [] else [span ("  → ".toList ++ commaJoined bound) (fg Theme.grey)])

def pinItems (pins : PinTable) (parts : Registry) : List Item :=
  if pins.isEmpty then [{ line := [⟨"(no pins used)".toList, {}⟩], style := fg Theme.grey }]
  else pins.sorted.map fun (id, p) => pinItem parts id p

def drawPins (pins : PinTable) (parts : Registry) (focused : Bool) (offset width height : Nat) :
    Nat × Grid :=
  let items := pinItems pins parts
  let offset := clamp items.length (visibleRows height) offset
  (offset, Listing.draw { title := " Pins ".toList, style := Theme.border focused } items offset
    width height)

end Breadboard.Pane
