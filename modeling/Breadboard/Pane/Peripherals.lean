/-
  Breadboard.Pane.Peripherals — the pane with the parts on the board.

  A lit part is drawn in its own colour, a dark one in grey.
-/

import Breadboard.Board.Basic
import Breadboard.Pane.Listing

namespace Breadboard.Pane

open Screen

def bindingItem (b : Binding) : Item where
  line :=
    let p := b.peripheral
    let lamp :=
      if b.isActive then span " ◉ ".toList { fg := some (Theme.lit p.kind), bold := true }
      else span " ◯ ".toList (fg Theme.darkGrey)
    [lamp,
      span (Text.padEnd 14 p.id) (fg Theme.text),
      span (Text.padEnd 11 p.kind.label) (fg Theme.teal),
      span ("pin ".toList ++ Text.padEnd 4 p.pin.text) (fg Theme.yellow),
      span (" @".toList ++ Text.decimal p.position.1 ++ ",".toList ++ Text.decimal p.position.2)
        (fg Theme.grey)]

def bindingItems (parts : Registry) : List Item :=
  if parts.isEmpty then [{ line := [⟨"(nothing attached)".toList, {}⟩], style := fg Theme.grey }]
  else parts.bindings.map bindingItem

def drawPeripherals (parts : Registry) (focused : Bool) (offset width height : Nat) : Nat × Grid :=
  let items := bindingItems parts
  let offset := clamp items.length (visibleRows height) offset
  (offset, Listing.draw { title := " Peripherals ".toList, style := Theme.border focused } items
    offset width height)

end Breadboard.Pane
