/-
  Breadboard.Pane.Scroll — which rows of a long pane are shown.

  A pane shows as many rows as fit between its borders, and counts on one row even where
  none fits. The offset is the number of rows above the first that is shown. It is kept low
  enough to fill the pane, and is zero if everything fits (`clamp_le`). Keys move it between
  zero and the greatest count of 64 bits.
-/

import Breadboard.Text.Numeral

namespace Breadboard.Pane

/-- The rows between the borders of a pane of this height, at least one. -/
def visibleRows (height : Nat) : Nat := max (height - 2) 1

/-- An offset at which the pane is filled as far as `total` rows fill it. -/
def clamp (total visible offset : Nat) : Nat :=
  if visible < total then min offset (total - visible) else 0

def scrollUp (offset : Nat) : Nat := offset - 1

def scrollDown (offset : Nat) : Nat := min (offset + 1) Text.maxWord64

/-- An offset past every end, which the next drawing makes the last one. -/
def bottom : Nat := Text.maxWord64

theorem clamp_le (total visible offset : Nat) : clamp total visible offset ≤ total - visible := by
  unfold clamp; split <;> omega

theorem clamp_le_offset (total visible offset : Nat) : clamp total visible offset ≤ offset := by
  unfold clamp; split <;> omega

end Breadboard.Pane
