/-
  Breadboard.Text.Padding — texts filled up with spaces to a number of characters.

  A text that is long enough stays as it is.
-/

import Breadboard.Text.Basic

namespace Breadboard.Text

/-- Spaces in front. -/
def padStart (width : Nat) (t : Text) : Text := List.replicate (width - t.length) ' ' ++ t

/-- Spaces behind. -/
def padEnd (width : Nat) (t : Text) : Text := t ++ List.replicate (width - t.length) ' '

theorem length_padStart (width : Nat) (t : Text) :
    (padStart width t).length = max width t.length := by
  simp [padStart]; omega

theorem length_padEnd (width : Nat) (t : Text) :
    (padEnd width t).length = max width t.length := by
  simp [padEnd]; omega

end Breadboard.Text
