/-
  Breadboard.Text.Lines — the lines of a text, and its pieces between separators.

  A line ends at a line feed; a carriage return right before that line feed belongs to the
  line's end. The last line may lack its line feed, and then a carriage return at its end
  stays. No line follows the last line feed. `pieces sep t` is the plain split: one piece
  more than there are separators (`length_pieces`).
-/

import Breadboard.Text.Basic

namespace Breadboard.Text

/-- Puts a character in front of the first line. -/
def consFirst (c : Char) : List Text → List Text
  | [] => [[c]]
  | l :: ls => (c :: l) :: ls

def lines : Text → List Text
  | [] => []
  | '\r' :: '\n' :: t => [] :: lines t
  | '\n' :: t => [] :: lines t
  | c :: t => consFirst c (lines t)

def pieces (sep : Char) : Text → List Text
  | [] => [[]]
  | c :: t => if c = sep then [] :: pieces sep t else consFirst c (pieces sep t)

/-- Texts with a separator between each and the next. -/
def joined (sep : Char) : List Text → Text
  | [] => []
  | [t] => t
  | t :: ts => t ++ sep :: joined sep ts

theorem pieces_ne_nil (sep : Char) (t : Text) : pieces sep t ≠ [] := by
  cases t with
  | nil => simp [pieces]
  | cons c t =>
    rw [pieces]
    split
    · simp
    · cases pieces sep t <;> simp [consFirst]

theorem length_pieces (sep : Char) (t : Text) : (pieces sep t).length = t.count sep + 1 := by
  induction t with
  | nil => rfl
  | cons c t ih =>
    by_cases h : c = sep
    · simp [pieces, h, ih]
    · have hne := pieces_ne_nil sep t
      rw [pieces, if_neg h, List.count_cons_of_ne h, ← ih]
      cases hp : pieces sep t with
      | nil => exact absurd hp hne
      | cons l ls => simp [consFirst]

end Breadboard.Text
