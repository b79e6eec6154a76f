/-
  Breadboard.Screen.Frame — a pane's border and title around its rows.

  The border takes the outermost cells. In an area one cell wide or high its pieces fall on
  each other, and the upper and left corners win. The title stands on the top row behind the
  first column. What is inside has two columns and two rows less.
-/

import Breadboard.Screen.Grid

namespace Breadboard.Screen

/-- The border's piece at a place of an area. -/
def borderChar (width height x y : Nat) : Char :=
  if x = 0 ∧ y = 0 then '┌'
  else if x = 0 ∧ y + 1 = height then '└'
  else if x + 1 = width ∧ y = 0 then '┐'
  else if x + 1 = width ∧ y + 1 = height then '┘'
  else if y = 0 ∨ y + 1 = height then '─'
  else '│'

def borderRow (width height y : Nat) (style : Style) : Row :=
  (List.range width).map fun x => ⟨[borderChar width height x y], style⟩

/-- The top row, with as much of the title as there is room for between the corners. Titles are
ASCII, one column for each character. -/
def topRow (width height : Nat) (title : Text) (style : Style) : Row :=
  let edge := borderRow width height 0 style
  let shown : Row := (title.take (width - 2)).map fun c => ⟨[c], style⟩
  edge.take 1 ++ shown ++ edge.drop (1 + shown.length)

/-- A pane: a border in `style` with a title, around rows that are cut to its inside. `base` is the
style of the whole area under all of it. -/
structure Frame where
  title : Text
  style : Style
  base : Style := {}
  /-- Blank columns at the left of the inside. -/
  padding : Nat := 0

namespace Frame

def innerWidth (f : Frame) (width : Nat) : Nat := width - 2 - f.padding

/-- The rows of a pane; `inside` draws the inner rows at a width. -/
def draw (f : Frame) (width height : Nat) (inside : Nat → Grid) : Grid :=
  let style := f.base.layer f.style
  if width = 0 then List.replicate height []
  else
    let inner := f.innerWidth width
    let rows := inside inner
    let side : Row := [⟨['│'], style⟩]
    let row (y : Nat) : Row :=
      if y = 0 then topRow width height f.title style
      else if y + 1 = height then borderRow width height y style
      else if width = 1 then side
      else
        side ++ Row.blank (width - 2 - inner) f.base ++
          rows[y - 1]?.getD (Row.blank inner f.base) ++ side
    (List.range height).map row

end Frame

end Breadboard.Screen
