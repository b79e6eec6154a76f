/-
  Breadboard.Proofs.Pane.Following — the current line stays in sight.

  The pane with the sketch is drawn again and again, with other heights and other current lines, and
  between two frames keys move the row at which the current line is to stand. The row stays from frame
  to frame, cut to the last one of a pane that has become too small for it. The offset follows from the
  row as far as the text reaches (`Follows`).

  Proved: the row comes from the heights and the keys alone (`row_run`), and whatever was drawn and
  pressed before, a frame has its current line in the pane, at the row unless an end of the text keeps
  it from there (`current_line_in_sight`). Such a line is drawn in its place (`getElem?_draw`).
-/

import Breadboard.Pane.Source

namespace Breadboard

open Screen

namespace Screen.Frame

theorem length_draw (f : Frame) (width height : Nat) (inside : Nat → Grid) : (f.draw width height inside).length = height := by
  unfold draw
  dsimp only
  split <;> simp

/-- A row between the borders, in a pane that has columns between them. -/
theorem getElem?_draw (f : Frame) {width height y : Nat} (hw : 2 ≤ width) (hy : y + 2 < height) (inside : Nat → Grid) :
    let side : Cell := ⟨['│'], f.base.layer f.style⟩
    let inner := f.innerWidth width
    (f.draw width height inside)[y + 1]? = some (side :: Row.blank (width - 2 - inner) f.base ++
      (inside inner)[y]?.getD (Row.blank inner f.base) ++ [side]) := by
  intro side inner
  have hw0 : width ≠ 0 := by omega
  have hw1 : width ≠ 1 := by omega
  have hlast : y + 1 + 1 ≠ height := by omega
  have hrange : (List.range height)[y + 1]? = some (y + 1) := List.getElem?_range (by omega)
  rw [draw, if_neg hw0, List.getElem?_map, hrange]
  simp [hw1, hlast, side, inner]

end Screen.Frame

namespace Pane

theorem SourceView.length_draw (v : SourceView) (focused : Bool) (s : SourceScroll) (width height : Nat) :
    (v.draw focused s width height).2.length = height := by
  rw [draw]
  dsimp only
  rw [Frame.length_draw]

theorem visibleRows_pos (height : Nat) : 0 < visibleRows height := by
  unfold visibleRows
  omega

theorem visibleRows_of_le {height : Nat} (h : 3 ≤ height) : visibleRows height = height - 2 := by
  unfold visibleRows
  omega

theorem Listing.getElem?_page {α : Type} (lines : List α) {offset height i : Nat} (h : i < visibleRows height) :
    (page lines offset height)[i]? = lines[offset + i]? := by
  rw [page, List.getElem?_take, if_pos h, List.getElem?_drop]

namespace SourceScroll

/-! ## Where the line has to stand -/

/-- An offset for a line: the line is among the rows that are shown, no more of them are left empty than the
text is short of, and the line stands at the row unless there is too little text above it or below it. The
offset is zero if the text fits, since a difference is never below zero. -/
structure Follows (total visible row line offset : Nat) : Prop where
  fromTop : offset ≤ line - 1
  toBottom : line - 1 < offset + visible
  filled : offset ≤ total - visible
  atRow : line - 1 = offset + row ↔ row ≤ line - 1 ∧ line - 1 ≤ row + (total - visible)
  atTop : line - 1 < row → offset = 0
  atBottom : row + (total - visible) < line - 1 → offset = total - visible

theorem follows_clamp {total visible row line : Nat} (hrow : row < visible) (hl : line ≤ total) :
    Follows total visible row line (clamp total visible (line - 1 - row)) := by
  unfold clamp
  split
  · exact ⟨by omega, by omega, by omega, by omega, by omega, by omega⟩
  · exact ⟨by omega, by omega, by omega, by omega, by omega, by omega⟩

theorem rowIn_lt (s : SourceScroll) {visible : Nat} (h : 0 < visible) : s.rowIn visible < visible := by
  unfold rowIn
  omega

theorem follow_current (s : SourceScroll) {total visible line : Nat} (h : 1 ≤ line) (hl : line ≤ total) :
    s.follow total visible (some line) =
      { offset := clamp total visible (line - 1 - s.rowIn visible), row := some (s.rowIn visible) } := by
  have inText : (some line).filter (fun l => 0 < l && l ≤ total) = some line := by
    simp [Option.filter]
    omega
  rw [follow, inText]

/-! ## Frames and keys -/

/-- What happens to the pane: it is drawn, or one of its keys is pressed. -/
inductive Event where
  | frame (view : SourceView) (focused : Bool) (width height : Nat)
  | up
  | down

def apply (s : SourceScroll) : Event → SourceScroll
  | .frame view focused width height => (view.draw focused s width height).1
  | .up => s.up
  | .down => s.down

def run (s : SourceScroll) (events : List Event) : SourceScroll := events.foldl apply s

/-- The row for the current line after an event. No text, line or offset has a part in it. -/
def Event.moveRow (row : Option Nat) : Event → Option Nat
  | frame _ _ _ height => some (min (row.getD (visibleRows height / 2)) (visibleRows height - 1))
  | up => row.map fun r => min (r + 1) Text.maxWord64
  | down => row.map (· - 1)

theorem row_apply (s : SourceScroll) (e : Event) : (s.apply e).row = e.moveRow s.row := by
  cases e with
  | frame view focused width height => rfl
  | up => rfl
  | down => rfl

theorem row_run (s : SourceScroll) (events : List Event) : (s.run events).row = events.foldl Event.moveRow s.row := by
  induction events generalizing s with
  | nil => rfl
  | cons e events ih => rw [List.foldl_cons, ← row_apply, ← ih]; rfl

theorem run_concat (s : SourceScroll) (events : List Event) (e : Event) : s.run (events ++ [e]) = (s.run events).apply e :=
  List.foldl_append

/-! ## In sight -/

variable {view : SourceView} {focused : Bool} {s : SourceScroll} {width height line : Nat}

/-- A line that is among the rows of the pane is drawn there. -/
theorem getElem?_draw {text : Text} (hw : 2 ≤ width) (rows : 3 ≤ height) (h : 1 ≤ line)
    (htext : (Text.lines view.source)[line - 1]? = some text)
    (fromTop : (view.draw focused s width height).1.offset ≤ line - 1)
    (toBottom : line - 1 < (view.draw focused s width height).1.offset + visibleRows height) :
    let side : Cell := ⟨['│'], Theme.border focused⟩
    (view.draw focused s width height).2[line - (view.draw focused s width height).1.offset]? =
      some (side :: (view.line line text).fit (width - 2) {} ++ [side]) := by
  intro side
  generalize ho : (view.draw focused s width height).1.offset = offset at fromTop toBottom ⊢
  obtain ⟨i, hi⟩ : ∃ i, line = offset + i + 1 := ⟨line - 1 - offset, by omega⟩
  have inPane : i < visibleRows height := by omega
  have between : i + 2 < height := by
    rw [visibleRows_of_le rows] at inPane
    omega
  have listed : (Listing.page (Text.lines view.source).zipIdx offset height)[i]? = some (text, line - 1) := by
    have place : offset + i = line - 1 := by omega
    rw [Listing.getElem?_page _ inPane, List.getElem?_zipIdx, place, htext]
    simp
  have row := Frame.getElem?_draw { title := " Sketch ".toList, style := Theme.border focused } hw between
    fun inner => (Listing.page (Text.lines view.source).zipIdx (view.draw focused s width height).1.offset height).map
      fun x => (view.line (x.2 + 1) x.1).fit inner {}
  have below : line - offset = i + 1 := by omega
  have number : line - 1 + 1 = line := by omega
  rw [below]
  refine row.trans ?_
  rw [ho, List.getElem?_map, listed]
  simp [Frame.innerWidth, Row.blank, Style.empty_layer, side, number]

/-- A frame with a current line in its text, after whatever came before it. -/
theorem follows_draw (focused : Bool) (s : SourceScroll) (width height : Nat) (current : view.current = some line)
    (h : 1 ≤ line) (hl : line ≤ (Text.lines view.source).length) :
    ∃ row, (view.draw focused s width height).1.row = some row ∧ row < visibleRows height ∧
      Follows (Text.lines view.source).length (visibleRows height) row line (view.draw focused s width height).1.offset := by
  have hrow := rowIn_lt s (visibleRows_pos height)
  have drawn : (view.draw focused s width height).1 = s.follow _ (visibleRows height) view.current := rfl
  rw [drawn, current, follow_current s h hl]
  exact ⟨_, rfl, hrow, follows_clamp hrow hl⟩

/-- After every frame whose current line is in the text, whatever was drawn before in panes of whatever heights and
whichever keys were pressed in between: the offset is such that the line is in the pane, the pane is filled as far as the
text fills it, and the line stands at the row that heights and keys have led to, unless the top or the bottom of the text
keeps it from there. -/
theorem current_line_in_sight (s : SourceScroll) (before : List Event) (view : SourceView) (focused : Bool)
    (width height line : Nat) (current : view.current = some line) (h : 1 ≤ line)
    (hl : line ≤ (Text.lines view.source).length) :
    let events := before ++ [.frame view focused width height]
    let s' := s.run events
    ∃ row, s'.row = some row ∧ events.foldl Event.moveRow s.row = some row ∧ row < visibleRows height ∧
      Follows (Text.lines view.source).length (visibleRows height) row line s'.offset := by
  intro events s'
  have last : s' = (view.draw focused (s.run before) width height).1 := run_concat s before _
  obtain ⟨row, hrow, inPane, follows⟩ := follows_draw focused (s.run before) width height current h hl
  rw [← last] at hrow follows
  exact ⟨row, hrow, by rw [← row_run, hrow], inPane, follows⟩

/-- A pane is made smaller after the row was moved far down, and then the last line is the current one: the row was cut
to the smaller pane and has moved up by one, and the line stands below it because the text ends there. -/
theorem current_line_in_sight_resized :
    let source := "void setup() \x7b\n\x7d\n\n\n\n\n\nvoid loop() \x7b\n\x7d\n".toList
    let view (line : Nat) : SourceView := { source, current := some line }
    let before : List Event := [.frame (view 5) true 20 8, .up, .up, .up, .frame (view 6) true 20 5, .down]
    let s' := ({} : SourceScroll).run (before ++ [.frame (view 9) true 20 7])
    (view 9).current = some 9 ∧ 1 ≤ 9 ∧ 9 ≤ (Text.lines source).length ∧ (Text.lines source).length = 9 ∧
      visibleRows 7 = 5 ∧ s'.row = some 1 ∧ s'.offset = 4 ∧ Follows 9 5 1 9 4 := by
  intro source view before s'
  have total : (Text.lines source).length = 9 := by decide +kernel
  have inText : 9 ≤ (Text.lines source).length := Nat.le_of_eq total.symm
  obtain ⟨row, hrow, -, -, follows⟩ :=
    current_line_in_sight {} before (view 9) true 20 7 9 rfl (by decide) inText
  have moved : s'.row = some 1 := by decide +kernel
  have offset : s'.offset = 4 := by decide +kernel
  obtain rfl : row = 1 := Option.some.inj (hrow.symm.trans moved)
  have follows : Follows (Text.lines source).length 5 1 9 s'.offset := follows
  rw [total, offset] at follows
  exact ⟨rfl, by decide, inText, total, rfl, moved, offset, follows⟩

end SourceScroll

end Pane

end Breadboard
