/-
  Breadboard.Pane.Source — the pane with the sketch.

  Each line has its number and a mark: the line that ran last, with a sign of its own while
  a delay holds the run, or a line that denotes no statement. The pane keeps the current
  line at a fixed row, as far as the ends of the text allow; keys move that row.
-/

import Breadboard.Pane.Highlight
import Breadboard.Pane.Listing
import Breadboard.Text.Lines

namespace Breadboard.Pane

open Screen

/-- Which part of the sketch is shown. -/
structure SourceScroll where
  offset : Nat := 0
  /-- The row that the current line keeps; the middle until it is first drawn. -/
  row : Option Nat := none
  deriving DecidableEq, Repr

namespace SourceScroll

/-- The row for the current line in a pane of so many rows. -/
def rowIn (s : SourceScroll) (visible : Nat) : Nat :=
  min (s.row.getD (visible / 2)) (visible - 1)

/-- The part to show of `total` lines, with the current line at its row. -/
def follow (s : SourceScroll) (total visible : Nat) (current : Option Nat) : SourceScroll :=
  let row := s.rowIn visible
  let offset :=
    match current.filter fun l => 0 < l && l ≤ total with
    | some l => l - 1 - row
    | none => s.offset
  { offset := clamp total visible offset, row := some row }

/-- Scrolling up moves the current line down. -/
def up (s : SourceScroll) : SourceScroll := { s with row := s.row.map scrollDown }

def down (s : SourceScroll) : SourceScroll := { s with row := s.row.map scrollUp }

end SourceScroll

structure SourceView where
  source : Text
  current : Option Nat := none
  unrecognized : List Nat := []
  gated : Bool := false

namespace SourceView

def isCurrent (v : SourceView) (line : Nat) : Bool := v.current = some line

def mark (v : SourceView) (line : Nat) : Char :=
  if v.isCurrent line then (if v.gated then '⏸' else '▶')
  else if line ∈ v.unrecognized then '·'
  else ' '

/-- What the line's state adds to the style of its pieces. -/
def accent (v : SourceView) (line : Nat) : Style :=
  if v.isCurrent line then .ofBg Theme.shade
  else { dim := line ∈ v.unrecognized }

def numberStyle (v : SourceView) (line : Nat) : Style :=
  if v.isCurrent line then { fg := some Theme.orange, bold := true } else fg Theme.grey

def line (v : SourceView) (n : Nat) (text : Text) : Line :=
  span (Text.padStart 4 (Text.decimal n) ++ [v.mark n, ' ']) (v.numberStyle n) ::
    (Piece.ofLine text).map fun p => ⟨p.text, p.kind.style.layer (v.accent n)⟩

def draw (v : SourceView) (focused : Bool) (s : SourceScroll) (width height : Nat) :
    SourceScroll × Grid :=
  let lines := Text.lines v.source
  let s := s.follow lines.length (visibleRows height) v.current
  let frame : Frame := { title := " Sketch ".toList, style := Theme.border focused }
  (s, frame.draw width height fun inner =>
    (Listing.page lines.zipIdx s.offset height).map fun (t, i) => (v.line (i + 1) t).fit inner {})

end SourceView

end Breadboard.Pane
