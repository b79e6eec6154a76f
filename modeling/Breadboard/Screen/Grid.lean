/-
  Breadboard.Screen.Grid — rows of cells, and drawing lines of styled text into them.

  A row has a cell for each of its columns. A symbol of two columns stands in the first of
  its cells and hides the second (`Row.shown`). A line is drawn symbol after symbol, up to
  the first that does not fit (`Line.fit`), or span by span, each in the column where the
  widths of the spans before it end (`Line.tile`). Either way the row has the length asked
  for (`length_fit`, `length_tile`). Grids are put beside each other and above each other.
-/

import Breadboard.Screen.Style
import Breadboard.Text.Cluster
import Breadboard.Text.Columns

namespace Breadboard.Screen

structure Cell where
  symbol : Text := [' ']
  style : Style := {}
  deriving DecidableEq, Repr

/-- The columns that a cell takes where it is shown. -/
def Cell.columns (c : Cell) : Nat := max 1 (Text.columns c.symbol)

abbrev Row := List Cell

abbrev Grid := List Row

/-- A piece of text in one style. -/
structure Span where
  text : Text
  style : Style := {}
  deriving DecidableEq, Repr

/-- What is drawn of a span; a line feed is not. -/
def Span.symbols (s : Span) : List Text := (Text.clusters s.text).filter (· ≠ ['\n'])

/-- A line of text before it is drawn. -/
abbrev Line := List Span

namespace Line

def cells (base : Style) (l : Line) : List Cell :=
  l.flatMap fun s => s.symbols.map fun symbol => ⟨symbol, base.layer s.style⟩

/-- The columns of all symbols. -/
def columns : Line → Nat
  | [] => 0
  | s :: l => s.symbols.foldl (fun n symbol => n + Text.columns symbol) 0 + columns l

end Line

namespace Row

def blank (width : Nat) (style : Style) : Row := List.replicate width ⟨[' '], style⟩

/-- The cells that are not hidden, when so many at the start are. -/
def shownAfter : Nat → Row → List Cell
  | _, [] => []
  | 0, c :: r => c :: shownAfter (c.columns - 1) r
  | n + 1, _ :: r => shownAfter n r

def shown (r : Row) : List Cell := shownAfter 0 r

def text (r : Row) : Text := r.shown.flatMap (·.symbol)

/-- The runs of cells of one style, as long as they can be, with their columns. -/
def runsOf : List Cell → List (Nat × Style)
  | [] => []
  | c :: r =>
    match runsOf r with
    | (n, s) :: rest =>
      if s = c.style then (c.columns + n, s) :: rest else (c.columns, c.style) :: (n, s) :: rest
    | [] => [(c.columns, c.style)]

def runs (r : Row) : List (Nat × Style) := runsOf r.shown

/-! ## Symbol after symbol -/

/-- The cells that fit into a width, filled up with blanks. A symbol without columns is left out. -/
def fill (style : Style) : Nat → List Cell → Row
  | width, [] => blank width style
  | width, c :: cs =>
    match Text.columns c.symbol with
    | 0 => fill style width cs
    | n + 1 =>
      if n < width then c :: (blank n style ++ fill style (width - (n + 1)) cs)
      else blank width style

theorem length_blank (width : Nat) (style : Style) : (blank width style).length = width := by
  simp [blank]

theorem length_fill (style : Style) (width : Nat) (cs : List Cell) :
    (fill style width cs).length = width := by
  induction cs generalizing width with
  | nil => exact length_blank width style
  | cons c cs ih =>
    rw [fill]
    split
    · exact ih width
    · split
      · simp [length_blank, ih]
        omega
      · exact length_blank width style

/-! ## Span by span -/

/-- Clears the cells that a symbol of so many columns hides. -/
def hide (r : Row) (column : Nat) : Nat → Row
  | 0 => r
  | n + 1 => hide (r.set column {}) (column + 1) n

/-- Draws a symbol over what stands in a column. -/
def overlay (r : Row) (column : Nat) (style : Style) (symbol : Text) : Row :=
  r.modify column fun c => ⟨symbol, c.style.layer style⟩

/-- Puts a symbol behind the one in a column. -/
def attach (r : Row) (column : Nat) (style : Style) (symbol : Text) : Row :=
  r.modify column fun c => ⟨c.symbol ++ symbol, c.style.layer style⟩

/-- Draws symbols from a column on, up to the first that does not fit. One without columns joins
the cell before it; at the start of a span it takes the first cell, and the next symbol joins it. -/
def put (start : Nat) (style : Style) (begun : Bool) (column : Nat) (r : Row) : List Text → Row
  | [] => r
  | symbol :: symbols =>
    let n := Text.columns symbol
    if r.length < column + n then r
    else
      let r :=
        if !begun then r.overlay column style symbol
        else if column = start then r.attach column style symbol
        else if n = 0 then r.attach (column - 1) style symbol
        else r.overlay column style symbol
      put start style true (column + n) (r.hide (column + 1) (n - 1)) symbols

/-- Draws spans from a column on, each where the width of the one before ends. -/
def putSpans (column : Nat) (r : Row) : Line → Row
  | [] => r
  | s :: l =>
    let n := Text.columns s.text
    let r := if n = 0 || r.length ≤ column then r else put column s.style false column r s.symbols
    putSpans (column + n) r l

theorem length_hide (r : Row) (column n : Nat) : (r.hide column n).length = r.length := by
  induction n generalizing r column with
  | zero => rfl
  | succ n ih => simp [hide, ih]

theorem length_put (start : Nat) (style : Style) (begun : Bool) (column : Nat) (r : Row)
    (symbols : List Text) : (put start style begun column r symbols).length = r.length := by
  induction symbols generalizing begun column r with
  | nil => rfl
  | cons symbol symbols ih =>
    rw [put]
    split
    · rfl
    · rw [ih, length_hide]
      split
      · simp [overlay]
      · split
        · simp [attach]
        · split
          · simp [attach]
          · simp [overlay]

theorem length_putSpans (column : Nat) (r : Row) (l : Line) :
    (putSpans column r l).length = r.length := by
  induction l generalizing column r with
  | nil => rfl
  | cons s l ih =>
    rw [putSpans, ih]
    split
    · rfl
    · exact length_put ..

end Row

namespace Line

/-- A line drawn at the left of a row. -/
def fit (l : Line) (width : Nat) (base : Style) : Row := Row.fill base width (l.cells base)

/-- A line drawn at the right of a row; one that is too long shows its beginning. -/
def fitRight (l : Line) (width : Nat) (base : Style) : Row :=
  let gap := width - l.columns
  Row.blank gap base ++ l.fit (width - gap) base

/-- A line drawn span by span. -/
def tile (l : Line) (width : Nat) (base : Style) : Row :=
  Row.putSpans 0 (Row.blank width base) l

theorem length_fit (l : Line) (width : Nat) (base : Style) : (l.fit width base).length = width :=
  Row.length_fill base width _

theorem length_tile (l : Line) (width : Nat) (base : Style) :
    (l.tile width base).length = width := by
  rw [tile, Row.length_putSpans, Row.length_blank]

end Line

namespace Grid

def blank (width height : Nat) (style : Style) : Grid :=
  List.replicate height (Row.blank width style)

/-- Rows cut off or added as blank ones to make up a height. -/
def resize (rows : Grid) (width height : Nat) (style : Style) : Grid :=
  rows.take height ++ blank width (height - rows.length) style

/-- Two grids of one height side by side. -/
def beside (a b : Grid) : Grid := List.zipWith (· ++ ·) a b

end Grid

end Breadboard.Screen
