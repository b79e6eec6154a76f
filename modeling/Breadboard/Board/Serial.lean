/-
  Breadboard.Board.Serial — what a sketch has sent to the serial monitor.

  The log keeps every print with the time it was made, and the speed last set. A mark is the
  log's length and speed at one moment; `atMark` goes back to it. `lines` puts the prints
  together as a monitor shows them: a print goes on the line that is open, a line feed or a
  print with `newline` ends it, and a line bears the time of the print that opened it.
-/

import Breadboard.Text.Lines

namespace Breadboard

structure SerialEntry where
  time : Nat
  text : Text
  newline : Bool
  deriving DecidableEq, Repr

structure SerialMark where
  size : Nat := 0
  baud : Option Nat := none
  deriving DecidableEq, Repr

structure SerialLog where
  /-- The newest print comes first. -/
  recent : List SerialEntry
  size : Nat
  size_eq : size = recent.length
  baud : Option Nat
  deriving DecidableEq, Repr

/-- A line of the monitor. -/
structure SerialLine where
  time : Nat
  text : Text
  deriving DecidableEq, Repr

namespace SerialLog

/-- Nothing printed, and no speed set. -/
def empty : SerialLog := ⟨[], 0, rfl, none⟩

def begin (l : SerialLog) (baud : Nat) : SerialLog := { l with baud := some baud }

/-- The prints, the oldest first. -/
def entries (l : SerialLog) : List SerialEntry := l.recent.reverse

def append (l : SerialLog) (e : SerialEntry) : SerialLog where
  recent := e :: l.recent
  size := l.size + 1
  size_eq := by simp [l.size_eq]
  baud := l.baud

/-- The log of these prints. -/
def ofEntries (entries : List SerialEntry) (baud : Option Nat) : SerialLog :=
  entries.foldl append { empty with baud }

def isEmpty (l : SerialLog) : Bool := l.recent.isEmpty

def mark (l : SerialLog) : SerialMark := ⟨l.size, l.baud⟩

/-- The log as it stood at a mark. -/
def atMark (l : SerialLog) (m : SerialMark) : SerialLog where
  recent := l.recent.drop (l.size - m.size)
  size := min m.size l.size
  size_eq := by simp [l.size_eq]; omega
  baud := m.baud

theorem entries_append (l : SerialLog) (e : SerialEntry) :
    (l.append e).entries = l.entries ++ [e] := by
  simp [entries, append]

theorem entries_foldl_append (es : List SerialEntry) (l : SerialLog) :
    (es.foldl append l).entries = l.entries ++ es := by
  induction es generalizing l with
  | nil => simp
  | cons e es ih => simp [ih, entries_append]

theorem entries_ofEntries (es : List SerialEntry) (baud : Option Nat) :
    (ofEntries es baud).entries = es :=
  entries_foldl_append es { empty with baud }

theorem size_mark (l : SerialLog) : l.mark.size = l.entries.length := by
  simp [mark, entries, l.size_eq]

theorem entries_atMark (l : SerialLog) (m : SerialMark) :
    (l.atMark m).entries = l.entries.take m.size := by
  simp [entries, atMark, List.take_reverse, l.size_eq]

/-- The lines so far, the newest first and each written backwards, and whether the newest is still
open. -/
structure Assembly where
  rows : List SerialLine := []
  isOpen : Bool := false
  deriving DecidableEq, Repr

/-- Puts a piece without line feeds on the open line, or on a new one. -/
def Assembly.piece (a : Assembly) (time : Nat) (t : Text) : Assembly :=
  match a.rows, a.isOpen with
  | row :: rows, true => ⟨{ row with text := t.reverse ++ row.text } :: rows, true⟩
  | rows, _ => ⟨⟨time, t.reverse⟩ :: rows, true⟩

/-- The pieces of a print; each but the first begins a new line. -/
def Assembly.pieces (a : Assembly) (time : Nat) : List Text → Assembly
  | [] => a
  | t :: ts => ts.foldl (fun a t => { a with isOpen := false }.piece time t) (a.piece time t)

def Assembly.entry (a : Assembly) (e : SerialEntry) : Assembly :=
  let a := a.pieces e.time (Text.pieces '\n' e.text)
  { a with isOpen := a.isOpen && !e.newline }

def assembly (entries : List SerialEntry) : Assembly := entries.foldl Assembly.entry {}

def lines (l : SerialLog) : List SerialLine :=
  (assembly l.entries).rows.reverse.map fun row => { row with text := row.text.reverse }

end SerialLog

end Breadboard
