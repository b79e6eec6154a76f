/-
  Breadboard.Proofs.Board.Fragments — the lines of the serial monitor, said by what was printed.

  The monitor is put together print by print, with a flag for the line that is still open. Here
  the same lines are found without it. A print falls into fragments at its line feeds; behind each
  the line ends, but for the last one of a print without `newline`. A row is a fragment and those
  that follow it up to the first that ends its line (`rows`).

  Proved: the lines of a log are its rows, each with the time of the print that opens it
  (`lines_eq_rows`), and the rows of a log that goes on are those of its two parts, side by side if
  no line is open between them (`rows_append`) and else with one row across the seam
  (`exists_rows_append`).
-/

import Mathlib
import Breadboard.Board.Serial
import Breadboard.Proofs.Text.Lines

namespace Breadboard

/-- A piece of a print without line feeds. -/
structure Fragment where
  entry : SerialEntry
  text : Text
  /-- Whether the line ends behind it. -/
  ends : Bool
  deriving DecidableEq, Repr

/-- The fragments of these pieces of a print: the last one ends its line if the print does. -/
def SerialEntry.fragmentsOf (e : SerialEntry) : List Text → List Fragment
  | [] => []
  | [t] => [⟨e, t, e.newline⟩]
  | t :: ts => ⟨e, t, true⟩ :: e.fragmentsOf ts

def SerialEntry.fragments (e : SerialEntry) : List Fragment := e.fragmentsOf (Text.pieces '\n' e.text)

theorem SerialEntry.fragmentsOf_cons (e : SerialEntry) (t : Text) {ts : List Text} (h : ts ≠ []) :
    e.fragmentsOf (t :: ts) = ⟨e, t, true⟩ :: e.fragmentsOf ts := by
  rw [fragmentsOf]
  exact h

theorem SerialEntry.mem_fragmentsOf {e : SerialEntry} {ts : List Text} {f : Fragment} (h : f ∈ e.fragmentsOf ts) :
    f.entry = e ∧ f.text ∈ ts := by
  induction ts with
  | nil => cases h
  | cons t ts ih =>
    cases ts with
    | nil =>
      obtain rfl := List.mem_singleton.1 h
      exact ⟨rfl, List.mem_cons_self ..⟩
    | cons t' ts =>
      rcases List.mem_cons.1 h with rfl | h
      · exact ⟨rfl, List.mem_cons_self ..⟩
      · exact ⟨(ih h).1, List.mem_cons_of_mem t (ih h).2⟩

/-- What stands on one line: the fragment that opens it and those behind. -/
structure MonitorRow where
  opener : Fragment
  more : List Fragment := []
  deriving DecidableEq, Repr

namespace MonitorRow

def fragments (r : MonitorRow) : List Fragment := r.opener :: r.more

def text (r : MonitorRow) : Text := r.fragments.flatMap (·.text)

def line (r : MonitorRow) : SerialLine := ⟨r.opener.entry.time, r.text⟩

/-- One row behind another on the same line. -/
def join (r s : MonitorRow) : MonitorRow := ⟨r.opener, r.more ++ s.fragments⟩

/-- Rows whose first goes on the line of a row before them. -/
def onto (r : MonitorRow) : List MonitorRow → List MonitorRow
  | [] => [r]
  | s :: rs => r.join s :: rs

@[simp] theorem opener_join (r s : MonitorRow) : (r.join s).opener = r.opener := rfl

@[simp] theorem fragments_join (r s : MonitorRow) : (r.join s).fragments = r.fragments ++ s.fragments := rfl

@[simp] theorem text_join (r s : MonitorRow) : (r.join s).text = r.text ++ s.text := by simp [text]

@[simp] theorem text_single (f : Fragment) : MonitorRow.text ⟨f, []⟩ = f.text := by simp [text, fragments]

theorem onto_ne_nil (r : MonitorRow) (rs : List MonitorRow) : r.onto rs ≠ [] := by
  cases rs <;> exact List.cons_ne_nil _ _

theorem onto_append (r : MonitorRow) {rs : List MonitorRow} (h : rs ≠ []) (rs' : List MonitorRow) :
    r.onto (rs ++ rs') = r.onto rs ++ rs' := by
  cases rs with
  | nil => exact absurd rfl h
  | cons s rs => rfl

theorem onto_onto (r s : MonitorRow) (rs : List MonitorRow) : r.onto (s.onto rs) = (r.join s).onto rs := by
  cases rs with
  | nil => rfl
  | cons t rs => simp [onto, join, fragments]

end MonitorRow

/-- The rows of fragments: each goes on up to a fragment that ends its line. -/
def rows : List Fragment → List MonitorRow
  | [] => []
  | f :: fs => if f.ends then ⟨f, []⟩ :: rows fs else MonitorRow.onto ⟨f, []⟩ (rows fs)

/-- Whether the last line is still open. -/
def leavesOpen (fs : List Fragment) : Bool := fs.getLast?.any (!·.ends)

variable {f : Fragment} {fs gs : List Fragment}

theorem rows_of_ends (h : f.ends = true) (fs : List Fragment) : rows (f :: fs) = ⟨f, []⟩ :: rows fs := by
  rw [rows, if_pos h]

theorem rows_of_open (h : f.ends = false) (fs : List Fragment) :
    rows (f :: fs) = MonitorRow.onto ⟨f, []⟩ (rows fs) := by
  rw [rows, if_neg (by simp [h])]

theorem rows_ne_nil (h : fs ≠ []) : rows fs ≠ [] := by
  obtain ⟨f, fs, rfl⟩ := List.exists_cons_of_ne_nil h
  rw [rows]
  split
  · exact List.cons_ne_nil _ _
  · exact MonitorRow.onto_ne_nil _ _

@[simp] theorem leavesOpen_nil : leavesOpen [] = false := rfl

@[simp] theorem leavesOpen_concat (fs : List Fragment) (f : Fragment) : leavesOpen (fs ++ [f]) = !f.ends := by
  simp [leavesOpen]

theorem leavesOpen_append (fs : List Fragment) (h : gs ≠ []) : leavesOpen (fs ++ gs) = leavesOpen gs := by
  obtain ⟨gs, g, rfl⟩ := (List.eq_nil_or_concat gs).resolve_left h
  rw [List.concat_eq_append, ← List.append_assoc, leavesOpen_concat, leavesOpen_concat]

theorem leavesOpen_cons (f : Fragment) (h : fs ≠ []) : leavesOpen (f :: fs) = leavesOpen fs :=
  leavesOpen_append [f] h

theorem leavesOpen_of_ends (h : f.ends = true) (fs : List Fragment) : leavesOpen (f :: fs) = leavesOpen fs := by
  by_cases hfs : fs = []
  · subst hfs
    simp [leavesOpen, h]
  · exact leavesOpen_cons f hfs

/-- The last fragment leaves its line open if the print does. -/
theorem SerialEntry.leavesOpen_fragmentsOf (e : SerialEntry) {ts : List Text} (h : ts ≠ []) :
    e.fragmentsOf ts ≠ [] ∧ leavesOpen (e.fragmentsOf ts) = !e.newline := by
  induction ts with
  | nil => exact absurd rfl h
  | cons t ts ih =>
    cases ts with
    | nil => exact ⟨List.cons_ne_nil _ _, by simp [fragmentsOf, leavesOpen]⟩
    | cons t' ts =>
      obtain ⟨hne, hopen⟩ := ih (List.cons_ne_nil t' ts)
      rw [e.fragmentsOf_cons t (List.cons_ne_nil t' ts)]
      exact ⟨List.cons_ne_nil _ _, (leavesOpen_cons _ hne).trans hopen⟩

/-! ## The seam between two parts of a log -/

/-- Behind a line that has ended the rows begin anew. -/
theorem rows_append (h : leavesOpen fs = false) (gs : List Fragment) : rows (fs ++ gs) = rows fs ++ rows gs := by
  induction fs with
  | nil => rfl
  | cons f fs ih =>
    cases hf : f.ends with
    | true =>
      rw [leavesOpen_of_ends hf] at h
      rw [List.cons_append, rows_of_ends hf, rows_of_ends hf, ih h, List.cons_append]
    | false =>
      have hfs : fs ≠ [] := by
        rintro rfl
        simp [leavesOpen, hf] at h
      rw [leavesOpen_cons f hfs] at h
      rw [List.cons_append, rows_of_open hf, rows_of_open hf, ih h, MonitorRow.onto_append _ (rows_ne_nil hfs)]

/-- A line that is open takes the first row of what follows. -/
theorem exists_rows_append (h : leavesOpen fs = true) :
    ∃ done row, rows fs = done ++ [row] ∧ ∀ gs, rows (fs ++ gs) = done ++ row.onto (rows gs) := by
  induction fs with
  | nil => simp at h
  | cons f fs ih =>
    cases hf : f.ends with
    | true =>
      rw [leavesOpen_of_ends hf] at h
      obtain ⟨done, row, hrow, hseam⟩ := ih h
      refine ⟨⟨f, []⟩ :: done, row, by rw [rows_of_ends hf, hrow, List.cons_append], fun gs => ?_⟩
      rw [List.cons_append, rows_of_ends hf, hseam, List.cons_append]
    | false =>
      by_cases hfs : fs = []
      · subst hfs
        exact ⟨[], ⟨f, []⟩, rows_of_open hf [], fun gs => rows_of_open hf gs⟩
      · rw [leavesOpen_cons f hfs] at h
        obtain ⟨done, row, hrow, hseam⟩ := ih h
        -- f goes on the first row, which is the open one itself if no other is there
        rcases done with _ | ⟨first, done⟩
        · refine ⟨[], MonitorRow.join ⟨f, []⟩ row, by rw [rows_of_open hf, hrow]; rfl, fun gs => ?_⟩
          rw [List.cons_append, rows_of_open hf, hseam, List.nil_append, MonitorRow.onto_onto]
          rfl
        · refine ⟨MonitorRow.join ⟨f, []⟩ first :: done, row, by rw [rows_of_open hf, hrow]; rfl, fun gs => ?_⟩
          rw [List.cons_append, rows_of_open hf, hseam]
          rfl

namespace SerialLog

/-! ## Lines and rows -/

/-- All that was printed, in fragments. -/
def fragments (entries : List SerialEntry) : List Fragment := entries.flatMap SerialEntry.fragments

theorem fragments_append (es es' : List SerialEntry) : fragments (es ++ es') = fragments es ++ fragments es' :=
  List.flatMap_append

theorem fragments_ne_nil {es : List SerialEntry} (h : es ≠ []) : fragments es ≠ [] := by
  obtain ⟨e, es, rfl⟩ := List.exists_cons_of_ne_nil h
  have := (e.leavesOpen_fragmentsOf (Text.pieces_ne_nil '\n' e.text)).1
  exact List.append_ne_nil_of_left_ne_nil this (fragments es)

/-- A line is open if the last print left it open. -/
theorem leavesOpen_fragments (es : List SerialEntry) :
    leavesOpen (fragments es) = es.getLast?.any (!·.newline) := by
  rcases List.eq_nil_or_concat es with rfl | ⟨es, e, rfl⟩
  · rfl
  · obtain ⟨hne, hopen⟩ := e.leavesOpen_fragmentsOf (Text.pieces_ne_nil '\n' e.text)
    have one : fragments [e] = e.fragments := by simp [fragments]
    rw [List.concat_eq_append, fragments_append, one, SerialEntry.fragments, leavesOpen_append _ hne, hopen]
    simp

/-- A fragment put on the open line, or on a new one. -/
def Assembly.take (a : Assembly) (f : Fragment) : Assembly :=
  { a.piece f.entry.time f.text with isOpen := !f.ends }

theorem Assembly.isOpen_piece (a : Assembly) (time : Nat) (t : Text) : (a.piece time t).isOpen = true := by
  unfold piece
  split <;> rfl

theorem Assembly.piece_of_closed {a : Assembly} (h : a.isOpen = false) (time : Nat) (t : Text) :
    a.piece time t = ⟨⟨time, t.reverse⟩ :: a.rows, true⟩ := by
  unfold piece
  split
  · next hopen => rw [h] at hopen; cases hopen
  · rfl

/-- A print is taken fragment by fragment. -/
theorem Assembly.pieces_eq (e : SerialEntry) (ts : List Text) (t : Text) (a : Assembly) :
    { a.pieces e.time (t :: ts) with isOpen := (a.pieces e.time (t :: ts)).isOpen && !e.newline } =
      (e.fragmentsOf (t :: ts)).foldl take a := by
  induction ts generalizing t a with
  | nil => simp [pieces, SerialEntry.fragmentsOf, take, isOpen_piece]
  | cons t' ts ih => exact ih t' (a.take ⟨e, t, true⟩)

theorem Assembly.entry_eq (a : Assembly) (e : SerialEntry) : a.entry e = e.fragments.foldl take a := by
  obtain ⟨t, ts, ht⟩ := List.exists_cons_of_ne_nil (Text.pieces_ne_nil '\n' e.text)
  unfold entry SerialEntry.fragments
  rw [ht]
  exact pieces_eq e ts t a

theorem assembly_eq (es : List SerialEntry) : assembly es = (fragments es).foldl Assembly.take {} := by
  unfold assembly fragments
  rw [List.foldl_flatMap]
  congr 1
  funext a e
  exact a.entry_eq e

/-- A row as the assembly keeps it, written backwards. -/
def backwards (r : MonitorRow) : SerialLine := { r.line with text := r.line.text.reverse }

/-- After any fragments the assembly holds their rows, the newest first, and knows whether the newest is open. -/
theorem foldl_take (fs : List Fragment) :
    fs.foldl Assembly.take {} = ⟨((rows fs).map backwards).reverse, leavesOpen fs⟩ := by
  induction fs using List.reverseRecOn with
  | nil => rfl
  | append_singleton fs f ih =>
    rw [List.foldl_concat, ih, leavesOpen_concat]
    have one : rows [f] = [⟨f, []⟩] := by rw [rows]; split <;> rfl
    cases hopen : leavesOpen fs with
    | false =>
      rw [rows_append hopen, one, Assembly.take, Assembly.piece_of_closed rfl]
      simp [backwards, MonitorRow.line]
    | true =>
      obtain ⟨done, row, hrow, hseam⟩ := exists_rows_append hopen
      rw [hseam, hrow, one]
      simp [Assembly.take, Assembly.piece, backwards, MonitorRow.line, MonitorRow.onto]

/-- The lines of the monitor are the rows, each with the time of the print that opens it. -/
theorem lines_eq_rows (l : SerialLog) : l.lines = (rows (fragments l.entries)).map MonitorRow.line := by
  unfold lines
  rw [assembly_eq, foldl_take, List.reverse_reverse, List.map_map]
  refine List.map_congr_left fun r _ => ?_
  simp [backwards]

/-- Whether the next print goes on the last line. -/
def endsOpen (l : SerialLog) : Bool := l.entries.getLast?.any (!·.newline)

/-- Behind the lines that a log had, one that grew from it has those of what was added, but for the first of these if the
last line was open: that one goes on it. -/
theorem lines_grown {l l' new : SerialLog} (h : l'.entries = l.entries ++ new.entries) :
    l'.lines.drop l.lines.length = new.lines.drop (if l.endsOpen then 1 else 0) := by
  have hopen : l.endsOpen = leavesOpen (fragments l.entries) := (leavesOpen_fragments l.entries).symm
  rw [lines_eq_rows l', lines_eq_rows l, lines_eq_rows new, h, fragments_append, hopen, List.length_map,
    ← List.map_drop, ← List.map_drop]
  congr 1
  cases hl : leavesOpen (fragments l.entries) with
  | false =>
    rw [rows_append hl, List.drop_left]
    rfl
  | true =>
    -- the open row was counted, and the first row of what was added has gone on it
    obtain ⟨done, row, hrow, hseam⟩ := exists_rows_append hl
    rw [hseam, hrow, List.length_append, List.length_singleton, List.drop_append]
    cases rows (fragments new.entries) <;> simp [MonitorRow.onto]

end SerialLog

end Breadboard
