/-
  Breadboard.Proofs.Board.Stream — the lines of the serial monitor are what was sent, cut at its line feeds.

  To the one who reads the monitor a log is a stream of characters, each sent by one print
  (`SerialLog.stream`). The lines give it back (`splitOnP_stream`): cut at its line feeds, the stream
  falls into the texts of the rows, and an empty rest if no line is open.

  Proved: no line holds a line feed, the lines joined again are what was sent, and times do not go
  back on the lines if they do not in the log (`lines_lose_nothing`). A line bears the time of its
  first fragment, which need not be that of its first character (`empty_print_stamps_line`): it is,
  unless the line was opened by a fragment without any character (`line_time_of_opener`).
-/

import Breadboard.Proofs.Board.Fragments

namespace Breadboard

/-- What a print sends, a line feed at its end included. -/
def SerialEntry.sent (e : SerialEntry) : Text := e.text ++ if e.newline then ['\n'] else []

def Fragment.sent (f : Fragment) : Text := f.text ++ if f.ends then ['\n'] else []

/-- The characters of fragments, each with its print. -/
def streamOf (fs : List Fragment) : List (Char × SerialEntry) := fs.flatMap fun f => f.sent.map (·, f.entry)

theorem streamOf_cons (f : Fragment) (fs : List Fragment) :
    streamOf (f :: fs) = f.sent.map (·, f.entry) ++ streamOf fs := rfl

/-- The characters of a row, each with its print. -/
def MonitorRow.stream (r : MonitorRow) : List (Char × SerialEntry) :=
  r.fragments.flatMap fun f => f.text.map (·, f.entry)

namespace MonitorRow

@[simp] theorem stream_single (f : Fragment) : MonitorRow.stream ⟨f, []⟩ = f.text.map (·, f.entry) := by
  simp [stream, fragments]

@[simp] theorem stream_join (r s : MonitorRow) : (r.join s).stream = r.stream ++ s.stream := by simp [stream]

theorem map_fst_stream (r : MonitorRow) : r.stream.map Prod.fst = r.text := by
  simp [stream, text, List.map_flatMap, Function.comp_def]

end MonitorRow

/-! ## The stream of fragments -/

/-- A run of characters without a separator goes in front of the first part. -/
theorem splitOnP_append {α : Type} {p : α → Bool} {as : List α} (h : ∀ a ∈ as, p a = false) (bs : List α) :
    (as ++ bs).splitOnP p = (bs.splitOnP p).modifyHead (as ++ ·) := by
  induction as with
  | nil => rw [List.nil_append]; cases bs.splitOnP p <;> rfl
  | cons a as ih =>
    rw [List.forall_mem_cons] at h
    rw [List.cons_append, List.splitOnP_cons_eq_if_modifyHead, if_neg (by simp [h.1]), ih h.2]
    cases bs.splitOnP p <;> rfl

/-- The rows are the stream of their fragments, cut at its line feeds. -/
theorem splitOnP_streamOf {fs : List Fragment} (plain : ∀ f ∈ fs, '\n' ∉ f.text) :
    (streamOf fs).splitOnP (·.1 = '\n') =
      (rows fs).map MonitorRow.stream ++ if leavesOpen fs then [] else [[]] := by
  induction fs with
  | nil => simp [streamOf, rows]
  | cons f fs ih =>
    rw [List.forall_mem_cons] at plain
    have hf : ∀ c ∈ f.text.map (·, f.entry), decide (c.1 = '\n') = false := by
      intro c hc
      obtain ⟨d, hd, rfl⟩ := List.mem_map.1 hc
      simpa using fun h : d = '\n' => plain.1 (h ▸ hd)
    have ih := ih plain.2
    cases hends : f.ends with
    | true =>
      have split : streamOf (f :: fs) = f.text.map (·, f.entry) ++ ('\n', f.entry) :: streamOf fs := by
        simp [streamOf_cons, Fragment.sent, hends]
      rw [split, List.splitOnP_append_cons _ _ (by simp), List.splitOnP_eq_singleton hf, ih, rows_of_ends hends,
        leavesOpen_of_ends hends]
      simp
    | false =>
      have split : streamOf (f :: fs) = f.text.map (·, f.entry) ++ streamOf fs := by
        simp [streamOf_cons, Fragment.sent, hends]
      rw [split, splitOnP_append hf, ih, rows_of_open hends]
      -- without another fragment, what stands behind f is the empty rest, and it becomes the row of f
      by_cases hfs : fs = []
      · subst hfs
        simp [rows, MonitorRow.onto, leavesOpen, hends]
      · obtain ⟨r, rs, hr⟩ := List.exists_cons_of_ne_nil (rows_ne_nil hfs)
        rw [hr, leavesOpen_cons f hfs]
        simp [MonitorRow.onto]

/-! ## The stream of a log -/

namespace SerialEntry

theorem streamOf_fragmentsOf (e : SerialEntry) {ts : List Text} (h : ts ≠ []) :
    streamOf (e.fragmentsOf ts) = (Text.joined '\n' ts ++ if e.newline then ['\n'] else []).map (·, e) := by
  induction ts with
  | nil => exact absurd rfl h
  | cons t ts ih =>
    cases ts with
    | nil => simp [fragmentsOf, streamOf, Fragment.sent, Text.joined]
    | cons t' ts =>
      have ih := ih (List.cons_ne_nil t' ts)
      rw [Text.joined_cons '\n' t (List.cons_ne_nil t' ts), fragmentsOf_cons e t (List.cons_ne_nil t' ts), streamOf_cons, ih]
      simp [Fragment.sent]

theorem streamOf_fragments (e : SerialEntry) : streamOf e.fragments = e.sent.map (·, e) := by
  rw [fragments, streamOf_fragmentsOf e (Text.pieces_ne_nil _ _), Text.joined_pieces, sent]

theorem newline_not_mem_fragment {e : SerialEntry} {f : Fragment} (h : f ∈ e.fragments) : '\n' ∉ f.text :=
  Text.sep_not_mem_piece (mem_fragmentsOf h).2

end SerialEntry

namespace SerialLog

/-- All that was sent. -/
def sent (l : SerialLog) : Text := l.entries.flatMap SerialEntry.sent

/-- The characters that were sent, each with the print that sent it. -/
def stream (l : SerialLog) : List (Char × SerialEntry) := l.entries.flatMap fun e => e.sent.map (·, e)

/-- The print that sent the first character on a line, the line after so many line feeds. -/
def supplier? (l : SerialLog) (k : Nat) : Option SerialEntry :=
  ((l.stream.splitOnP (·.1 = '\n'))[k]?.bind List.head?).map Prod.snd

theorem map_fst_stream (l : SerialLog) : l.stream.map Prod.fst = l.sent := by
  simp [stream, sent, List.map_flatMap, Function.comp_def]

/-- Cut at its line feeds, what was sent falls into the rows, and an empty rest behind the last line feed. -/
theorem splitOnP_stream (l : SerialLog) :
    l.stream.splitOnP (·.1 = '\n') =
      (rows (fragments l.entries)).map MonitorRow.stream ++
        if leavesOpen (fragments l.entries) then [] else [[]] := by
  have hstream : l.stream = streamOf (fragments l.entries) := by
    simp only [stream, fragments, streamOf, List.flatMap_assoc]
    refine List.flatMap_congr fun e _ => ?_
    exact (e.streamOf_fragments).symm
  rw [hstream]
  refine splitOnP_streamOf fun f hf => ?_
  obtain ⟨e, -, he⟩ := List.mem_flatMap.1 hf
  exact SerialEntry.newline_not_mem_fragment he

theorem pieces_sent (l : SerialLog) :
    Text.pieces '\n' l.sent =
      l.lines.map (·.text) ++ if leavesOpen (fragments l.entries) then [] else [[]] := by
  rw [← map_fst_stream, Text.pieces_map, splitOnP_stream, lines_eq_rows, List.map_append, List.map_map, List.map_map]
  congr 1
  · refine List.map_congr_left fun r _ => ?_
    exact r.map_fst_stream
  · split <;> rfl

/-- What stands on the lines are the characters that were sent, but for the line feeds. -/
theorem flatMap_lines_text (l : SerialLog) : l.lines.flatMap (·.text) = l.sent.filter (· ≠ '\n') := by
  rw [← Text.flatten_pieces, pieces_sent, List.flatten_append, List.flatMap_def]
  split <;> simp

/-! ## Nothing is lost -/

/-- The rows are opened by some of the fragments, in their order. -/
theorem openers_sublist (fs : List Fragment) : ((rows fs).map MonitorRow.opener).Sublist fs := by
  induction fs with
  | nil => exact List.Sublist.refl []
  | cons f fs ih =>
    cases hends : f.ends with
    | true =>
      rw [rows_of_ends hends]
      exact ih.cons_cons f
    | false =>
      rw [rows_of_open hends]
      rcases hrows : rows fs with _ | ⟨r, rs⟩
      · exact (List.nil_sublist fs).cons_cons f
      · rw [hrows] at ih
        exact ((List.sublist_cons_self _ _).trans ih).cons_cons f

theorem pairwise_fragments {es : List SerialEntry} (h : es.Pairwise (·.time ≤ ·.time)) :
    (fragments es).Pairwise (·.entry.time ≤ ·.entry.time) := by
  refine List.pairwise_flatMap.2 ⟨fun e _ => ?_, h.imp fun hle f hf g hg => ?_⟩
  · refine List.pairwise_of_forall_mem_list fun f hf g hg => ?_
    rw [(SerialEntry.mem_fragmentsOf hf).1, (SerialEntry.mem_fragmentsOf hg).1]
  · rwa [(SerialEntry.mem_fragmentsOf hf).1, (SerialEntry.mem_fragmentsOf hg).1]

/-- Of a log with any print at all: no line of the monitor holds a line feed, the texts of the lines joined by line feeds
are what was sent, the texts of all prints and the line feeds at their ends, but for a last line feed if the last print
ends its line. If no print was made before the one in front of it, no line is older than the one above it. -/
theorem lines_lose_nothing (l : SerialLog) (printed : l.entries ≠ []) :
    (∀ line ∈ l.lines, '\n' ∉ line.text) ∧
      l.sent = Text.joined '\n' (l.lines.map (·.text)) ++ (if (l.entries.getLast printed).newline then ['\n'] else []) ∧
      (l.entries.Pairwise (·.time ≤ ·.time) → l.lines.Pairwise (·.time ≤ ·.time)) := by
  have pieces := l.pieces_sent
  have hopen : leavesOpen (fragments l.entries) = !(l.entries.getLast printed).newline := by
    rw [leavesOpen_fragments, List.getLast?_eq_some_getLast printed, Option.any_some]
  have some : l.lines.map (·.text) ≠ [] := by
    rw [lines_eq_rows]
    simpa using rows_ne_nil (fragments_ne_nil printed)
  refine ⟨fun line hline => ?_, ?_, fun times => ?_⟩
  · refine Text.sep_not_mem_piece (t := l.sent) ?_
    rw [pieces]
    exact List.mem_append_left _ (List.mem_map_of_mem hline)
  · have joined := Text.joined_pieces '\n' l.sent
    rw [pieces, hopen] at joined
    rw [← joined]
    cases (l.entries.getLast printed).newline with
    | true => exact Text.joined_concat_nil '\n' some
    | false => simp
  · have openers := (pairwise_fragments times).sublist (openers_sublist _)
    rw [List.pairwise_map] at openers
    rw [lines_eq_rows, List.pairwise_map]
    exact openers

/-- Lines that end inside a print and at the end of one, an empty line, and a last one that an empty print opened. -/
theorem lines_lose_nothing_mixed :
    let l := ofEntries [⟨5, "a\nb".toList, false⟩, ⟨7, "c".toList, true⟩, ⟨7, [], true⟩, ⟨9, [], false⟩, ⟨11, "d\n".toList, true⟩] none
    ∃ printed : l.entries ≠ [],
      l.lines = [⟨5, "a".toList⟩, ⟨5, "bc".toList⟩, ⟨7, []⟩, ⟨9, "d".toList⟩, ⟨11, []⟩] ∧
        (∀ line ∈ l.lines, '\n' ∉ line.text) ∧
        l.sent = Text.joined '\n' (l.lines.map (·.text)) ++ (if (l.entries.getLast printed).newline then ['\n'] else []) ∧
        l.sent = "a\nbc\n\nd\n\n".toList ∧ l.entries.Pairwise (·.time ≤ ·.time) ∧ l.lines.Pairwise (·.time ≤ ·.time) := by
  intro l
  have printed : l.entries ≠ [] := by decide
  obtain ⟨plain, whole, sorted⟩ := lines_lose_nothing l printed
  have times : l.entries.Pairwise (·.time ≤ ·.time) := by decide
  exact ⟨printed, by decide, plain, whole, by decide, times, sorted times⟩

/-! ## Times -/

variable {l : SerialLog} {k : Nat}

theorem exists_row {line : SerialLine} (h : l.lines[k]? = some line) :
    ∃ row, (rows (fragments l.entries))[k]? = some row ∧ row.line = line := by
  rw [lines_eq_rows, List.getElem?_map] at h
  exact Option.map_eq_some_iff.1 h

/-- The first character of a line comes from the first fragment that has any. -/
theorem supplier?_of_row {row : MonitorRow} (h : (rows (fragments l.entries))[k]? = some row) :
    l.supplier? k = (row.fragments.find? (·.text ≠ [])).map (·.entry) := by
  have first : ∀ fs : List Fragment,
      (fs.flatMap fun f => f.text.map (·, f.entry)).head?.map Prod.snd = (fs.find? (·.text ≠ [])).map (·.entry) := by
    intro fs
    induction fs with
    | nil => rfl
    | cons f fs ih =>
      rcases hf : f.text with _ | ⟨c, t⟩
      · simpa [hf] using ih
      · simp [hf]
  have hk : k < ((rows (fragments l.entries)).map MonitorRow.stream).length := by
    rw [List.length_map]
    exact (List.getElem?_eq_some_iff.1 h).1
  unfold supplier?
  rw [splitOnP_stream, List.getElem?_append_left hk, List.getElem?_map, h]
  exact first row.fragments

/-- A line has the time of the print that sent its first fragment, be it empty. The first character on the line was sent
by the print of the first of its fragments that is not empty; so the time is that of this print, unless the line was
opened by an empty fragment. -/
theorem line_time_of_opener (l : SerialLog) (k : Nat) (line : SerialLine) (h : l.lines[k]? = some line) :
    ∃ row, (rows (fragments l.entries))[k]? = some row ∧ line.text = row.text ∧ line.time = row.opener.entry.time ∧
      (line.text ≠ [] → ∃ e, l.supplier? k = some e ∧ (row.fragments.find? (·.text ≠ [])).map (·.entry) = some e ∧
        (row.opener.text ≠ [] → line.time = e.time)) := by
  obtain ⟨row, hrow, rfl⟩ := exists_row h
  refine ⟨row, hrow, rfl, rfl, fun nonempty => ?_⟩
  have supplied := supplier?_of_row hrow
  obtain ⟨f, hf⟩ : ∃ f, row.fragments.find? (·.text ≠ []) = some f := by
    refine Option.ne_none_iff_exists'.1 fun none => nonempty (List.flatMap_eq_nil_iff.2 fun f hf => ?_)
    simpa using List.find?_eq_none.1 none f hf
  rw [hf] at supplied
  refine ⟨f.entry, supplied, congrArg _ hf, fun opened => ?_⟩
  have : f = row.opener := by
    rw [MonitorRow.fragments, List.find?_cons_of_pos (by simpa using opened)] at hf
    exact (Option.some.inj hf).symm
  rw [this]
  rfl

/-- A line that is opened behind the line feed in one print and goes on with the next one. -/
theorem line_time_of_opener_split :
    let e : SerialEntry := ⟨5, "a\nb".toList, false⟩
    let l := ofEntries [e, ⟨7, "c".toList, true⟩] none
    let line : SerialLine := ⟨5, "bc".toList⟩
    l.lines[1]? = some line ∧ line.text ≠ [] ∧ l.supplier? 1 = some e ∧
      ∃ row, (rows (fragments l.entries))[1]? = some row ∧ row.opener.text ≠ [] ∧ line.time = e.time := by
  intro e l line
  have second : l.lines[1]? = some line := by decide
  have supplied : l.supplier? 1 = some e := by decide
  obtain ⟨row, hrow, -, -, tells⟩ := line_time_of_opener l 1 line second
  obtain ⟨e', he', -, opened⟩ := tells (by decide)
  obtain rfl : e = e' := Option.some.inj (supplied.symm.trans he')
  have nonempty : row.opener.text ≠ [] := by
    have : (rows (fragments l.entries))[1]?.map (·.opener.text) = some "b".toList := by decide
    rw [hrow, Option.map_some] at this
    rw [Option.some.inj this]
    decide
  exact ⟨second, by decide, supplied, row, hrow, nonempty, opened nonempty⟩

/-- A print of nothing opens the line that the next print fills, and gives it its own time. -/
theorem empty_print_stamps_line :
    ¬ ∀ (l : SerialLog) (k : Nat) (line : SerialLine), l.lines[k]? = some line → line.text ≠ [] →
      ∃ e, l.supplier? k = some e ∧ line.time = e.time := by
  intro stampedBySupplier
  let l := ofEntries [⟨1, [], false⟩, ⟨2, "a".toList, false⟩] none
  obtain ⟨e, he, htime⟩ := stampedBySupplier l 0 ⟨1, "a".toList⟩ (by decide) (by decide)
  have supplied : l.supplier? 0 = some ⟨2, "a".toList, false⟩ := by decide
  obtain rfl : ⟨2, "a".toList, false⟩ = e := Option.some.inj (supplied.symm.trans he)
  exact absurd htime (by decide)

end SerialLog

end Breadboard
